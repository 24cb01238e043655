import Cartridge.Proofs.Command.Parts

/-!
# Reading commands

The fields of a word are read as a command of the opcode asked for. Under the
fixed bits of the opcode, a command is read from the words that hold its
operands, if it is well formed, and from no word otherwise.
-/
namespace Cartridge.Command

variable {word : UInt64}

theorem readVtx_eq_ok {count dest : ℕ} {address : Address} :
    readVtx word = .ok (vtx count dest address) ↔ (vtx count dest address).StandsIn word := by
  simp only [readVtx, StandsIn, WellFormed, operandFields, List.forall_mem_cons,
    FixedBits.holds_mk]
  generalize Word.field word 44 8 = number
  generalize Word.field word 33 7 = last
  constructor
  · intro h
    split at h
    · cases h
    · split at h
      · cases h
      · split at h
        · cases h
        · obtain ⟨a, ha, h⟩ := bind_eq_ok.mp h
          obtain ⟨hwf, hholds⟩ := readAddress_eq_ok.mp ha
          cases h
          exact ⟨⟨by omega, by omega, hwf⟩, rfl, by omega, hholds, List.forall_mem_nil _⟩
  · rintro ⟨⟨hpos, hle, hwf⟩, rfl, rfl, hholds, -⟩
    rw [if_neg (by omega), if_neg (by omega), if_neg (by omega), Nat.add_sub_cancel]
    exact bind_eq_ok.mpr ⟨address, readAddress_eq_ok.mpr ⟨hwf, hholds⟩, rfl⟩

theorem readModifyVtx_eq_ok {part : VertexAttribute} {vertex value : ℕ}
    (parity : Word.field word 32 1 = 0) :
    readModifyVtx word = .ok (modifyVtx part vertex value) ↔
      (modifyVtx part vertex value).StandsIn word := by
  have hlow := Word.field_lt word 0 32
  simp only [readModifyVtx, StandsIn, WellFormed, operandFields, List.forall_mem_cons,
    FixedBits.holds_mk, Word.low_def]
  constructor
  · intro h
    split at h
    · cases h
    · rename_i part hpart
      obtain ⟨v, hv, h⟩ := bind_eq_ok.mp h
      obtain ⟨hle, hv, -⟩ := readVertex_eq_ok.mp hv
      cases h
      exact ⟨⟨hle, hlow⟩, Coded.ofCode?_eq_some_iff.mp hpart, hv, rfl, List.forall_mem_nil _⟩
  · rintro ⟨⟨hle, -⟩, hpart, hvertex, rfl, -⟩
    rw [Coded.ofCode?_eq_some_iff.mpr hpart]
    exact bind_eq_ok.mpr ⟨vertex, readVertex_eq_ok.mpr ⟨hle, hvertex, parity⟩, rfl⟩

theorem readCullDl_eq_ok {first last : ℕ} (high : Word.field word 32 1 = 0)
    (low : Word.field word 0 1 = 0) :
    readCullDl word = .ok (cullDl first last) ↔ (cullDl first last).StandsIn word := by
  simp only [readCullDl, bind_eq_ok, readVertex_eq_ok, StandsIn, WellFormed, operandFields,
    List.forall_mem_cons, FixedBits.holds_mk]
  constructor
  · rintro ⟨a, ⟨ha, hfa, -⟩, b, ⟨hb, hfb, -⟩, h⟩
    split at h
    · cases h
      exact ⟨⟨‹_›, hb⟩, hfa, hfb, List.forall_mem_nil _⟩
    · cases h
  · rintro ⟨⟨hlt, hle⟩, hff, hfl, -⟩
    exact ⟨first, ⟨by omega, hff, high⟩, last, ⟨hle, hfl, low⟩, if_pos hlt⟩

theorem readBranchZ_eq_ok {vertex z : ℕ} :
    readBranchZ word = .ok (branchZ vertex z) ↔ (branchZ vertex z).StandsIn word := by
  have hlow := Word.field_lt word 0 32
  simp only [readBranchZ, bind_eq_ok, readVertex_eq_ok, StandsIn, WellFormed, operandFields,
    List.forall_mem_cons, FixedBits.holds_mk, Word.low_def]
  constructor
  · rintro ⟨a, ⟨ha, hfa, hzero⟩, h⟩
    split at h
    · cases h
      exact ⟨⟨ha, hlow⟩, ‹_›, hfa, hzero, rfl, List.forall_mem_nil _⟩
    · cases h
  · rintro ⟨⟨hle, -⟩, hfive, hv, hzero, rfl, -⟩
    exact ⟨vertex, ⟨hle, hv, hzero⟩, if_pos hfive⟩

theorem readTexture_eq_ok {level tile : ℕ} {enabled : Bool} {scaleS scaleT : Fixed .scale} :
    readTexture word = .ok (texture level tile enabled scaleS scaleT) ↔
      (texture level tile enabled scaleS scaleT).StandsIn word := by
  have hlevel := Word.field_lt word 43 3
  have htile := Word.field_lt word 40 3
  simp only [readTexture, StandsIn, WellFormed, operandFields, List.forall_mem_cons,
    FixedBits.holds_mk, ← Word.ofBits_field_eq_iff .scale 16 rfl]
  constructor
  · intro h
    split at h
    · rename_i hswitch
      cases h
      refine ⟨⟨by omega, by omega⟩, rfl, rfl, ?_, rfl, rfl, List.forall_mem_nil _⟩
      generalize Word.field word 33 7 = switch at *
      interval_cases switch <;> rfl
    · cases h
  · rintro ⟨-, rfl, rfl, hswitch, rfl, rfl, -⟩
    rw [hswitch]
    cases enabled <;> rfl

theorem readPopMtx_eq_ok {count : ℕ} :
    readPopMtx word = .ok (popMtx count) ↔ (popMtx count).StandsIn word := by
  have hcount := Word.field_lt word 6 26
  have hdiv : Word.low word / 64 = Word.field word 6 26 := Word.field_div word 0 6 26
  simp only [readPopMtx, StandsIn, WellFormed, operandFields, List.forall_mem_singleton,
    FixedBits.holds_mk, hdiv]
  constructor
  · intro h
    split at h
    · cases h
    · cases h
      exact ⟨⟨by omega, hcount⟩, rfl⟩
  · rintro ⟨⟨hpos, -⟩, rfl⟩
    rw [if_neg (by omega)]

theorem readMoveWord_eq_ok {index : MoveWordIndex} {offset data : ℕ} :
    readMoveWord word = .ok (moveWord index offset data) ↔
      (moveWord index offset data).StandsIn word := by
  have hoffset := Word.field_lt word 32 16
  have hlow := Word.field_lt word 0 32
  simp only [readMoveWord, StandsIn, WellFormed, operandFields, List.forall_mem_cons,
    FixedBits.holds_mk, Word.low_def]
  constructor
  · intro h
    split at h
    · cases h
    · rename_i index hindex
      split at h
      · cases h
      · rename_i hsegment
        cases h
        refine ⟨⟨?_, hoffset, hlow⟩, Coded.ofCode?_eq_some_iff.mp hindex, rfl, rfl,
          List.forall_mem_nil _⟩
        intro hi
        by_contra hbad
        exact hsegment ⟨hi, by omega⟩
  · rintro ⟨⟨hsegment, -⟩, hindex, rfl, rfl, -⟩
    rw [Coded.ofCode?_eq_some_iff.mpr hindex]
    apply if_neg
    rintro ⟨hi, hbad⟩
    have := hsegment hi
    omega

theorem readMoveMem_eq_ok {size offset : ℕ} {index : MoveMemIndex} {address : Address} :
    readMoveMem word = .ok (moveMem size offset index address) ↔
      (moveMem size offset index address).StandsIn word := by
  have hsize := Word.field_lt word 51 5
  have hoffset := Word.field_lt word 40 8
  simp only [readMoveMem, StandsIn, WellFormed, operandFields, List.forall_mem_cons,
    FixedBits.holds_mk]
  generalize Word.field word 51 5 = units at *
  generalize Word.field word 40 8 = start at *
  constructor
  · intro h
    split at h
    · cases h
    · rename_i index hindex
      obtain ⟨a, ha, h⟩ := bind_eq_ok.mp h
      obtain ⟨hwf, hholds⟩ := readAddress_eq_ok.mp ha
      cases h
      exact ⟨⟨by omega, by omega, hwf⟩, by omega, by omega, Coded.ofCode?_eq_some_iff.mp hindex,
        hholds, List.forall_mem_nil _⟩
  · rintro ⟨⟨hs, ho, hwf⟩, hunits, hstart, hindex, hholds, -⟩
    have hs' : (units + 1) * 8 = size := by omega
    have ho' : start * 8 = offset := by omega
    rw [Coded.ofCode?_eq_some_iff.mpr hindex, hs', ho']
    exact bind_eq_ok.mpr ⟨address, readAddress_eq_ok.mpr ⟨hwf, hholds⟩, rfl⟩

theorem readScissor_eq_ok {mode : ScissorMode} {ul lr : Corner} :
    readScissor word = .ok (setScissor mode ul lr) ↔ (setScissor mode ul lr).StandsIn word := by
  simp only [readScissor, StandsIn, WellFormed, operandFields, List.forall_mem_append]
  rw [← readCorner_eq_iff, ← readCorner_eq_iff, List.forall_mem_singleton, FixedBits.holds_mk]
  constructor
  · intro h
    split at h
    · cases h
    · rename_i mode hmode
      obtain ⟨u, horder, h⟩ := bind_eq_ok.mp h
      cases h
      exact ⟨checkCorners_eq_ok.mp horder, ⟨rfl, rfl⟩, Coded.ofCode?_eq_some_iff.mp hmode⟩
  · rintro ⟨horder, ⟨rfl, rfl⟩, hmode⟩
    rw [Coded.ofCode?_eq_some_iff.mpr hmode]
    exact bind_eq_ok.mpr ⟨(), checkCorners_eq_ok.mpr horder, rfl⟩

theorem readLoadTlut_eq_ok {tile count : ℕ} :
    readLoadTlut word = .ok (loadTlut tile count) ↔ (loadTlut tile count).StandsIn word := by
  have htile := Word.field_lt word 24 3
  simp only [readLoadTlut, StandsIn, WellFormed, operandFields, List.forall_mem_cons,
    FixedBits.holds_mk]
  constructor
  · intro h
    split at h
    · cases h
      exact ⟨⟨by omega, by omega, by omega⟩, rfl, rfl, List.forall_mem_nil _⟩
    · cases h
  · rintro ⟨⟨-, hpos, hle⟩, rfl, hcount, -⟩
    have hcount' : Word.field word 14 10 + 1 = count := by omega
    rw [hcount', if_pos hle]

theorem readLoadBlock_eq_ok {uls ult tile texels : ℕ} {dxt : Fixed .dxt} :
    readLoadBlock word = .ok (loadBlock uls ult tile texels dxt) ↔
      (loadBlock uls ult tile texels dxt).StandsIn word := by
  have huls := Word.field_lt word 44 12
  have hult := Word.field_lt word 32 12
  have htile := Word.field_lt word 24 3
  simp only [readLoadBlock, StandsIn, WellFormed, operandFields, List.forall_mem_cons,
    FixedBits.holds_mk, ← Word.ofBits_field_eq_iff .dxt 12 rfl]
  constructor
  · intro h
    split at h
    · cases h
      exact ⟨⟨⟨huls, hult⟩, by omega, by omega, by omega⟩, rfl, rfl, rfl, rfl, rfl,
        List.forall_mem_nil _⟩
    · cases h
  · rintro ⟨⟨-, -, hpos, hle⟩, rfl, rfl, rfl, htexels, rfl, -⟩
    have htexels' : Word.field word 12 12 + 1 = texels := by omega
    rw [htexels', if_pos hle]

theorem readSetTile_eq :
    readSetTile word = (do
      let format ← readFormat (Word.field word 53 3)
      .ok (setTile format (.ofCode (Word.field word 51 2)) (Word.field word 41 9)
        (Word.field word 32 9) (Word.field word 24 3) (Word.field word 20 4)
        (readAxis (Word.field word 18 2) (Word.field word 14 4) (Word.field word 10 4))
        (readAxis (Word.field word 8 2) (Word.field word 4 4) (Word.field word 0 4)))) := by
  have hwidths : Word.total tileWidths ≤ 56 := by decide
  rw [readSetTile, BitReader.takeAll?_afterTopByte word hwidths]
  rfl

theorem readSetTile_eq_ok {format : ImageFormat} {size : TexelSize}
    {line tmem tile palette : ℕ} {t s : TileAxis} :
    readSetTile word = .ok (setTile format size line tmem tile palette t s) ↔
      (setTile format size line tmem tile palette t s).StandsIn word := by
  have hline := Word.field_lt word 41 9
  have htmem := Word.field_lt word 32 9
  have htile := Word.field_lt word 24 3
  have hpalette := Word.field_lt word 20 4
  rw [readSetTile_eq]
  simp only [bind_eq_ok, readFormat_eq_ok, StandsIn, WellFormed, operandFields,
    List.forall_mem_append]
  simp only [List.forall_mem_cons, FixedBits.holds_mk]
  constructor
  · rintro ⟨f, hf, h⟩
    cases h
    obtain ⟨htwf, hth⟩ := readAxis_eq_iff.mp (rfl : readAxis (Word.field word 18 2) _ _ = _)
    obtain ⟨hswf, hsh⟩ := readAxis_eq_iff.mp (rfl : readAxis (Word.field word 8 2) _ _ = _)
    exact ⟨⟨⟨hline, htmem⟩, ⟨by omega, by omega⟩, htwf, hswf⟩,
      ⟨⟨hf, ofCode_texelSize.mp rfl, rfl, rfl, rfl, rfl, List.forall_mem_nil _⟩, hth⟩, hsh⟩
  · rintro ⟨⟨-, -, htwf, hswf⟩, ⟨⟨hformat, hsize, rfl, rfl, rfl, rfl, -⟩, hth⟩, hsh⟩
    have ht := readAxis_eq_iff.mpr ⟨htwf, hth⟩
    have hs := readAxis_eq_iff.mpr ⟨hswf, hsh⟩
    refine ⟨format, hformat, ?_⟩
    rw [ofCode_texelSize.mpr hsize, ht, hs]

theorem readSetCombine_eq :
    readSetCombine word = .ok (setCombine
      ⟨⟨Word.field word 52 4, Word.field word 28 4, Word.field word 47 5, Word.field word 15 3⟩,
        ⟨Word.field word 44 3, Word.field word 12 3, Word.field word 41 3, Word.field word 9 3⟩⟩
      ⟨⟨Word.field word 37 4, Word.field word 24 4, Word.field word 32 5, Word.field word 6 3⟩,
        ⟨Word.field word 21 3, Word.field word 3 3, Word.field word 18 3,
          Word.field word 0 3⟩⟩) := by
  have hwidths : Word.total combineWidths ≤ 56 := by decide
  rw [readSetCombine, BitReader.takeAll?_afterTopByte word hwidths]
  rfl

theorem readSetCombine_eq_ok {first second : CombineCycle} :
    readSetCombine word = .ok (setCombine first second) ↔
      (setCombine first second).StandsIn word := by
  rw [readSetCombine_eq]
  simp only [StandsIn, WellFormed, operandFields, List.forall_mem_cons, FixedBits.holds_mk]
  constructor
  · intro h
    cases h
    have h3 (shift : ℕ) : Word.field word shift 3 ≤ 7 :=
      Nat.le_of_lt_succ (Word.field_lt word shift 3)
    have h4 (shift : ℕ) : Word.field word shift 4 ≤ 15 :=
      Nat.le_of_lt_succ (Word.field_lt word shift 4)
    have h5 (shift : ℕ) : Word.field word shift 5 ≤ 31 :=
      Nat.le_of_lt_succ (Word.field_lt word shift 5)
    simp [CombineCycle.WellFormed, h3, h4, h5]
  · rintro ⟨-, h⟩
    simp only [h]

theorem readTriangles_eq_ok {make : Triangle → Triangle → Command}
    (inj : ∀ {a b c d : Triangle}, make a b = make c d → a = c ∧ b = d)
    (high : ∀ f ∈ parities 32, f.Holds word) (low : ∀ f ∈ parities 0, f.Holds word)
    {first second : Triangle} :
    (do .ok (make (← readTriangle word 32) (← readTriangle word 0))) =
        (.ok (make first second) : Checked Command) ↔
      (first.WellFormed ∧ second.WellFormed) ∧
        ∀ f ∈ first.fields 32 ++ second.fields 0, f.Holds word := by
  simp only [bind_eq_ok, readTriangle_eq_ok, List.forall_mem_append]
  constructor
  · rintro ⟨a, ⟨hfw, hf, -⟩, b, ⟨hsw, hs, -⟩, h⟩
    obtain ⟨rfl, rfl⟩ := inj (Except.ok.inj h)
    exact ⟨⟨hfw, hsw⟩, hf, hs⟩
  · rintro ⟨⟨hfw, hsw⟩, hf, hs⟩
    exact ⟨first, ⟨hfw, hf, high⟩, second, ⟨hsw, hs, low⟩, rfl⟩

/-- The low bits of the bytes of one triangle are fixed. -/
lemma parities_tri1 (h : ∀ f ∈ Opcode.fixed .tri1, f.Holds word) :
    ∀ f ∈ parities 32, f.Holds word := by
  simp only [Opcode.fixed, Opcode.info, List.forall_mem_cons, FixedBits.holds_mk] at h
  obtain ⟨-, h48, h40, h0, -⟩ := h
  exact parities_hold h48 h40 (Word.field_eq_zero h0 (by decide) (by decide))

/-- The low bits of the bytes of two triangles are fixed. -/
lemma parities_tri2 (h : ∀ f ∈ (Opcode.info .tri2).fixed, f.Holds word) :
    (∀ f ∈ parities 32, f.Holds word) ∧ ∀ f ∈ parities 0, f.Holds word := by
  simp only [Opcode.info, List.forall_mem_cons, FixedBits.holds_mk] at h
  obtain ⟨h48, h40, h24, h16, h8, h0, -⟩ := h
  have h32 := Word.field_eq_zero h24 (show 24 ≤ 32 by decide) (show 32 + 1 ≤ 24 + 9 by decide)
  exact ⟨parities_hold h48 h40 h32, parities_hold h16 h8 h0⟩

lemma parities_cullDl (h : ∀ f ∈ (Opcode.info .cullDl).fixed, f.Holds word) :
    Word.field word 32 1 = 0 ∧ Word.field word 0 1 = 0 := by
  simp only [Opcode.info, List.forall_mem_cons, FixedBits.holds_mk] at h
  obtain ⟨-, h16, h0, -⟩ := h
  exact ⟨Word.field_eq_zero h16 (by decide) (by decide), h0⟩

theorem readDmaIo_eq_ok {write : Bool} {dmem size : ℕ} {dram : Address} :
    readFields word .dmaIo = .ok (dmaIo write dmem size dram) ↔
      (dmaIo write dmem size dram).StandsIn word := by
  have hdmem := Word.field_lt word 45 10
  have hsize := Word.field_lt word 32 12
  simp only [readFields, bind_eq_ok, readAddress_eq_ok, StandsIn, WellFormed, operandFields,
    List.forall_mem_cons, FixedBits.holds_mk, ← Word.flag_eq_iff]
  constructor
  · rintro ⟨a, ⟨hwf, hholds⟩, h⟩
    cases h
    exact ⟨⟨by omega, by omega, hwf⟩, rfl, by omega, by omega, hholds, List.forall_mem_nil _⟩
  · rintro ⟨⟨hd, hs, hwf⟩, rfl, hdmem, hsize, hholds, -⟩
    have hdmem' : Word.field word 45 10 * 8 = dmem := by omega
    have hsize' : Word.field word 32 12 + 1 = size := by omega
    exact ⟨dram, ⟨hwf, hholds⟩, by rw [hdmem', hsize']⟩

theorem readMtx_eq_ok {push load projection : Bool} {address : Address} :
    readFields word .mtx = .ok (mtx push load projection address) ↔
      (mtx push load projection address).StandsIn word := by
  simp only [readFields, bind_eq_ok, readAddress_eq_ok, StandsIn, WellFormed, operandFields,
    List.forall_mem_cons, FixedBits.holds_mk]
  constructor
  · rintro ⟨a, ⟨hwf, hholds⟩, h⟩
    cases h
    exact ⟨hwf, Word.flag_eq_iff.mp rfl, Word.flag_eq_iff.mp rfl, Word.clear_flag_eq_iff.mp rfl,
      hholds, List.forall_mem_nil _⟩
  · rintro ⟨hwf, hprojection, hload, hpush, hholds, -⟩
    refine ⟨address, ⟨hwf, hholds⟩, ?_⟩
    rw [Word.flag_eq_iff.mpr hprojection, Word.flag_eq_iff.mpr hload,
      Word.clear_flag_eq_iff.mpr hpush]

theorem readLoadUcode_eq_ok {dataSize : ℕ} {text : Address} :
    readFields word .loadUcode = .ok (loadUcode dataSize text) ↔
      (loadUcode dataSize text).StandsIn word := by
  have hsize := Word.field_lt word 32 16
  simp only [readFields, map_eq_ok, readAddress_eq_ok, StandsIn, WellFormed, operandFields,
    List.forall_mem_cons, FixedBits.holds_mk]
  constructor
  · rintro ⟨a, ⟨hwf, hholds⟩, h⟩
    cases h
    exact ⟨⟨by omega, hwf⟩, rfl, hholds, List.forall_mem_nil _⟩
  · rintro ⟨⟨hs, hwf⟩, hsize, hholds, -⟩
    have hsize' : Word.field word 32 16 + 1 = dataSize := by omega
    exact ⟨text, ⟨hwf, hholds⟩, by rw [hsize']⟩

theorem readDl_eq_ok {branch : Bool} {address : Address} :
    readFields word .dl = .ok (dl branch address) ↔ (dl branch address).StandsIn word := by
  simp only [readFields, map_eq_ok, readAddress_eq_ok, StandsIn, WellFormed, operandFields,
    List.forall_mem_cons, FixedBits.holds_mk, ← Word.flag_eq_iff]
  constructor
  · rintro ⟨a, ⟨hwf, hholds⟩, h⟩
    cases h
    exact ⟨hwf, rfl, hholds, List.forall_mem_nil _⟩
  · rintro ⟨hwf, rfl, hholds, -⟩
    exact ⟨address, ⟨hwf, hholds⟩, rfl⟩

theorem readGeometryMode_eq_ok {cleared added : ℕ} :
    readFields word .geometryMode = .ok (geometryMode cleared added) ↔
      (geometryMode cleared added).StandsIn word := by
  have hcleared := Word.field_lt word 32 24
  have hlow := Word.field_lt word 0 32
  simp only [readFields, Except.ok.injEq, geometryMode.injEq, StandsIn, WellFormed, operandFields,
    List.forall_mem_cons, FixedBits.holds_mk, Word.low_def]
  constructor
  · rintro ⟨rfl, rfl⟩
    exact ⟨⟨by omega, hlow⟩, by omega, rfl, List.forall_mem_nil _⟩
  · rintro ⟨⟨hc, -⟩, hfield, hadded, -⟩
    exact ⟨by omega, hadded⟩

theorem readSetConvert_eq_ok {k0 k1 k2 k3 k4 k5 : ℤ} :
    readFields word .setConvert = .ok (setConvert k0 k1 k2 k3 k4 k5) ↔
      (setConvert k0 k1 k2 k3 k4 k5).StandsIn word := by
  simp only [readFields, Except.ok.injEq, setConvert.injEq, StandsIn, WellFormed, operandFields,
    List.forall_mem_cons, FixedBits.holds_mk, coefficient_eq_iff]
  constructor
  · rintro ⟨⟨h0, f0⟩, ⟨h1, f1⟩, ⟨h2, f2⟩, ⟨h3, f3⟩, ⟨h4, f4⟩, h5, f5⟩
    exact ⟨⟨h0, h1, h2, h3, h4, h5, List.forall_mem_nil _⟩, f0, f1, f2, f3, f4, f5,
      List.forall_mem_nil _⟩
  · rintro ⟨⟨h0, h1, h2, h3, h4, h5, -⟩, f0, f1, f2, f3, f4, f5, -⟩
    exact ⟨⟨h0, f0⟩, ⟨h1, f1⟩, ⟨h2, f2⟩, ⟨h3, f3⟩, ⟨h4, f4⟩, h5, f5⟩

theorem readSetPrimDepth_eq_ok {z dz : ℤ} :
    readFields word .setPrimDepth = .ok (setPrimDepth z dz) ↔
      (setPrimDepth z dz).StandsIn word := by
  simp only [readFields, Except.ok.injEq, setPrimDepth.injEq, StandsIn, WellFormed, operandFields,
    List.forall_mem_cons, FixedBits.holds_mk, Word.signed_field_eq_iff]
  constructor
  · rintro ⟨⟨hz, fz⟩, hdz, fdz⟩
    exact ⟨⟨hz, hdz, List.forall_mem_nil _⟩, fz, fdz, List.forall_mem_nil _⟩
  · rintro ⟨⟨hz, hdz, -⟩, fz, fdz, -⟩
    exact ⟨⟨hz, fz⟩, hdz, fdz⟩

theorem readSetKeyGb_eq_ok {green blue : KeyChannel} :
    readFields word .setKeyGb = .ok (setKeyGb green blue) ↔
      (setKeyGb green blue).StandsIn word := by
  simp only [readFields, Except.ok.injEq, setKeyGb.injEq, StandsIn, WellFormed, operandFields,
    List.forall_mem_cons, FixedBits.holds_mk, readKey_eq_iff]
  constructor
  · rintro ⟨⟨hg, gw, gc, gs⟩, hb, bw, bc, bs⟩
    exact ⟨⟨hg, hb⟩, gw, bw, gc, gs, bc, bs, List.forall_mem_nil _⟩
  · rintro ⟨⟨hg, hb⟩, gw, bw, gc, gs, bc, bs, -⟩
    exact ⟨⟨hg, gw, gc, gs⟩, hb, bw, bc, bs⟩

theorem readSetKeyR_eq_ok {red : KeyChannel} :
    readFields word .setKeyR = .ok (setKeyR red) ↔ (setKeyR red).StandsIn word := by
  simp only [readFields, Except.ok.injEq, setKeyR.injEq, StandsIn, WellFormed, operandFields,
    List.forall_mem_cons, FixedBits.holds_mk, readKey_eq_iff]
  constructor
  · rintro ⟨hr, rw, rc, rs⟩
    exact ⟨hr, rw, rc, rs, List.forall_mem_nil _⟩
  · rintro ⟨hr, rw, rc, rs, -⟩
    exact ⟨hr, rw, rc, rs⟩

theorem readSetPrimColor_eq_ok {minLevel : ℕ} {lodFraction : Fixed .lod} {color : Color} :
    readFields word .setPrimColor = .ok (setPrimColor minLevel lodFraction color) ↔
      (setPrimColor minLevel lodFraction color).StandsIn word := by
  have hlevel := Word.field_lt word 40 8
  simp only [readFields, Except.ok.injEq, setPrimColor.injEq, StandsIn, WellFormed, operandFields,
    List.forall_mem_append, List.forall_mem_cons, FixedBits.holds_mk, readColor_eq_iff,
    Word.ofBits_field_eq_iff .lod 8 rfl]
  constructor
  · rintro ⟨rfl, hl, hwf, hcolor⟩
    exact ⟨⟨hlevel, hwf⟩, ⟨rfl, hl, List.forall_mem_nil _⟩, hcolor⟩
  · rintro ⟨⟨-, hwf⟩, ⟨hm, hl, -⟩, hcolor⟩
    exact ⟨hm, hl, hwf, hcolor⟩

theorem readFillRect_eq_ok {ul lr : Corner} :
    readFields word .fillRect = .ok (fillRect ul lr) ↔ (fillRect ul lr).StandsIn word := by
  simp only [readFields, map_eq_ok, readTileRect, bind_eq_ok, checkCorners_eq_ok, StandsIn,
    WellFormed, operandFields, List.forall_mem_append]
  rw [← readCorner_eq_iff, ← readCorner_eq_iff]
  constructor
  · rintro ⟨r, ⟨u, horder, hr⟩, h⟩
    cases hr
    cases h
    exact ⟨horder, rfl, rfl⟩
  · rintro ⟨horder, rfl, rfl⟩
    exact ⟨_, ⟨(), horder, rfl⟩, rfl⟩

/-- Settings of both mode words are read alike. -/
theorem readModeCommand_eq_ok {make : ℕ → ℕ → ℕ → Command}
    (inj : ∀ {a b c d e f : ℕ}, make a b c = make d e f → a = d ∧ b = e ∧ c = f)
    {shift len data : ℕ} :
    (do
      let (shift, len, data) ← readMode word
      .ok (make shift len data)) = (.ok (make shift len data) : Checked Command) ↔
      ModeField shift len data ∧ ∀ f ∈ modeFields shift len data, f.Holds word := by
  rw [← readMode_eq_ok, bind_eq_ok]
  constructor
  · rintro ⟨⟨a, b, c⟩, hread, h⟩
    obtain ⟨rfl, rfl, rfl⟩ := inj (Except.ok.inj h)
    exact hread
  · intro h
    exact ⟨_, h, rfl⟩

/-- Under the fixed bits of its opcode a command is read from the words that
hold its operands, if it is well formed, and from no word otherwise. -/
theorem readFields_eq_ok_iff {c : Command} (h : ∀ f ∈ c.opcode.fixed, f.Holds word) :
    readFields word c.opcode = .ok c ↔ c.StandsIn word := by
  have hnil : ∀ f ∈ ([] : List FixedBits), f.Holds word := List.forall_mem_nil _
  have hinfo : ∀ f ∈ c.opcode.info.fixed, f.Holds word := fun f hf =>
    h f (List.mem_cons_of_mem _ hf)
  cases c with
  | noop | rdpHalf1 | rdpHalf2 | setFillColor =>
    simp only [readFields, opcode, Except.ok.injEq, noop.injEq, rdpHalf1.injEq, rdpHalf2.injEq,
      setFillColor.injEq]
    exact low_eq_iff
  | special1 | special2 | special3 | rdpSetOtherMode =>
    simp only [readFields, opcode, Except.ok.injEq, special1.injEq, special2.injEq, special3.injEq,
      rdpSetOtherMode.injEq]
    exact halves_eq_iff
  | setFogColor | setBlendColor | setEnvColor =>
    simp only [readFields, opcode, Except.ok.injEq, setFogColor.injEq, setBlendColor.injEq,
      setEnvColor.injEq]
    exact readColor_eq_iff
  | endDl | spNoop | rdpLoadSync | rdpPipeSync | rdpTileSync | rdpFullSync =>
    exact ⟨fun _ => ⟨trivial, hnil⟩, fun _ => rfl⟩
  | texRect => exact (map_eq_ok_iff fun _ _ => texRect.inj).trans readTileRect_eq_ok
  | texRectFlip => exact (map_eq_ok_iff fun _ _ => texRectFlip.inj).trans readTileRect_eq_ok
  | setTileSize => exact (map_eq_ok_iff fun _ _ => setTileSize.inj).trans readTileRect_eq_ok
  | loadTile => exact (map_eq_ok_iff fun _ _ => loadTile.inj).trans readTileRect_eq_ok
  | setTImg => exact (map_eq_ok_iff fun _ _ => setTImg.inj).trans readImageSource_eq_ok
  | setCImg => exact (map_eq_ok_iff fun _ _ => setCImg.inj).trans readImageSource_eq_ok
  | setZImg =>
    rw [StandsIn, operandFields, List.forall_mem_singleton]
    exact (map_eq_ok_iff fun _ _ => setZImg.inj).trans readAddress_eq_ok
  | tri1 vertices =>
    refine (map_eq_ok_iff fun _ _ => tri1.inj).trans (readTriangle_eq_ok.trans ?_)
    rw [StandsIn, WellFormed, operandFields, and_iff_left (parities_tri1 h)]
  | tri2 => exact readTriangles_eq_ok tri2.inj (parities_tri2 hinfo).1 (parities_tri2 hinfo).2
  | quad => exact readTriangles_eq_ok quad.inj (parities_tri2 hinfo).1 (parities_tri2 hinfo).2
  | setOtherModeL => exact readModeCommand_eq_ok setOtherModeL.inj
  | setOtherModeH => exact readModeCommand_eq_ok setOtherModeH.inj
  | vtx => exact readVtx_eq_ok
  | modifyVtx => exact readModifyVtx_eq_ok (hinfo ⟨32, 1, 0⟩ List.mem_cons_self)
  | cullDl => exact readCullDl_eq_ok (parities_cullDl hinfo).1 (parities_cullDl hinfo).2
  | branchZ => exact readBranchZ_eq_ok
  | dmaIo => exact readDmaIo_eq_ok
  | texture => exact readTexture_eq_ok
  | popMtx => exact readPopMtx_eq_ok
  | geometryMode => exact readGeometryMode_eq_ok
  | mtx => exact readMtx_eq_ok
  | moveWord => exact readMoveWord_eq_ok
  | moveMem => exact readMoveMem_eq_ok
  | loadUcode => exact readLoadUcode_eq_ok
  | dl => exact readDl_eq_ok
  | setKeyGb => exact readSetKeyGb_eq_ok
  | setKeyR => exact readSetKeyR_eq_ok
  | setConvert => exact readSetConvert_eq_ok
  | setScissor => exact readScissor_eq_ok
  | setPrimDepth => exact readSetPrimDepth_eq_ok
  | loadTlut => exact readLoadTlut_eq_ok
  | loadBlock => exact readLoadBlock_eq_ok
  | setTile => exact readSetTile_eq_ok
  | fillRect => exact readFillRect_eq_ok
  | setPrimColor => exact readSetPrimColor_eq_ok
  | setCombine => exact readSetCombine_eq_ok

/-- Every command that the reader gives has the opcode. -/
def Makes (op : Opcode) (x : Checked Command) : Prop := ∀ c, x = .ok c → c.opcode = op

namespace Makes

variable {op : Opcode}

lemma ok {c : Command} (h : c.opcode = op) : Makes op (.ok c) := by
  rintro _ ⟨⟩
  exact h

lemma error {fault : Fault} : Makes op (.error fault) := by
  rintro _ ⟨⟩

lemma bind {α : Type} {x : Checked α} {f : α → Checked Command} (h : ∀ a, Makes op (f a)) :
    Makes op (x >>= f) := by
  intro c hc
  obtain ⟨a, -, ha⟩ := bind_eq_ok.mp hc
  exact h a c ha

lemma map {α : Type} {x : Checked α} {f : α → Command} (h : ∀ a, (f a).opcode = op) :
    Makes op (x.map f) := by
  intro c hc
  obtain ⟨a, -, rfl⟩ := map_eq_ok.mp hc
  exact h a

lemma ite {p : Prop} [Decidable p] {x y : Checked Command} (hx : Makes op x) (hy : Makes op y) :
    Makes op (if p then x else y) := by
  split
  · exact hx
  · exact hy

end Makes

lemma makes_readModifyVtx : Makes .modifyVtx (readModifyVtx word) := by
  simp only [readModifyVtx]
  split
  · exact .error
  · exact .bind fun _ => .ok rfl

lemma makes_readMoveWord : Makes .moveWord (readMoveWord word) := by
  simp only [readMoveWord]
  split
  · exact .error
  · exact .ite .error (.ok rfl)

lemma makes_readMoveMem : Makes .moveMem (readMoveMem word) := by
  simp only [readMoveMem]
  split
  · exact .error
  · exact .bind fun _ => .ok rfl

lemma makes_readScissor : Makes .setScissor (readScissor word) := by
  simp only [readScissor]
  split
  · exact .error
  · exact .bind fun _ => .ok rfl

lemma makes_readSetTile : Makes .setTile (readSetTile word) := by
  rw [readSetTile_eq]
  exact .bind fun _ => .ok rfl

lemma makes_readSetCombine : Makes .setCombine (readSetCombine word) := by
  rw [readSetCombine]
  split
  · exact .ok rfl
  · exact .error

/-- The fields of a word are read as a command of the opcode asked for. -/
theorem makes_readFields (op : Opcode) : Makes op (readFields word op) := by
  cases op with
  | vtx => exact .ite .error (.ite .error (.ite .error (.bind fun _ => .ok rfl)))
  | modifyVtx => exact makes_readModifyVtx
  | moveWord => exact makes_readMoveWord
  | moveMem => exact makes_readMoveMem
  | setScissor => exact makes_readScissor
  | setTile => exact makes_readSetTile
  | setCombine => exact makes_readSetCombine
  | cullDl => exact .bind fun _ => .bind fun _ => .ite (.ok rfl) .error
  | branchZ => exact .bind fun _ => .ite (.ok rfl) .error
  | tri2 | quad => exact .bind fun _ => .bind fun _ => .ok rfl
  | texture | loadTlut | loadBlock => exact .ite (.ok rfl) .error
  | popMtx => exact .ite .error (.ok rfl)
  | dmaIo | mtx | setOtherModeL | setOtherModeH => exact .bind fun _ => .ok rfl
  | tri1 | loadUcode | dl | texRect | texRectFlip | setTileSize | loadTile | fillRect | setTImg
  | setZImg | setCImg => exact .map fun _ => rfl
  | _ => exact .ok rfl

end Cartridge.Command
