import Cartridge.Proofs.Command.Reading

/-!
# Commands and their words

The operands of a well-formed command fit into their fields, which tile a word.
So a well-formed command is read from exactly one word, and a command that is
not well formed from none.
-/
namespace Cartridge

theorem Address.fits_field {a : Address} (h : a.WellFormed) : a.field.Fits := by
  simp only [Address.WellFormed, Address.segment] at h
  simp only [Address.field, FixedBits.fits_mk]
  omega

theorem Triangle.fits_fields {t : Triangle} (h : t.WellFormed) (shift : ℕ) :
    ∀ f ∈ t.fields shift, f.Fits := by
  obtain ⟨h0, h1, h2⟩ := h
  simp only [Triangle.fields, List.forall_mem_cons, FixedBits.fits_mk]
  exact ⟨by omega, by omega, by omega, List.forall_mem_nil _⟩

theorem Corner.fits_fields (c : Corner) (shift : ℕ) : ∀ f ∈ c.fields shift, f.Fits := by
  simp only [Corner.fields, List.forall_mem_cons, FixedBits.fits_mk]
  exact ⟨c.x.bits_lt, c.y.bits_lt, List.forall_mem_nil _⟩

theorem TileRect.fits_fields {r : TileRect} (h : r.WellFormed) (ulFirst : Bool) :
    ∀ f ∈ r.fields ulFirst, f.Fits := by
  simp only [TileRect.fields, List.forall_mem_append, List.forall_mem_singleton,
    FixedBits.fits_mk]
  exact ⟨⟨Corner.fits_fields _ _, Corner.fits_fields _ _⟩, Nat.lt_succ_of_le h.2⟩

theorem Color.fits_fields {c : Color} (h : c.WellFormed) : ∀ f ∈ c.fields, f.Fits := by
  obtain ⟨hr, hg, hb, ha⟩ := h
  simp only [Color.fields, List.forall_mem_cons, FixedBits.fits_mk]
  exact ⟨hr, hg, hb, ha, List.forall_mem_nil _⟩

theorem ImageSource.fits_fields {i : ImageSource} (h : i.WellFormed) : ∀ f ∈ i.fields, f.Fits := by
  obtain ⟨hpos, hle, haddress⟩ := h
  simp only [ImageSource.fields, List.forall_mem_cons, FixedBits.fits_mk]
  exact ⟨Coded.code_lt i.format, Coded.code_lt i.size, by omega, Address.fits_field haddress,
    List.forall_mem_nil _⟩

theorem TileAxis.fits_fields {a : TileAxis} (h : a.WellFormed) (shift : ℕ) :
    ∀ f ∈ a.fields shift, f.Fits := by
  obtain ⟨hmask, hshift⟩ := h
  have hclamp := Bool.toNat_le a.clamp
  have hmirror := Bool.toNat_le a.mirror
  simp only [TileAxis.fields, List.forall_mem_cons, FixedBits.fits_mk]
  exact ⟨by omega, by omega, by omega, List.forall_mem_nil _⟩

namespace Command

theorem fits_modeFields {shift len data : ℕ} (h : ModeField shift len data) :
    ∀ f ∈ modeFields shift len data, f.Fits := by
  obtain ⟨hpos, hle, hbits⟩ := h
  have hdata := (bits_between_iff.mpr hbits).2
  have hpow : 2 ^ (shift + len) ≤ 2 ^ 32 := Nat.pow_le_pow_right (by decide) hle
  simp only [modeFields, List.forall_mem_cons, FixedBits.fits_mk]
  exact ⟨by omega, by omega, by omega, List.forall_mem_nil _⟩

/-- The operands of a well-formed command are not too great for their fields. -/
theorem fits_operandFields {c : Command} (h : c.WellFormed) : ∀ f ∈ c.operandFields, f.Fits := by
  have hflag (b : Bool) : b.toNat < 2 ^ 1 := b.toNat_lt
  cases c
  all_goals
    simp only [operandFields, List.forall_mem_cons, List.forall_mem_append, FixedBits.fits_mk,
      List.not_mem_nil, false_implies, implies_true, and_true]
  all_goals simp only [WellFormed] at h
  case noop | rdpHalf1 | rdpHalf2 | setFillColor => exact h
  case special1 | special2 | special3 | rdpSetOtherMode => exact h
  case tri1 => exact Triangle.fits_fields h 32
  case tri2 | quad => exact ⟨Triangle.fits_fields h.1 32, Triangle.fits_fields h.2 0⟩
  case setOtherModeL | setOtherModeH => exact fits_modeFields h
  case texRect | texRectFlip => exact TileRect.fits_fields h false
  case setTileSize | loadTile => exact TileRect.fits_fields h true
  case setFogColor | setBlendColor | setEnvColor => exact Color.fits_fields h
  case setTImg | setCImg => exact ImageSource.fits_fields h
  case setZImg => exact Address.fits_field h
  case fillRect ul lr => exact ⟨lr.fits_fields 32, ul.fits_fields 0⟩
  case cullDl | popMtx | geometryMode | loadTlut | branchZ => omega
  case vtx => exact ⟨by omega, by omega, Address.fits_field h.2.2⟩
  case modifyVtx part _ _ => exact ⟨Coded.code_lt part, by omega, by omega⟩
  case dmaIo => exact ⟨hflag _, by omega, by omega, Address.fits_field h.2.2⟩
  case texture enabled scaleS scaleT =>
    have := hflag enabled
    exact ⟨by omega, by omega, by omega, scaleS.bits_lt, scaleT.bits_lt⟩
  case mtx => exact ⟨hflag _, hflag _, hflag _, Address.fits_field h⟩
  case moveWord index _ _ => exact ⟨Coded.code_lt index, h.2⟩
  case moveMem index _ =>
    exact ⟨by omega, by omega, Coded.code_lt index, Address.fits_field h.2.2⟩
  case loadUcode => exact ⟨by omega, Address.fits_field h.2⟩
  case dl => exact ⟨hflag _, Address.fits_field h⟩
  case setKeyGb green blue =>
    exact ⟨green.width.bits_lt, blue.width.bits_lt, h.1.1, h.1.2, h.2.1, h.2.2⟩
  case setKeyR red => exact ⟨red.width.bits_lt, h.1, h.2⟩
  case setConvert | setPrimDepth => simp only [Word.pattern_lt, and_self]
  case setScissor mode ul lr =>
    exact ⟨⟨ul.fits_fields 32, lr.fits_fields 0⟩, Coded.code_lt mode⟩
  case loadBlock dxt => exact ⟨h.1.1, h.1.2, by omega, by omega, dxt.bits_lt⟩
  case setTile format size _ _ _ _ _ _ =>
    exact ⟨⟨⟨Coded.code_lt format, Coded.code_lt size, h.1.1, h.1.2, by omega, by omega⟩,
      TileAxis.fits_fields h.2.2.1 10⟩, TileAxis.fits_fields h.2.2.2 0⟩
  case setPrimColor lodFraction _ =>
    exact ⟨⟨h.1, lodFraction.bits_lt⟩, Color.fits_fields h.2⟩
  case setCombine =>
    simp only [CombineCycle.WellFormed] at h
    omega

/-- Every field of a well-formed command has a value of its width. -/
theorem fits_fields {c : Command} (h : c.WellFormed) : ∀ f ∈ c.fields, f.Fits :=
  List.forall_mem_append.mpr ⟨c.opcode.fits_fixed, fits_operandFields h⟩

/-- The fields of a well-formed command hold in one word only. -/
lemma holds_fields_iff {c : Command} (h : c.WellFormed) {word : UInt64} :
    (∀ f ∈ c.fields, f.Holds word) ↔ word = c.encode :=
  FixedBits.holds_iff_eq_toWord (fits_fields h) c.tile_fields word

/-- A command is read from its own word if it is well formed, and from no other. -/
theorem read_eq_some_iff {c : Command} {word : UInt64} :
    read word = .ok (some c) ↔ c.WellFormed ∧ word = c.encode := by
  constructor
  · intro h
    unfold read at h
    split at h
    · rename_i op hop
      have hfixed := (op.matches_iff_holds word).mp (Opcode.ofWord?_eq_some_iff.mp hop)
      obtain ⟨c', hc', hsome⟩ := map_eq_ok.mp h
      cases hsome
      have hread : readFields word op = .ok c := by
        unfold readAs at hc'
        split at hc'
        · cases hc'
          assumption
        · cases hc'
      have hop := makes_readFields op c hread
      subst hop
      obtain ⟨hwf, hholds⟩ := (readFields_eq_ok_iff hfixed).mp hread
      refine ⟨hwf, (holds_fields_iff hwf).mp ?_⟩
      exact List.forall_mem_append.mpr ⟨hfixed, hholds⟩
    · cases h
  · rintro ⟨hwf, hword⟩
    have hholds := (holds_fields_iff hwf).mpr hword
    obtain ⟨hfixed, hoperands⟩ := List.forall_mem_append.mp hholds
    have hmatch := (c.opcode.matches_iff_holds word).mpr hfixed
    have hread := (readFields_eq_ok_iff hfixed).mpr ⟨hwf, hoperands⟩
    unfold read
    rw [Opcode.ofWord?_eq_some_iff.mpr hmatch]
    simp only [readAs, hread, Except.map]

/-- Reading loses no bit: words that are read as the same command are the same,
and the command gives back its word. -/
theorem eq_encode_of_read {c : Command} {v w : UInt64} (hv : read v = .ok (some c))
    (hw : read w = .ok (some c)) : v = w ∧ c.encode = v := by
  obtain ⟨-, hvc⟩ := read_eq_some_iff.mp hv
  obtain ⟨-, hwc⟩ := read_eq_some_iff.mp hw
  exact ⟨hvc.trans hwc.symm, hvc.symm⟩

theorem eq_encode_of_read_vtx :
    read 0x0100400C06001000 = .ok (some (vtx 4 2 ⟨0x06001000⟩)) ∧
      (vtx 4 2 ⟨0x06001000⟩).encode = 0x0100400C06001000 := by
  have hwf : (vtx 4 2 ⟨0x06001000⟩).WellFormed := by
    simp [WellFormed, Address.WellFormed, Address.segment]
  have h : read 0x0100400C06001000 = .ok (some (vtx 4 2 ⟨0x06001000⟩)) :=
    read_eq_some_iff.mpr ⟨hwf, by decide⟩
  exact ⟨h, (eq_encode_of_read h h).2⟩

/-- The commands that are read from some word are the well-formed ones. -/
theorem exists_read_iff_wellFormed (c : Command) :
    (∃ word, read word = .ok (some c)) ↔ c.WellFormed := by
  constructor
  · rintro ⟨word, h⟩
    exact (read_eq_some_iff.mp h).1
  · intro h
    exact ⟨c.encode, read_eq_some_iff.mpr ⟨h, rfl⟩⟩

end Command

end Cartridge
