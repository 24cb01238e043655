import Cartridge.Proofs.Command.Lookup
import Cartridge.Proofs.Command.Stepwise

/-!
# Readers are exact

A reader computes with exact numbers, and the same reader in machine arithmetic agrees with it
on every word under every opcode: the checks of a reader come before the steps that rely on
them, so that each step has its result. Hence a word gives a command of the opcode or an error
that shows opcode and word, whether or not the word matches the opcode.
-/
namespace Cartridge.Command

open Machine

/-- The places of the fields of a tile setting, from the top: lowest bit and width. -/
def tileSpans : List (ℕ × ℕ) :=
  [(53, 3), (51, 2), (50, 1), (41, 9), (32, 9), (27, 5), (24, 3), (20, 4), (18, 2), (14, 4),
    (10, 4), (8, 2), (4, 4), (0, 4)]

/-- The places of the fields of a combiner setting, from the top. -/
def combineSpans : List (ℕ × ℕ) :=
  [(52, 4), (47, 5), (44, 3), (41, 3), (37, 4), (32, 5), (28, 4), (24, 4), (21, 3), (18, 3),
    (15, 3), (12, 3), (9, 3), (6, 3), (3, 3), (0, 3)]

lemma takeAll?_tileWidths (word : UInt64) :
    (BitReader.afterTopByte word).takeAll? tileWidths =
      some (tileSpans.map fun span => Word.field word span.1 span.2, ⟨0, 0⟩) :=
  BitReader.takeAll?_all (by decide)

lemma takeAll?_combineWidths (word : UInt64) :
    (BitReader.afterTopByte word).takeAll? combineWidths =
      some (combineSpans.map fun span => Word.field word span.1 span.2, ⟨0, 0⟩) :=
  BitReader.takeAll?_all (by decide)

namespace Reading

def vtx? (word : UInt64) : Reading Command := do
  let count ← field? word 44 8
  let last ← field? word 33 7
  if count = 0 then throw .noVertices
  else if last < count then throw (.lastSlot last count)
  else if 32 < last then
    let dest ← sub? last count
    throw (.slots dest count)
  else
    let small ← narrow? 8 count
    let dest ← sub? last count
    let dest ← narrow? 8 dest
    let address ← address? (Word.low word)
    return vtx small dest address

def modifyVtx? (word : UInt64) : Reading Command := do
  let code ← field? word 48 8
  match (Coded.ofCode? code : Option VertexAttribute) with
  | none => throw (.vertexAttribute code)
  | some part =>
    let vertex ← vertex? (← field? word 32 16)
    return modifyVtx part vertex (Word.low word)

def cullDl? (word : UInt64) : Reading Command := do
  let first ← vertex? (← field? word 32 16)
  let last ← vertex? (← field? word 0 16)
  if last ≤ first then throw (.cullOrder first last) else return cullDl first last

def branchZ? (word : UInt64) : Reading Command := do
  let fiveFold ← field? word 44 12
  let vertex ← vertex? (← field? word 32 12)
  let product ← mul? 64 vertex 5
  if fiveFold ≠ product then throw (.vertexMismatch fiveFold vertex)
  else return branchZ vertex (Word.low word)

def dmaIo? (word : UInt64) : Reading Command := do
  let write ← field? word 55 1
  let dmem ← mul? 64 (← field? word 45 10) 8
  let dmem ← narrow? 16 dmem
  let size ← add? 64 (← field? word 32 12) 1
  let size ← narrow? 16 size
  let dram ← address? (Word.low word)
  return dmaIo (write != 0) dmem size dram

def texture? (word : UInt64) : Reading Command := do
  let code ← field? word 33 7
  if 1 < code then throw (.textureSwitch code)
  else
    let level ← fieldInto? 8 word 43 3
    let tile ← fieldInto? 8 word 40 3
    let scaleS ← field? word 16 16
    let scaleT ← field? word 0 16
    return texture level tile (code == 1) (.ofBits scaleS) (.ofBits scaleT)

/-- The flags that are kept are those under the complement in 32 bits. -/
def geometryMode? (word : UInt64) : Reading Command := do
  let kept ← fieldInto? 32 word 32 24
  return geometryMode (complement 32 kept &&& 0xFFFFFF) (Word.low word)

/-- The three switches are taken out of one field, of which the lowest bit is turned over. -/
def mtx? (word : UInt64) : Reading Command := do
  let field ← field? word 32 3
  let switches := field ^^^ 1
  let address ← address? (Word.low word)
  return mtx (switches &&& 1 != 0) (switches &&& 2 != 0) (switches &&& 4 != 0) address

def moveWord? (word : UInt64) : Reading Command := do
  let code ← field? word 48 8
  match (Coded.ofCode? code : Option MoveWordIndex) with
  | none => throw (.moveWordIndex code)
  | some index =>
    let offset ← fieldInto? 16 word 32 16
    if index = .segment ∧ (offset % 4 ≠ 0 ∨ 0x0F < offset / 4) then throw (.segmentOffset offset)
    else return moveWord index offset (Word.low word)

def moveMem? (word : UInt64) : Reading Command := do
  let code ← field? word 32 8
  match (Coded.ofCode? code : Option MoveMemIndex) with
  | none => throw (.moveMemIndex code)
  | some index =>
    let units ← add? 64 (← field? word 51 5) 1
    let size ← narrow? 16 (← mul? 64 units 8)
    let offset ← narrow? 16 (← mul? 64 (← field? word 40 8) 8)
    let address ← address? (Word.low word)
    return moveMem size offset index address

def loadUcode? (word : UInt64) : Reading Command := do
  let dataSize ← add? 32 (← fieldInto? 32 word 32 16) 1
  let text ← address? (Word.low word)
  return loadUcode dataSize text

def scissor? (word : UInt64) : Reading Command := do
  let code ← field? word 24 4
  match (Coded.ofCode? code : Option ScissorMode) with
  | none => throw (.scissorMode code)
  | some mode =>
    let ul ← corner? word 32
    let lr ← corner? word 0
    given (checkCorners ul lr)
    return setScissor mode ul lr

def loadTlut? (word : UInt64) : Reading Command := do
  let count ← add? 64 (← field? word 14 10) 1
  if 256 < count then throw (.paletteSize count)
  else
    let tile ← fieldInto? 8 word 24 3
    let count ← narrow? 16 count
    return loadTlut tile count

def loadBlock? (word : UInt64) : Reading Command := do
  let texels ← add? 64 (← field? word 12 12) 1
  if 2048 < texels then throw (.texels texels)
  else
    let uls ← fieldInto? 16 word 44 12
    let ult ← fieldInto? 16 word 32 12
    let tile ← fieldInto? 8 word 24 3
    let texels ← narrow? 16 texels
    let dxt ← field? word 0 12
    return loadBlock uls ult tile texels (.ofBits dxt)

/-- The fields of a tile setting with the sizes of the numbers that take them. What is passed
over goes into no number, and a whole word has room for it. -/
def tileReads : List (ℕ × ℕ) :=
  [(8, 3), (8, 2), (64, 1), (16, 9), (16, 9), (64, 5), (8, 3), (8, 4), (8, 2), (8, 4), (8, 4),
    (8, 2), (8, 4), (8, 4)]

def setTile? (word : UInt64) : Reading Command := do
  match ← (BitReader.afterTopByte word).takeInto? tileReads with
  | ([format, size, _, line, tmem, _, tile, palette,
      clampT, maskT, shiftT, clampS, maskS, shiftS], _) =>
    let format ← given (readFormat format)
    return setTile format (.ofCode size) line tmem tile palette
      (readAxis clampT maskT shiftT) (readAxis clampS maskS shiftS)
  | _ => throw .tooShort

/-- The fields of a combiner setting, each taken into a byte. -/
def combineReads : List (ℕ × ℕ) := combineWidths.map fun width => (8, width)

def setCombine? (word : UInt64) : Reading Command := do
  match ← (BitReader.afterTopByte word).takeInto? combineReads with
  | ([a0, c0, alphaA0, alphaC0, a1, c1, b0, b1,
      alphaA1, alphaC1, d0, alphaB0, alphaD0, d1, alphaB1, alphaD1], _) =>
    return setCombine
      ⟨⟨a0, b0, c0, d0⟩, ⟨alphaA0, alphaB0, alphaC0, alphaD0⟩⟩
      ⟨⟨a1, b1, c1, d1⟩, ⟨alphaA1, alphaB1, alphaC1, alphaD1⟩⟩
  | _ => throw .tooShort

/-- The command that the fields of a word make under an opcode. -/
def fields? (word : UInt64) : Opcode → Reading Command
  | .noop => return noop (Word.low word)
  | .vtx => vtx? word
  | .modifyVtx => modifyVtx? word
  | .cullDl => cullDl? word
  | .branchZ => branchZ? word
  | .tri1 => return tri1 (← triangle? word 32)
  | .tri2 => return tri2 (← triangle? word 32) (← triangle? word 0)
  | .quad => return quad (← triangle? word 32) (← triangle? word 0)
  | .special3 => return special3 (← upper? word) (Word.low word)
  | .special2 => return special2 (← upper? word) (Word.low word)
  | .special1 => return special1 (← upper? word) (Word.low word)
  | .dmaIo => dmaIo? word
  | .texture => texture? word
  | .popMtx => given (readPopMtx word)
  | .geometryMode => geometryMode? word
  | .mtx => mtx? word
  | .moveWord => moveWord? word
  | .moveMem => moveMem? word
  | .loadUcode => loadUcode? word
  | .dl => do
    let branch ← field? word 48 1
    return dl (branch != 0) (← address? (Word.low word))
  | .endDl => return endDl
  | .spNoop => return spNoop
  | .rdpHalf1 => return rdpHalf1 (Word.low word)
  | .setOtherModeL => do
    let (shift, len, data) ← mode? word
    return setOtherModeL shift len data
  | .setOtherModeH => do
    let (shift, len, data) ← mode? word
    return setOtherModeH shift len data
  | .texRect => return texRect (← tileRect? false word)
  | .texRectFlip => return texRectFlip (← tileRect? false word)
  | .rdpLoadSync => return rdpLoadSync
  | .rdpPipeSync => return rdpPipeSync
  | .rdpTileSync => return rdpTileSync
  | .rdpFullSync => return rdpFullSync
  | .setKeyGb => return setKeyGb (← key? word 44 24 16) (← key? word 32 8 0)
  | .setKeyR => return setKeyR (← key? word 16 8 0)
  | .setConvert =>
    return setConvert (← coefficient? word 0) (← coefficient? word 1) (← coefficient? word 2)
      (← coefficient? word 3) (← coefficient? word 4) (← coefficient? word 5)
  | .setScissor => scissor? word
  | .setPrimDepth =>
    return setPrimDepth (Word.signed 16 (← fieldInto? 16 word 16 16))
      (Word.signed 16 (← fieldInto? 16 word 0 16))
  | .rdpSetOtherMode => return rdpSetOtherMode (← fieldInto? 32 word 32 24) (Word.low word)
  | .loadTlut => loadTlut? word
  | .rdpHalf2 => return rdpHalf2 (Word.low word)
  | .setTileSize => return setTileSize (← tileRect? true word)
  | .loadBlock => loadBlock? word
  | .loadTile => return loadTile (← tileRect? true word)
  | .setTile => setTile? word
  | .fillRect => do
    let rect ← tileRect? false word
    return fillRect rect.ul rect.lr
  | .setFillColor => return setFillColor (Word.low word)
  | .setFogColor => return setFogColor (readColor word)
  | .setBlendColor => return setBlendColor (readColor word)
  | .setPrimColor =>
    return setPrimColor (← fieldInto? 8 word 40 8) (.ofBits (← field? word 32 8)) (readColor word)
  | .setEnvColor => return setEnvColor (readColor word)
  | .setCombine => setCombine? word
  | .setTImg => return setTImg (← imageSource? word)
  | .setZImg => return setZImg (← address? (Word.low word))
  | .setCImg => return setCImg (← imageSource? word)

variable {word : UInt64}

lemma gives_vtx : Gives (vtx? word) (readVtx word) := by
  have hcount := Word.field_lt word 44 8
  refine .field (by decide) (.field (by decide) (.ite .rfl (fun _ => .error) fun _ => ?_))
  refine .ite .rfl (fun _ => .error) fun hle => ?_
  refine .ite .rfl (fun _ => .step (sub?_of_le (by omega)) .error) fun hlast => ?_
  refine .step (narrow?_of_lt hcount) (.step (sub?_of_le (by omega)) ?_)
  exact .step (narrow?_of_lt (by omega)) (gives_address.bind fun address _ => .ok)

lemma gives_modifyVtx : Gives (modifyVtx? word) (readModifyVtx word) := by
  refine .field (by decide) ?_
  simp only [readModifyVtx]
  cases (Coded.ofCode? (Word.field word 48 8) : Option VertexAttribute) with
  | none => exact .error
  | some part => exact .field (by decide) (gives_vertex.bind fun vertex _ => .ok)

lemma gives_cullDl : Gives (cullDl? word) (readCullDl word) := by
  refine .field (by decide) (gives_vertex.bind fun first _ => ?_)
  refine .field (by decide) (gives_vertex.bind fun last _ => ?_)
  exact .iteNot Nat.not_lt.symm (fun _ => .error) fun _ => .ok

lemma gives_branchZ : Gives (branchZ? word) (readBranchZ word) := by
  refine .field (by decide) (.field (by decide) (gives_vertex.bind fun vertex h => ?_))
  obtain ⟨hle, -⟩ := readVertex_eq_ok.mp h
  exact .step (mul?_of_lt (by omega)) (.iteNot .rfl (fun _ => .error) fun _ => .ok)

lemma gives_dmaIo : Gives (dmaIo? word) (readFields word .dmaIo) := by
  have hdmem := Word.field_lt word 45 10
  have hsize := Word.field_lt word 32 12
  refine .field (by decide) (.field (by decide) (.step (mul?_of_lt (by omega)) ?_))
  refine .step (narrow?_of_lt (by omega)) (.field (by decide) ?_)
  refine .step (add?_of_lt (by omega)) (.step (narrow?_of_lt (by omega)) ?_)
  rw [flag_ne_zero]
  exact gives_address.bind fun dram _ => .ok

lemma gives_texture : Gives (texture? word) (readTexture word) := by
  refine .field (by decide) (.iteNot Nat.not_le.symm (fun _ => .error) fun _ => ?_)
  refine .fieldInto (by decide) (.fieldInto (by decide) ?_)
  exact .field (by decide) (.field (by decide) .ok)

lemma gives_geometryMode : Gives (geometryMode? word) (readFields word .geometryMode) := by
  have hkept := Word.field_lt word 32 24
  refine .fieldInto (by decide) ?_
  have hmask : complement 32 (Word.field word 32 24) &&& 0xFFFFFF =
      2 ^ 24 - 1 - Word.field word 32 24 := by
    rw [show 0xFFFFFF = 2 ^ 24 - 1 from rfl, Nat.and_two_pow_sub_one_eq_mod, complement]
    omega
  rw [hmask]
  exact .ok

lemma gives_mtx : Gives (mtx? word) (readFields word .mtx) := by
  obtain ⟨hpush, hload, hprojection⟩ := switches_eq word 32
  refine .field (by decide) ?_
  simp only [hpush, hload, hprojection]
  exact gives_address.bind fun address _ => .ok

lemma gives_moveWord : Gives (moveWord? word) (readMoveWord word) := by
  refine .field (by decide) ?_
  simp only [readMoveWord]
  cases (Coded.ofCode? (Word.field word 48 8) : Option MoveWordIndex) with
  | none => exact .error
  | some index =>
    refine .fieldInto (by decide) (.ite (and_congr_right' ?_) (fun _ => .error) fun _ => .ok)
    omega

lemma gives_moveMem : Gives (moveMem? word) (readMoveMem word) := by
  have hunits := Word.field_lt word 51 5
  have hoffset := Word.field_lt word 40 8
  refine .field (by decide) ?_
  simp only [readMoveMem]
  cases (Coded.ofCode? (Word.field word 32 8) : Option MoveMemIndex) with
  | none => exact .error
  | some index =>
    refine .field (by decide) (.step (add?_of_lt (by omega)) (.step (mul?_of_lt (by omega)) ?_))
    refine .step (narrow?_of_lt (by omega)) (.field (by decide) (.step (mul?_of_lt (by omega)) ?_))
    exact .step (narrow?_of_lt (by omega)) (gives_address.bind fun address _ => .ok)

lemma gives_loadUcode : Gives (loadUcode? word) (readFields word .loadUcode) := by
  have hsize := Word.field_lt word 32 16
  exact .fieldInto (by decide) (.step (add?_of_lt (by omega)) (gives_address.map _))

lemma gives_scissor : Gives (scissor? word) (readScissor word) := by
  refine .field (by decide) ?_
  simp only [readScissor]
  cases (Coded.ofCode? (Word.field word 24 4) : Option ScissorMode) with
  | none => exact .error
  | some mode =>
    refine .follow (gives_corner (by decide)) (.follow (gives_corner (by decide)) ?_)
    exact (Gives.given _).bind fun _ _ => .ok

lemma gives_loadTlut : Gives (loadTlut? word) (readLoadTlut word) := by
  have hcount := Word.field_lt word 14 10
  refine .field (by decide) (.step (add?_of_lt (by omega)) ?_)
  refine .iteNot Nat.not_le.symm (fun _ => .error) fun _ => ?_
  exact .fieldInto (by decide) (.step (narrow?_of_lt (by omega)) .ok)

lemma gives_loadBlock : Gives (loadBlock? word) (readLoadBlock word) := by
  have htexels := Word.field_lt word 12 12
  refine .field (by decide) (.step (add?_of_lt (by omega)) ?_)
  refine .iteNot Nat.not_le.symm (fun _ => .error) fun _ => ?_
  refine .fieldInto (by decide) (.fieldInto (by decide) (.fieldInto (by decide) ?_))
  exact .step (narrow?_of_lt (by omega)) (.field (by decide) .ok)

lemma takeInto?_tileReads (word : UInt64) :
    (BitReader.afterTopByte word).takeInto? tileReads =
      (BitReader.afterTopByte word).takeAll? tileWidths :=
  BitReader.takeInto?_eq_takeAll? (by decide) _

lemma takeInto?_combineReads (word : UInt64) :
    (BitReader.afterTopByte word).takeInto? combineReads =
      (BitReader.afterTopByte word).takeAll? combineWidths :=
  BitReader.takeInto?_eq_takeAll? (by decide) _

lemma gives_setTile : Gives (setTile? word) (readSetTile word) := by
  rw [readSetTile_eq]
  have htake := (takeInto?_tileReads word).trans (takeAll?_tileWidths word)
  exact .step htake ((Gives.given _).bind fun format _ => .ok)

lemma gives_setCombine : Gives (setCombine? word) (readSetCombine word) := by
  rw [readSetCombine_eq]
  exact .step ((takeInto?_combineReads word).trans (takeAll?_combineWidths word)) .ok

/-- Under every opcode all steps have results, and the reading has the one of the reader. -/
theorem gives_fields (op : Opcode) : Gives (fields? word op) (readFields word op) := by
  cases op with
  | vtx => exact gives_vtx
  | modifyVtx => exact gives_modifyVtx
  | cullDl => exact gives_cullDl
  | branchZ => exact gives_branchZ
  | tri1 => exact (gives_triangle (by decide)).map _
  | tri2 | quad =>
    exact (gives_triangle (by decide)).bind fun _ _ =>
      (gives_triangle (by decide)).bind fun _ _ => .ok
  | special3 | special2 | special1 => exact .follow gives_upper .ok
  | dmaIo => exact gives_dmaIo
  | texture => exact gives_texture
  | popMtx => exact .given _
  | geometryMode => exact gives_geometryMode
  | mtx => exact gives_mtx
  | moveWord => exact gives_moveWord
  | moveMem => exact gives_moveMem
  | loadUcode => exact gives_loadUcode
  | dl =>
    refine .field (by decide) ?_
    rw [flag_ne_zero]
    exact gives_address.map _
  | setOtherModeL | setOtherModeH => exact gives_mode.bind fun _ _ => .ok
  | texRect | texRectFlip | setTileSize | loadTile | fillRect => exact gives_tileRect.map _
  | setKeyGb =>
    exact .follow (gives_key (by decide)) (.follow (gives_key (by decide)) .ok)
  | setKeyR => exact .follow (gives_key (by decide)) .ok
  | setConvert =>
    refine .follow (gives_coefficient (by decide)) (.follow (gives_coefficient (by decide)) ?_)
    refine .follow (gives_coefficient (by decide)) (.follow (gives_coefficient (by decide)) ?_)
    exact .follow (gives_coefficient (by decide)) (.follow (gives_coefficient (by decide)) .ok)
  | setScissor => exact gives_scissor
  | setPrimDepth => exact .fieldInto (by decide) (.fieldInto (by decide) .ok)
  | rdpSetOtherMode => exact .fieldInto (by decide) .ok
  | loadTlut => exact gives_loadTlut
  | loadBlock => exact gives_loadBlock
  | setTile => exact gives_setTile
  | setPrimColor => exact .fieldInto (by decide) (.field (by decide) .ok)
  | setCombine => exact gives_setCombine
  | setTImg | setCImg => exact gives_imageSource.map _
  | setZImg => exact gives_address.map _
  | _ => exact .ok

end Reading

/-- Reads a word as a command of an opcode in machine arithmetic. -/
def readAs? (op : Opcode) (word : UInt64) : Option (Except Error Command) := do
  match ← (Reading.fields? word op).run with
  | .ok command => some (.ok command)
  | .error fault => some (.error ⟨op, word, fault⟩)

theorem readAs?_eq (op : Opcode) (word : UInt64) : readAs? op word = some (readAs op word) := by
  have hrun : (Reading.fields? word op).run = some (readFields word op) :=
    Reading.gives_fields op
  rw [readAs?, hrun, readAs]
  cases readFields word op <;> rfl

/-- Under every opcode every word gives a command of the opcode or an error that shows opcode and
word, and all the arithmetic on the way has room in its machine numbers. The bit readers of tile
and combiner settings take the 56 bits below the top byte to the last one, each field into a
number that has room for it. The fields are those in their places, so that a tile setting fails
only for its format, and a combiner setting never. -/
theorem readAs_exact (op : Opcode) (word : UInt64) :
    Settles (fun c => c.opcode = op) (fun e => e.opcode = op ∧ e.word = word) (readAs op word) ∧
    readAs? op word = some (readAs op word) ∧
    (BitReader.afterTopByte word).takeInto? Reading.tileReads =
      (BitReader.afterTopByte word).takeAll? tileWidths ∧
    (BitReader.afterTopByte word).takeAll? tileWidths =
      some (tileSpans.map fun span => Word.field word span.1 span.2, ⟨0, 0⟩) ∧
    (BitReader.afterTopByte word).takeInto? Reading.combineReads =
      (BitReader.afterTopByte word).takeAll? combineWidths ∧
    (BitReader.afterTopByte word).takeAll? combineWidths =
      some (combineSpans.map fun span => Word.field word span.1 span.2, ⟨0, 0⟩) ∧
    readFields word .setTile =
      (do
        let format ← readFormat (Word.field word 53 3)
        .ok (setTile format (.ofCode (Word.field word 51 2)) (Word.field word 41 9)
          (Word.field word 32 9) (Word.field word 24 3) (Word.field word 20 4)
          (readAxis (Word.field word 18 2) (Word.field word 14 4) (Word.field word 10 4))
          (readAxis (Word.field word 8 2) (Word.field word 4 4) (Word.field word 0 4)))) ∧
    readFields word .setCombine =
      .ok (setCombine
        ⟨⟨Word.field word 52 4, Word.field word 28 4, Word.field word 47 5, Word.field word 15 3⟩,
          ⟨Word.field word 44 3, Word.field word 12 3, Word.field word 41 3,
            Word.field word 9 3⟩⟩
        ⟨⟨Word.field word 37 4, Word.field word 24 4, Word.field word 32 5, Word.field word 6 3⟩,
          ⟨Word.field word 21 3, Word.field word 3 3, Word.field word 18 3,
            Word.field word 0 3⟩⟩) := by
  exact ⟨settles_readAs op, readAs?_eq op word, Reading.takeInto?_tileReads word,
    takeAll?_tileWidths word, Reading.takeInto?_combineReads word, takeAll?_combineWidths word,
    readSetTile_eq, readSetCombine_eq⟩

end Cartridge.Command
