import Cartridge.Command.Basic

/-!
# Reading commands

For every opcode the fields of a word are read into a command. A reader checks
that the fields make sense together, whether or not the fixed bits of the word
are those of the opcode; reading a word as such looks up its opcode first. A
fault says which field of a word is wrong.
-/
namespace Cartridge.Command

/-- What is wrong with the fields of a command. -/
inductive Fault
  | segment (number : Nat)
  | oddVertex
  | vertex (slot : Nat)
  | imageFormat (code : Nat)
  | corners (ul lr : Corner)
  | noVertices
  | lastSlot (last count : Nat)
  | slots (dest count : Nat)
  | vertexAttribute (code : Nat)
  | cullOrder (first last : Nat)
  | vertexMismatch (fiveFold slot : Nat)
  | textureSwitch (code : Nat)
  | noMatrices
  | moveWordIndex (code : Nat)
  | segmentOffset (offset : Nat)
  | moveMemIndex (code : Nat)
  | modeField (len fromTop : Nat)
  | modeData (data field : Nat)
  | scissorMode (code : Nat)
  | paletteSize (count : Nat)
  | texels (count : Nat)
  | tooShort
deriving DecidableEq

def cornerText (c : Corner) : String := "(" ++ c.x.toDecimal ++ ", " ++ c.y.toDecimal ++ ")"

def Fault.message : Fault → String
  | segment number => "segment 0x" ++ Numeral.lowerHex 2 number ++ " out of range"
  | oddVertex => "odd vertex index field"
  | vertex slot => s!"vertex index {slot} > 31"
  | imageFormat code => s!"image format {code} unknown"
  | corners ul lr =>
    "upper-left " ++ cornerText ul ++ " is past lower-right " ++ cornerText lr
  | noVertices => "zero vertices"
  | lastSlot last count => s!"end slot {last} below count {count}"
  | slots dest count => s!"dest {dest} + count {count} > 32"
  | vertexAttribute code => "attribute offset 0x" ++ Numeral.lowerHex 2 code ++ " unknown"
  | cullOrder first last => s!"first vertex {first} not below last {last}"
  | vertexMismatch fiveFold slot =>
    "vertex fields disagree (0x" ++ Numeral.lowerHex 1 fiveFold ++ s!" vs {slot})"
  | textureSwitch code => s!"on flag {code} is not 0 or 1"
  | noMatrices => "pops no matrices"
  | moveWordIndex code => "index 0x" ++ Numeral.lowerHex 2 code ++ " unknown"
  | segmentOffset offset => "segment offset 0x" ++ Numeral.lowerHex 1 offset ++ " invalid"
  | moveMemIndex code => s!"index {code} unknown"
  | modeField len fromTop => s!"field of {len} bits at {fromTop} from the top overflows"
  | modeData data field =>
    "data 0x" ++ Numeral.lowerHex 8 data ++ " outside field 0x" ++ Numeral.lowerHex 8 field
  | scissorMode code => "scanline mode 0x" ++ Numeral.lowerHex 1 code ++ " is not 0, 2 or 3"
  | paletteSize count => s!"{count} palette entries > 256"
  | texels count => s!"{count} texels > 2048"
  | tooShort => "the fields are longer than the word"

/-- A word that is no command of its opcode. -/
structure Error where
  opcode : Opcode
  word : UInt64
  fault : Fault
deriving DecidableEq

def Error.message (e : Error) : String :=
  "bad " ++ e.opcode.mnemonic ++ " command 0x" ++ Numeral.upperHex 16 e.word.toNat ++ ": "
    ++ e.fault.message

/-- The result of reading the fields of a word. -/
abbrev Checked := Except Fault

/-- An address in one of the sixteen segments. -/
def readAddress (n : Nat) : Checked Address :=
  if n / 2 ^ 24 ≤ 0x0F then .ok ⟨n⟩ else .error (.segment (n / 2 ^ 24))

/-- A vertex slot from a field that holds twice its number. -/
def readVertex (doubled : Nat) : Checked Nat :=
  if doubled % 2 ≠ 0 then .error .oddVertex
  else if doubled / 2 ≤ 31 then .ok (doubled / 2)
  else .error (.vertex (doubled / 2))

/-- The three vertex slots of a triangle, in bytes from bit `shift` upward. -/
def readTriangle (word : UInt64) (shift : Nat) : Checked Triangle := do
  let v0 ← readVertex (Word.field word (shift + 16) 8)
  let v1 ← readVertex (Word.field word (shift + 8) 8)
  let v2 ← readVertex (Word.field word shift 8)
  .ok ⟨v0, v1, v2⟩

/-- A corner whose vertical coordinate starts at bit `shift`. -/
def readCorner (word : UInt64) (shift : Nat) : Corner where
  x := .ofBits (Word.field word (shift + 12) 12)
  y := .ofBits (Word.field word shift 12)

/-- Checks that `lr` is not above or to the left of `ul`. -/
def checkCorners (ul lr : Corner) : Checked Unit :=
  if ul.x ≤ lr.x ∧ ul.y ≤ lr.y then .ok () else .error (.corners ul lr)

/-- A rectangle with one corner in the upper half of the word: the upper-left
one when `ulFirst` is set. -/
def readTileRect (ulFirst : Bool) (word : UInt64) : Checked TileRect := do
  let high := readCorner word 32
  let low := readCorner word 0
  let (ul, lr) := if ulFirst then (high, low) else (low, high)
  checkCorners ul lr
  .ok ⟨ul, lr, Word.field word 24 3⟩

/-- The image format with a code, of which three mean nothing. -/
def readFormat (code : Nat) : Checked ImageFormat :=
  match (Coded.ofCode? code : Option ImageFormat) with
  | some format => .ok format
  | none => .error (.imageFormat code)

/-- An image with its layout. The word counts the width from zero. -/
def readImageSource (word : UInt64) : Checked ImageSource := do
  let format ← readFormat (Word.field word 53 3)
  let address ← readAddress (Word.low word)
  .ok ⟨format, .ofCode (Word.field word 51 2), Word.field word 32 12 + 1, address⟩

/-- The colour in the lower half of a word. -/
def readColor (word : UInt64) : Color where
  r := Word.field word 24 8
  g := Word.field word 16 8
  b := Word.field word 8 8
  a := Word.field word 0 8

/-- The ones of a field of `len` bits from bit `shift` upward. -/
def modeMask (shift len : Nat) : Nat := (2 ^ len - 1) * 2 ^ shift

/-- Shift, length and data of a command that sets one field of a mode word. The
word counts the shift from the top. -/
def readMode (word : UInt64) : Checked (Nat × Nat × Nat) :=
  let len := Word.field word 32 8 + 1
  let fromTop := Word.field word 40 8
  let data := Word.low word
  if 32 < fromTop + len then .error (.modeField len fromTop)
  else
    let shift := 32 - fromTop - len
    if data % 2 ^ shift = 0 ∧ data < 2 ^ (shift + len) then .ok (shift, len, data)
    else .error (.modeData data (modeMask shift len))

/-- A channel of a chroma key from its three fields. -/
def readKey (width center scale : Nat) : KeyChannel := ⟨.ofBits width, center, scale⟩

/-- The settings of a texture axis, from a clamp and mirror code. -/
def readAxis (code mask shift : Nat) : TileAxis :=
  ⟨code / 2 % 2 == 1, code % 2 == 1, mask, shift⟩

/-- The widths of the fields of a tile setting, from the top. -/
def tileWidths : List Nat := [3, 2, 1, 9, 9, 5, 3, 4, 2, 4, 4, 2, 4, 4]

/-- Reads the settings of a tile, which fill the word from the top. -/
def readSetTile (word : UInt64) : Checked Command :=
  match (BitReader.afterTopByte word).takeAll? tileWidths with
  | some ([format, size, _, line, tmem, _, tile, palette,
      clampT, maskT, shiftT, clampS, maskS, shiftS], _) => do
    let format ← readFormat format
    .ok (setTile format (.ofCode size) line tmem tile palette
      (readAxis clampT maskT shiftT) (readAxis clampS maskS shiftS))
  | _ => .error .tooShort

/-- The widths of the fields of a combiner setting, from the top. -/
def combineWidths : List Nat := [4, 5, 3, 3, 4, 5, 4, 4, 3, 3, 3, 3, 3, 3, 3, 3]

/-- Reads the settings of the combiner. The word mixes the inputs of both cycles. -/
def readSetCombine (word : UInt64) : Checked Command :=
  match (BitReader.afterTopByte word).takeAll? combineWidths with
  | some ([a0, c0, alphaA0, alphaC0, a1, c1, b0, b1,
      alphaA1, alphaC1, d0, alphaB0, alphaD0, d1, alphaB1, alphaD1], _) =>
    .ok (setCombine
      ⟨⟨a0, b0, c0, d0⟩, ⟨alphaA0, alphaB0, alphaC0, alphaD0⟩⟩
      ⟨⟨a1, b1, c1, d1⟩, ⟨alphaA1, alphaB1, alphaC1, alphaD1⟩⟩)
  | _ => .error .tooShort

/-- Reads a load of vertices. The word holds the slot behind the last one. -/
def readVtx (word : UInt64) : Checked Command := do
  let count := Word.field word 44 8
  let last := Word.field word 33 7
  if count = 0 then .error .noVertices
  else if last < count then .error (.lastSlot last count)
  else if 32 < last then .error (.slots (last - count) count)
  else
    let address ← readAddress (Word.low word)
    .ok (vtx count (last - count) address)

def readModifyVtx (word : UInt64) : Checked Command := do
  let code := Word.field word 48 8
  match (Coded.ofCode? code : Option VertexAttribute) with
  | none => .error (.vertexAttribute code)
  | some part =>
    let vertex ← readVertex (Word.field word 32 16)
    .ok (modifyVtx part vertex (Word.low word))

/-- Reads a test of a run of vertices, which must be more than one. -/
def readCullDl (word : UInt64) : Checked Command := do
  let first ← readVertex (Word.field word 32 16)
  let last ← readVertex (Word.field word 0 16)
  if first < last then .ok (cullDl first last) else .error (.cullOrder first last)

/-- Reads a branch on depth. The word holds the vertex twice, in two units. -/
def readBranchZ (word : UInt64) : Checked Command := do
  let fiveFold := Word.field word 44 12
  let vertex ← readVertex (Word.field word 32 12)
  if fiveFold = vertex * 5 then .ok (branchZ vertex (Word.low word))
  else .error (.vertexMismatch fiveFold vertex)

def readTexture (word : UInt64) : Checked Command :=
  let code := Word.field word 33 7
  if code ≤ 1 then
    .ok (texture (Word.field word 43 3) (Word.field word 40 3) (code == 1)
      (.ofBits (Word.field word 16 16)) (.ofBits (Word.field word 0 16)))
  else .error (.textureSwitch code)

/-- Reads a removal of matrices. The word counts their bytes, 64 for each. -/
def readPopMtx (word : UInt64) : Checked Command :=
  let count := Word.low word / 64
  if count = 0 then .error .noMatrices else .ok (popMtx count)

/-- Reads a write of one word. A segment must be one of the sixteen. -/
def readMoveWord (word : UInt64) : Checked Command :=
  let code := Word.field word 48 8
  let offset := Word.field word 32 16
  match (Coded.ofCode? code : Option MoveWordIndex) with
  | none => .error (.moveWordIndex code)
  | some index =>
    if index = .segment ∧ ¬ (offset % 4 = 0 ∧ offset / 4 ≤ 0x0F) then
      .error (.segmentOffset offset)
    else .ok (moveWord index offset (Word.low word))

/-- Reads a write of a block. The word counts in units of eight bytes. -/
def readMoveMem (word : UInt64) : Checked Command := do
  let code := Word.field word 32 8
  match (Coded.ofCode? code : Option MoveMemIndex) with
  | none => .error (.moveMemIndex code)
  | some index =>
    let address ← readAddress (Word.low word)
    .ok (moveMem ((Word.field word 51 5 + 1) * 8) (Word.field word 40 8 * 8) index address)

/-- Reads the rectangle outside of which nothing is drawn. -/
def readScissor (word : UInt64) : Checked Command := do
  let code := Word.field word 24 4
  match (Coded.ofCode? code : Option ScissorMode) with
  | none => .error (.scissorMode code)
  | some mode =>
    let ul := readCorner word 32
    let lr := readCorner word 0
    checkCorners ul lr
    .ok (setScissor mode ul lr)

/-- Reads a load of a palette, of at most 256 colours. -/
def readLoadTlut (word : UInt64) : Checked Command :=
  let count := Word.field word 14 10 + 1
  if count ≤ 256 then .ok (loadTlut (Word.field word 24 3) count)
  else .error (.paletteSize count)

/-- Reads a load of a block of texels, of at most 2048. -/
def readLoadBlock (word : UInt64) : Checked Command :=
  let texels := Word.field word 12 12 + 1
  if texels ≤ 2048 then
    .ok (loadBlock (Word.field word 44 12) (Word.field word 32 12) (Word.field word 24 3) texels
      (.ofBits (Word.field word 0 12)))
  else .error (.texels texels)

/-- A signed coefficient of nine bits from bit `shift` upward. -/
def coefficient (word : UInt64) (shift : Nat) : Int := Word.signed 9 (Word.field word shift 9)

/-- The command that the fields of a word make under an opcode. -/
def readFields (word : UInt64) : Opcode → Checked Command
  | .noop => .ok (noop (Word.low word))
  | .vtx => readVtx word
  | .modifyVtx => readModifyVtx word
  | .cullDl => readCullDl word
  | .branchZ => readBranchZ word
  | .tri1 => (readTriangle word 32).map tri1
  | .tri2 => do .ok (tri2 (← readTriangle word 32) (← readTriangle word 0))
  | .quad => do .ok (quad (← readTriangle word 32) (← readTriangle word 0))
  | .special3 => .ok (special3 (Word.field word 32 24) (Word.low word))
  | .special2 => .ok (special2 (Word.field word 32 24) (Word.low word))
  | .special1 => .ok (special1 (Word.field word 32 24) (Word.low word))
  | .dmaIo => do
    let address ← readAddress (Word.low word)
    .ok (dmaIo (Word.field word 55 1 == 1) (Word.field word 45 10 * 8)
      (Word.field word 32 12 + 1) address)
  | .texture => readTexture word
  | .popMtx => readPopMtx word
  | .geometryMode =>
    .ok (geometryMode (2 ^ 24 - 1 - Word.field word 32 24) (Word.low word))
  | .mtx => do
    let address ← readAddress (Word.low word)
    .ok (mtx (Word.field word 32 1 == 0) (Word.field word 33 1 == 1) (Word.field word 34 1 == 1)
      address)
  | .moveWord => readMoveWord word
  | .moveMem => readMoveMem word
  | .loadUcode => (readAddress (Word.low word)).map (loadUcode (Word.field word 32 16 + 1))
  | .dl => (readAddress (Word.low word)).map (dl (Word.field word 48 1 == 1))
  | .endDl => .ok endDl
  | .spNoop => .ok spNoop
  | .rdpHalf1 => .ok (rdpHalf1 (Word.low word))
  | .setOtherModeL => do
    let (shift, len, data) ← readMode word
    .ok (setOtherModeL shift len data)
  | .setOtherModeH => do
    let (shift, len, data) ← readMode word
    .ok (setOtherModeH shift len data)
  | .texRect => (readTileRect false word).map texRect
  | .texRectFlip => (readTileRect false word).map texRectFlip
  | .rdpLoadSync => .ok rdpLoadSync
  | .rdpPipeSync => .ok rdpPipeSync
  | .rdpTileSync => .ok rdpTileSync
  | .rdpFullSync => .ok rdpFullSync
  | .setKeyGb =>
    .ok (setKeyGb
      (readKey (Word.field word 44 12) (Word.field word 24 8) (Word.field word 16 8))
      (readKey (Word.field word 32 12) (Word.field word 8 8) (Word.field word 0 8)))
  | .setKeyR =>
    .ok (setKeyR (readKey (Word.field word 16 12) (Word.field word 8 8) (Word.field word 0 8)))
  | .setConvert =>
    .ok (setConvert (coefficient word 45) (coefficient word 36) (coefficient word 27)
      (coefficient word 18) (coefficient word 9) (coefficient word 0))
  | .setScissor => readScissor word
  | .setPrimDepth =>
    .ok (setPrimDepth (Word.signed 16 (Word.field word 16 16))
      (Word.signed 16 (Word.field word 0 16)))
  | .rdpSetOtherMode => .ok (rdpSetOtherMode (Word.field word 32 24) (Word.low word))
  | .loadTlut => readLoadTlut word
  | .rdpHalf2 => .ok (rdpHalf2 (Word.low word))
  | .setTileSize => (readTileRect true word).map setTileSize
  | .loadBlock => readLoadBlock word
  | .loadTile => (readTileRect true word).map loadTile
  | .setTile => readSetTile word
  | .fillRect => (readTileRect false word).map fun rect => fillRect rect.ul rect.lr
  | .setFillColor => .ok (setFillColor (Word.low word))
  | .setFogColor => .ok (setFogColor (readColor word))
  | .setBlendColor => .ok (setBlendColor (readColor word))
  | .setPrimColor =>
    .ok (setPrimColor (Word.field word 40 8) (.ofBits (Word.field word 32 8)) (readColor word))
  | .setEnvColor => .ok (setEnvColor (readColor word))
  | .setCombine => readSetCombine word
  | .setTImg => (readImageSource word).map setTImg
  | .setZImg => (readAddress (Word.low word)).map setZImg
  | .setCImg => (readImageSource word).map setCImg

def readAs (op : Opcode) (word : UInt64) : Except Error Command :=
  match readFields word op with
  | .ok command => .ok command
  | .error fault => .error ⟨op, word, fault⟩

/-- Reads a word. Nothing is read where no opcode has the fixed bits of the word. -/
def read (word : UInt64) : Except Error (Option Command) :=
  match Opcode.ofWord? word with
  | some op => (readAs op word).map some
  | none => .ok none

end Cartridge.Command
