import Cartridge.Command.Read
import Cartridge.Proofs.Fixed.Register
import Cartridge.Proofs.Word.Fields
import Mathlib.Data.List.Nodup

/-!
# Opcodes and the words of commands

A word matches an opcode when it holds the fixed fields of the opcode. The top
byte is one of them, and no two opcodes have the same byte, so a word matches
at most one opcode. The index by bytes therefore finds the opcode that a word
matches, wherever the opcode stands in the table.

A command is well formed when its operands make sense: each is in the range of
its field, and operands that belong together agree. The operands stand in fields
of a word, most of them shifted, halved or counted from another end. Together
with the fixed fields of the opcode they tile the word, so a well-formed command
has exactly one word.
-/
namespace Cartridge

namespace Opcode

theorem fits_fixed (op : Opcode) : ∀ f ∈ op.fixed, f.Fits := by
  cases op <;> decide

theorem apart_fixed (op : Opcode) : op.fixed.Pairwise FixedBits.Apart := by
  cases op <;> decide

/-- The mask of an opcode together with its pattern says the same as its fields. -/
theorem matches_iff_holds (op : Opcode) (word : UInt64) :
    op.Matches word ↔ ∀ f ∈ op.fixed, f.Holds word :=
  FixedBits.land_maskOf_eq_iff op.fits_fixed op.apart_fixed word

theorem field_byte_of_matches {op : Opcode} {word : UInt64} (h : op.Matches word) :
    Word.field word 56 8 = op.byte :=
  (op.matches_iff_holds word).mp h ⟨56, 8, op.byte⟩ List.mem_cons_self

theorem mem_all (op : Opcode) : op ∈ all := by
  cases op <;> decide

theorem nodup_bytes : (all.map byte).Nodup := by
  decide

theorem byte_injective : Function.Injective byte := by
  intro a b h
  exact List.inj_on_of_nodup_map nodup_bytes (mem_all a) (mem_all b) h

theorem eq_of_matches {a b : Opcode} {word : UInt64} (ha : a.Matches word)
    (hb : b.Matches word) : a = b :=
  byte_injective ((field_byte_of_matches ha).symm.trans (field_byte_of_matches hb))

theorem withByte_eq_filter {b : ℕ} (h : b < 256) : withByte b = all.filter (·.byte = b) := by
  simp [withByte, index, Array.getD_eq_getD_getElem?, h]

/-- The opcode found for a word is the one that the word matches. -/
theorem ofWord?_eq_some_iff {op : Opcode} {word : UInt64} :
    ofWord? word = some op ↔ op.Matches word := by
  have hbyte : Word.field word 56 8 < 256 := Word.field_lt word 56 8
  rw [ofWord?, withByte_eq_filter hbyte]
  constructor
  · intro h
    have hop := List.find?_some h
    exact of_decide_eq_true hop
  · intro h
    have hmem : op ∈ all.filter (·.byte = Word.field word 56 8) := by
      simp [mem_all, field_byte_of_matches h]
    cases hfind : (all.filter (·.byte = Word.field word 56 8)).find? (·.Matches word) with
    | none =>
      have := List.find?_eq_none.mp hfind op hmem
      simp [h] at this
    | some found =>
      have hfound := List.find?_some hfind
      rw [eq_of_matches (of_decide_eq_true hfound) h]

end Opcode

namespace Word

/-- The lowest `width` bits of `i` in two's complement. -/
def pattern (width : ℕ) (i : ℤ) : ℕ := (i % 2 ^ width).toNat

end Word

namespace Address

/-- The address lies in one of the sixteen segments. -/
def WellFormed (a : Address) : Prop := a.segment ≤ 0xF

/-- The field of an address, always the lower half of a word. -/
def field (a : Address) : FixedBits := ⟨0, 32, a.value⟩

end Address

namespace Triangle

/-- All vertices have slots in the vertex buffer. -/
def WellFormed (t : Triangle) : Prop := t.v0 ≤ 31 ∧ t.v1 ≤ 31 ∧ t.v2 ≤ 31

/-- The fields of a triangle, in three bytes of which the lowest bits are clear. -/
def fields (shift : ℕ) (t : Triangle) : List FixedBits :=
  [⟨shift + 17, 7, t.v0⟩, ⟨shift + 9, 7, t.v1⟩, ⟨shift + 1, 7, t.v2⟩]

end Triangle

namespace Corner

/-- The second corner is neither above the first nor to the left of it. -/
def Ordered (ul lr : Corner) : Prop := ul.x ≤ lr.x ∧ ul.y ≤ lr.y

/-- The fields of a corner whose vertical coordinate starts at bit `shift`. -/
def fields (shift : ℕ) (c : Corner) : List FixedBits :=
  [⟨shift + 12, 12, c.x.bits⟩, ⟨shift, 12, c.y.bits⟩]

end Corner

namespace TileRect

/-- The corners are in order and the tile is one of the eight. -/
def WellFormed (r : TileRect) : Prop := r.ul.Ordered r.lr ∧ r.tile ≤ 7

/-- The fields of a rectangle, with the upper-left corner on top or below. -/
def fields (ulFirst : Bool) (r : TileRect) : List FixedBits :=
  (if ulFirst then r.ul else r.lr).fields 32
    ++ (if ulFirst then r.lr else r.ul).fields 0 ++ [⟨24, 3, r.tile⟩]

end TileRect

namespace Color

def WellFormed (c : Color) : Prop := c.r < 256 ∧ c.g < 256 ∧ c.b < 256 ∧ c.a < 256

def fields (c : Color) : List FixedBits := [⟨24, 8, c.r⟩, ⟨16, 8, c.g⟩, ⟨8, 8, c.b⟩, ⟨0, 8, c.a⟩]

end Color

def KeyChannel.WellFormed (k : KeyChannel) : Prop := k.center < 256 ∧ k.scale < 256

namespace ImageSource

/-- The width is one that twelve bits can count from zero. -/
def WellFormed (i : ImageSource) : Prop :=
  1 ≤ i.width ∧ i.width ≤ 4096 ∧ i.address.WellFormed

def fields (i : ImageSource) : List FixedBits :=
  [⟨53, 3, i.format.code⟩, ⟨51, 2, i.size.code⟩, ⟨32, 12, i.width - 1⟩, i.address.field]

end ImageSource

namespace TileAxis

/-- Mask and shift are below sixteen. -/
def WellFormed (a : TileAxis) : Prop := a.mask ≤ 15 ∧ a.shift ≤ 15

/-- The fields of an axis, ten bits from bit `shift` upward. -/
def fields (shift : ℕ) (a : TileAxis) : List FixedBits :=
  [⟨shift + 8, 2, 2 * a.clamp.toNat + a.mirror.toNat⟩, ⟨shift + 4, 4, a.mask⟩,
    ⟨shift, 4, a.shift⟩]

end TileAxis

/-- The selectors of the colour inputs and of the alpha inputs have codes. -/
def CombineCycle.WellFormed (c : CombineCycle) : Prop :=
  (c.color.a ≤ 15 ∧ c.color.b ≤ 15 ∧ c.color.c ≤ 31 ∧ c.color.d ≤ 7) ∧
    (c.alpha.a ≤ 7 ∧ c.alpha.b ≤ 7 ∧ c.alpha.c ≤ 7 ∧ c.alpha.d ≤ 7)

namespace Command

/-- A field of `len` bits from bit `shift` upward lies in a mode word and holds
all bits of the data. -/
def ModeField (shift len data : ℕ) : Prop :=
  1 ≤ len ∧ shift + len ≤ 32 ∧ ∀ i, data.testBit i = true → shift ≤ i ∧ i < shift + len

/-- The fields of a mode setting. The shift is counted from the top. -/
def modeFields (shift len data : ℕ) : List FixedBits :=
  [⟨40, 8, 32 - shift - len⟩, ⟨32, 8, len - 1⟩, ⟨0, 32, data⟩]

/-- The operands make sense together. -/
def WellFormed : Command → Prop
  | noop tag => tag < 2 ^ 32
  | vtx count dest address => 1 ≤ count ∧ dest + count ≤ 32 ∧ address.WellFormed
  | modifyVtx _ vertex value => vertex ≤ 31 ∧ value < 2 ^ 32
  | cullDl first last => first < last ∧ last ≤ 31
  | branchZ vertex z => vertex ≤ 31 ∧ z < 2 ^ 32
  | tri1 vertices => vertices.WellFormed
  | tri2 first second => first.WellFormed ∧ second.WellFormed
  | quad first second => first.WellFormed ∧ second.WellFormed
  | special3 hi lo => hi < 2 ^ 24 ∧ lo < 2 ^ 32
  | special2 hi lo => hi < 2 ^ 24 ∧ lo < 2 ^ 32
  | special1 hi lo => hi < 2 ^ 24 ∧ lo < 2 ^ 32
  | dmaIo _ dmem size dram =>
    (dmem % 8 = 0 ∧ dmem < 8192) ∧ (1 ≤ size ∧ size ≤ 4096) ∧ dram.WellFormed
  | texture level tile _ _ _ => level ≤ 7 ∧ tile ≤ 7
  | popMtx count => 1 ≤ count ∧ count < 2 ^ 26
  | geometryMode cleared added => cleared < 2 ^ 24 ∧ added < 2 ^ 32
  | mtx _ _ _ address => address.WellFormed
  | moveWord index offset data =>
    (index = .segment → offset % 4 = 0 ∧ offset ≤ 60) ∧ offset < 2 ^ 16 ∧ data < 2 ^ 32
  | moveMem size offset _ address =>
    (size % 8 = 0 ∧ 8 ≤ size ∧ size ≤ 256) ∧ (offset % 8 = 0 ∧ offset ≤ 2040) ∧
      address.WellFormed
  | loadUcode dataSize text => (1 ≤ dataSize ∧ dataSize ≤ 65536) ∧ text.WellFormed
  | dl _ address => address.WellFormed
  | endDl => True
  | spNoop => True
  | rdpHalf1 value => value < 2 ^ 32
  | setOtherModeL shift len data => ModeField shift len data
  | setOtherModeH shift len data => ModeField shift len data
  | texRect rect => rect.WellFormed
  | texRectFlip rect => rect.WellFormed
  | rdpLoadSync => True
  | rdpPipeSync => True
  | rdpTileSync => True
  | rdpFullSync => True
  | setKeyGb green blue => green.WellFormed ∧ blue.WellFormed
  | setKeyR red => red.WellFormed
  | setConvert k0 k1 k2 k3 k4 k5 => ∀ k ∈ [k0, k1, k2, k3, k4, k5], -256 ≤ k ∧ k ≤ 255
  | setScissor _ ul lr => ul.Ordered lr
  | setPrimDepth z dz => ∀ d ∈ [z, dz], -2 ^ 15 ≤ d ∧ d < 2 ^ 15
  | rdpSetOtherMode high low => high < 2 ^ 24 ∧ low < 2 ^ 32
  | loadTlut tile count => tile ≤ 7 ∧ 1 ≤ count ∧ count ≤ 256
  | rdpHalf2 value => value < 2 ^ 32
  | setTileSize rect => rect.WellFormed
  | loadBlock uls ult tile texels _ =>
    (uls < 2 ^ 12 ∧ ult < 2 ^ 12) ∧ tile ≤ 7 ∧ 1 ≤ texels ∧ texels ≤ 2048
  | loadTile rect => rect.WellFormed
  | setTile _ _ line tmem tile palette t s =>
    (line < 2 ^ 9 ∧ tmem < 2 ^ 9) ∧ (tile ≤ 7 ∧ palette ≤ 15) ∧ t.WellFormed ∧ s.WellFormed
  | fillRect ul lr => ul.Ordered lr
  | setFillColor value => value < 2 ^ 32
  | setFogColor color => color.WellFormed
  | setBlendColor color => color.WellFormed
  | setPrimColor minLevel _ color => minLevel < 256 ∧ color.WellFormed
  | setEnvColor color => color.WellFormed
  | setCombine first second => first.WellFormed ∧ second.WellFormed
  | setTImg image => image.WellFormed
  | setZImg address => address.WellFormed
  | setCImg image => image.WellFormed

/-- The fields in which the operands stand. -/
def operandFields : Command → List FixedBits
  | noop tag => [⟨0, 32, tag⟩]
  | vtx count dest address => [⟨44, 8, count⟩, ⟨33, 7, dest + count⟩, address.field]
  | modifyVtx part vertex value => [⟨48, 8, part.code⟩, ⟨33, 15, vertex⟩, ⟨0, 32, value⟩]
  | cullDl first last => [⟨33, 15, first⟩, ⟨1, 15, last⟩]
  | branchZ vertex z => [⟨44, 12, vertex * 5⟩, ⟨33, 11, vertex⟩, ⟨32, 1, 0⟩, ⟨0, 32, z⟩]
  | tri1 vertices => vertices.fields 32
  | tri2 first second => first.fields 32 ++ second.fields 0
  | quad first second => first.fields 32 ++ second.fields 0
  | special3 hi lo => [⟨32, 24, hi⟩, ⟨0, 32, lo⟩]
  | special2 hi lo => [⟨32, 24, hi⟩, ⟨0, 32, lo⟩]
  | special1 hi lo => [⟨32, 24, hi⟩, ⟨0, 32, lo⟩]
  | dmaIo write dmem size dram =>
    [⟨55, 1, write.toNat⟩, ⟨45, 10, dmem / 8⟩, ⟨32, 12, size - 1⟩, dram.field]
  | texture level tile enabled scaleS scaleT =>
    [⟨43, 3, level⟩, ⟨40, 3, tile⟩, ⟨33, 7, enabled.toNat⟩, ⟨16, 16, scaleS.bits⟩,
      ⟨0, 16, scaleT.bits⟩]
  | popMtx count => [⟨6, 26, count⟩]
  | geometryMode cleared added => [⟨32, 24, 2 ^ 24 - 1 - cleared⟩, ⟨0, 32, added⟩]
  | mtx push load projection address =>
    [⟨34, 1, projection.toNat⟩, ⟨33, 1, load.toNat⟩, ⟨32, 1, (!push).toNat⟩, address.field]
  | moveWord index offset data => [⟨48, 8, index.code⟩, ⟨32, 16, offset⟩, ⟨0, 32, data⟩]
  | moveMem size offset index address =>
    [⟨51, 5, size / 8 - 1⟩, ⟨40, 8, offset / 8⟩, ⟨32, 8, index.code⟩, address.field]
  | loadUcode dataSize text => [⟨32, 16, dataSize - 1⟩, text.field]
  | dl branch address => [⟨48, 1, branch.toNat⟩, address.field]
  | endDl => []
  | spNoop => []
  | rdpHalf1 value => [⟨0, 32, value⟩]
  | setOtherModeL shift len data => modeFields shift len data
  | setOtherModeH shift len data => modeFields shift len data
  | texRect rect => rect.fields false
  | texRectFlip rect => rect.fields false
  | rdpLoadSync => []
  | rdpPipeSync => []
  | rdpTileSync => []
  | rdpFullSync => []
  | setKeyGb green blue =>
    [⟨44, 12, green.width.bits⟩, ⟨32, 12, blue.width.bits⟩, ⟨24, 8, green.center⟩,
      ⟨16, 8, green.scale⟩, ⟨8, 8, blue.center⟩, ⟨0, 8, blue.scale⟩]
  | setKeyR red => [⟨16, 12, red.width.bits⟩, ⟨8, 8, red.center⟩, ⟨0, 8, red.scale⟩]
  | setConvert k0 k1 k2 k3 k4 k5 =>
    [⟨45, 9, Word.pattern 9 k0⟩, ⟨36, 9, Word.pattern 9 k1⟩, ⟨27, 9, Word.pattern 9 k2⟩,
      ⟨18, 9, Word.pattern 9 k3⟩, ⟨9, 9, Word.pattern 9 k4⟩, ⟨0, 9, Word.pattern 9 k5⟩]
  | setScissor mode ul lr => ul.fields 32 ++ lr.fields 0 ++ [⟨24, 4, mode.code⟩]
  | setPrimDepth z dz => [⟨16, 16, Word.pattern 16 z⟩, ⟨0, 16, Word.pattern 16 dz⟩]
  | rdpSetOtherMode high low => [⟨32, 24, high⟩, ⟨0, 32, low⟩]
  | loadTlut tile count => [⟨24, 3, tile⟩, ⟨14, 10, count - 1⟩]
  | rdpHalf2 value => [⟨0, 32, value⟩]
  | setTileSize rect => rect.fields true
  | loadBlock uls ult tile texels dxt =>
    [⟨44, 12, uls⟩, ⟨32, 12, ult⟩, ⟨24, 3, tile⟩, ⟨12, 12, texels - 1⟩, ⟨0, 12, dxt.bits⟩]
  | loadTile rect => rect.fields true
  | setTile format size line tmem tile palette t s =>
    [⟨53, 3, format.code⟩, ⟨51, 2, size.code⟩, ⟨41, 9, line⟩, ⟨32, 9, tmem⟩, ⟨24, 3, tile⟩,
      ⟨20, 4, palette⟩] ++ t.fields 10 ++ s.fields 0
  | fillRect ul lr => lr.fields 32 ++ ul.fields 0
  | setFillColor value => [⟨0, 32, value⟩]
  | setFogColor color => color.fields
  | setBlendColor color => color.fields
  | setPrimColor minLevel lodFraction color =>
    [⟨40, 8, minLevel⟩, ⟨32, 8, lodFraction.bits⟩] ++ color.fields
  | setEnvColor color => color.fields
  | setCombine first second =>
    [⟨52, 4, first.color.a⟩, ⟨47, 5, first.color.c⟩, ⟨44, 3, first.alpha.a⟩,
      ⟨41, 3, first.alpha.c⟩, ⟨37, 4, second.color.a⟩, ⟨32, 5, second.color.c⟩,
      ⟨28, 4, first.color.b⟩, ⟨24, 4, second.color.b⟩, ⟨21, 3, second.alpha.a⟩,
      ⟨18, 3, second.alpha.c⟩, ⟨15, 3, first.color.d⟩, ⟨12, 3, first.alpha.b⟩,
      ⟨9, 3, first.alpha.d⟩, ⟨6, 3, second.color.d⟩, ⟨3, 3, second.alpha.b⟩,
      ⟨0, 3, second.alpha.d⟩]
  | setTImg image => image.fields
  | setZImg address => [address.field]
  | setCImg image => image.fields

/-- The command makes sense, and its operands stand in the word. -/
def StandsIn (c : Command) (word : UInt64) : Prop :=
  c.WellFormed ∧ ∀ f ∈ c.operandFields, f.Holds word

def fields (c : Command) : List FixedBits := c.opcode.fixed ++ c.operandFields

def encode (c : Command) : UInt64 := FixedBits.toWord c.fields

/-- The fields of a command leave no bit of its word out. -/
theorem maskOf_fields (c : Command) : FixedBits.maskOf c.fields = 2 ^ 64 - 1 := by
  rw [FixedBits.maskOf_eq_spanMask]
  cases c <;> simp only [fields, operandFields, opcode, Opcode.fixed, Opcode.info, Address.field,
    Triangle.fields, Corner.fields, TileRect.fields, Color.fields, ImageSource.fields,
    TileAxis.fields, modeFields, List.cons_append, List.nil_append, List.map_cons, List.map_nil,
    FixedBits.span] <;> rfl

/-- The fields of a command tile its word, whatever the operands are. -/
theorem tile_fields (c : Command) : FixedBits.Tile c.fields := by
  refine ⟨?_, maskOf_fields c⟩
  cases c <;> exact of_decide_eq_true rfl

end Command

end Cartridge
