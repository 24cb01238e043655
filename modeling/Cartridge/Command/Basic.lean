import Cartridge.Command.Opcode
import Cartridge.Fixed
import Cartridge.Text.Numeral

/-!
# Display-list commands

The commands that drive the geometry processor and the rasteriser, with their
operands as numbers. Operands are in units that a programmer uses: a vertex by
its slot, a size by its bytes, a shift counted from bit 0.
-/
namespace Cartridge

namespace Shape

/-- Screen coordinates, in quarters of a pixel. -/
def coord : Shape := { signed := false, int := 10, frac := 2 }

/-- Scale factors of textures. -/
def scale : Shape := { signed := false, int := 0, frac := 16 }

/-- Texel lines for each 64-bit word of a texture. -/
def dxt : Shape := { signed := false, int := 1, frac := 11 }

/-- Fractions of a level of detail. -/
def lod : Shape := { signed := false, int := 0, frac := 8 }

/-- Widths of a chroma key. -/
def keyWidth : Shape := { signed := false, int := 4, frac := 8 }

end Shape

/-- A segmented address: the top byte names a segment, the others an offset. -/
structure Address where
  value : Nat
deriving DecidableEq

namespace Address

def segment (a : Address) : Nat := a.value / 2 ^ 24

def offset (a : Address) : Nat := a.value % 2 ^ 24

def render (a : Address) : String :=
  Numeral.upperHex 2 a.segment ++ ":" ++ Numeral.upperHex 6 a.offset

end Address

/-- A colour with the strengths of its channels. -/
structure Color where
  r : Nat
  g : Nat
  b : Nat
  a : Nat
deriving DecidableEq

/-- The vertex slots of a triangle. -/
structure Triangle where
  v0 : Nat
  v1 : Nat
  v2 : Nat
deriving DecidableEq

/-- A point on the screen. -/
structure Corner where
  x : Fixed .coord
  y : Fixed .coord
deriving DecidableEq

/-- A rectangle by its upper-left and lower-right corners, and a tile. -/
structure TileRect where
  ul : Corner
  lr : Corner
  tile : Nat
deriving DecidableEq

/-- How the texels of an image say their colour. -/
inductive ImageFormat
  | rgba
  | yuv
  | ci
  | ia
  | i
deriving DecidableEq

namespace ImageFormat

def code : ImageFormat → Nat
  | rgba => 0
  | yuv => 1
  | ci => 2
  | ia => 3
  | i => 4

instance : Coded ImageFormat where
  all := [rgba, yuv, ci, ia, i]
  code := code
  width := 3
  mem_all x := by cases x <;> decide
  code_lt x := by cases x <;> decide
  code_injective x y := by cases x <;> cases y <;> decide

def label : ImageFormat → String
  | rgba => "Rgba"
  | yuv => "Yuv"
  | ci => "Ci"
  | ia => "Ia"
  | i => "I"

end ImageFormat

/-- The number of bits of a texel. -/
inductive TexelSize
  | bits4
  | bits8
  | bits16
  | bits32
deriving DecidableEq

namespace TexelSize

/-- The size that the lower two bits of a code mean. -/
def ofCode (n : Nat) : TexelSize :=
  match n % 4 with
  | 0 => bits4
  | 1 => bits8
  | 2 => bits16
  | _ => bits32

def code : TexelSize → Nat
  | bits4 => 0
  | bits8 => 1
  | bits16 => 2
  | bits32 => 3

instance : Coded TexelSize where
  all := [bits4, bits8, bits16, bits32]
  code := code
  width := 2
  mem_all x := by cases x <;> decide
  code_lt x := by cases x <;> decide
  code_injective x y := by cases x <;> cases y <;> decide

def label : TexelSize → String
  | bits4 => "Bits4"
  | bits8 => "Bits8"
  | bits16 => "Bits16"
  | bits32 => "Bits32"

end TexelSize

/-- Where the pixels of an image lie and how they are laid out. -/
structure ImageSource where
  format : ImageFormat
  size : TexelSize
  width : Nat
  address : Address
deriving DecidableEq

/-- The part of a vertex that a command changes. -/
inductive VertexAttribute
  | rgba
  | st
  | xyScreen
  | zScreen
deriving DecidableEq

namespace VertexAttribute

def code : VertexAttribute → Nat
  | rgba => 0x10
  | st => 0x14
  | xyScreen => 0x18
  | zScreen => 0x1C

instance : Coded VertexAttribute where
  all := [rgba, st, xyScreen, zScreen]
  code := code
  width := 8
  mem_all x := by cases x <;> decide
  code_lt x := by cases x <;> decide
  code_injective x y := by cases x <;> cases y <;> decide

def label : VertexAttribute → String
  | rgba => "Rgba"
  | st => "St"
  | xyScreen => "XyScreen"
  | zScreen => "ZScreen"

end VertexAttribute

/-- The word that a command writes to the memory of the geometry processor. -/
inductive MoveWordIndex
  | matrix
  | numLight
  | clip
  | segment
  | fog
  | lightCol
  | forceMtx
  | perspNorm
deriving DecidableEq

namespace MoveWordIndex

def code : MoveWordIndex → Nat
  | matrix => 0x00
  | numLight => 0x02
  | clip => 0x04
  | segment => 0x06
  | fog => 0x08
  | lightCol => 0x0A
  | forceMtx => 0x0C
  | perspNorm => 0x0E

instance : Coded MoveWordIndex where
  all := [matrix, numLight, clip, segment, fog, lightCol, forceMtx, perspNorm]
  code := code
  width := 8
  mem_all x := by cases x <;> decide
  code_lt x := by cases x <;> decide
  code_injective x y := by cases x <;> cases y <;> decide

def label : MoveWordIndex → String
  | matrix => "Matrix"
  | numLight => "NumLight"
  | clip => "Clip"
  | segment => "Segment"
  | fog => "Fog"
  | lightCol => "LightCol"
  | forceMtx => "ForceMtx"
  | perspNorm => "PerspNorm"

end MoveWordIndex

/-- The block that a command writes to the memory of the geometry processor. -/
inductive MoveMemIndex
  | modelviewMatrix
  | projectionMatrix
  | viewport
  | light
  | point
  | matrix
deriving DecidableEq

namespace MoveMemIndex

def code : MoveMemIndex → Nat
  | modelviewMatrix => 2
  | projectionMatrix => 6
  | viewport => 8
  | light => 10
  | point => 12
  | matrix => 14

instance : Coded MoveMemIndex where
  all := [modelviewMatrix, projectionMatrix, viewport, light, point, matrix]
  code := code
  width := 8
  mem_all x := by cases x <;> decide
  code_lt x := by cases x <;> decide
  code_injective x y := by cases x <;> cases y <;> decide

def label : MoveMemIndex → String
  | modelviewMatrix => "ModelviewMatrix"
  | projectionMatrix => "ProjectionMatrix"
  | viewport => "Viewport"
  | light => "Light"
  | point => "Point"
  | matrix => "Matrix"

end MoveMemIndex

/-- The lines of a field that are drawn. -/
inductive ScissorMode
  | nonInterlace
  | evenInterlace
  | oddInterlace
deriving DecidableEq

namespace ScissorMode

def code : ScissorMode → Nat
  | nonInterlace => 0
  | evenInterlace => 2
  | oddInterlace => 3

instance : Coded ScissorMode where
  all := [nonInterlace, evenInterlace, oddInterlace]
  code := code
  width := 4
  mem_all x := by cases x <;> decide
  code_lt x := by cases x <;> decide
  code_injective x y := by cases x <;> cases y <;> decide

def label : ScissorMode → String
  | nonInterlace => "NonInterlace"
  | evenInterlace => "EvenInterlace"
  | oddInterlace => "OddInterlace"

end ScissorMode

/-- One channel of a chroma key. -/
structure KeyChannel where
  width : Fixed .keyWidth
  center : Nat
  scale : Nat
deriving DecidableEq

/-- How a texture goes on beyond its edge along one axis. -/
structure TileAxis where
  clamp : Bool
  mirror : Bool
  mask : Nat
  shift : Nat
deriving DecidableEq

/-- The inputs of one colour combination `(a - b) * c + d`, as selector codes. -/
structure CombineInputs where
  a : Nat
  b : Nat
  c : Nat
  d : Nat
deriving DecidableEq

/-- What a cycle combines, for colours and for alpha. -/
structure CombineCycle where
  color : CombineInputs
  alpha : CombineInputs
deriving DecidableEq

/-- A display-list command. -/
inductive Command
  | noop (tag : Nat)
  | vtx (count dest : Nat) (address : Address)
  | modifyVtx (part : VertexAttribute) (vertex value : Nat)
  | cullDl (first last : Nat)
  | branchZ (vertex z : Nat)
  | tri1 (vertices : Triangle)
  | tri2 (first second : Triangle)
  | quad (first second : Triangle)
  | special3 (hi lo : Nat)
  | special2 (hi lo : Nat)
  | special1 (hi lo : Nat)
  | dmaIo (write : Bool) (dmem size : Nat) (dram : Address)
  | texture (level tile : Nat) (enabled : Bool) (scaleS scaleT : Fixed .scale)
  | popMtx (count : Nat)
  | geometryMode (cleared added : Nat)
  | mtx (push load projection : Bool) (address : Address)
  | moveWord (index : MoveWordIndex) (offset data : Nat)
  | moveMem (size offset : Nat) (index : MoveMemIndex) (address : Address)
  | loadUcode (dataSize : Nat) (text : Address)
  | dl (branch : Bool) (address : Address)
  | endDl
  | spNoop
  | rdpHalf1 (value : Nat)
  | setOtherModeL (shift len data : Nat)
  | setOtherModeH (shift len data : Nat)
  | texRect (rect : TileRect)
  | texRectFlip (rect : TileRect)
  | rdpLoadSync
  | rdpPipeSync
  | rdpTileSync
  | rdpFullSync
  | setKeyGb (green blue : KeyChannel)
  | setKeyR (red : KeyChannel)
  | setConvert (k0 k1 k2 k3 k4 k5 : Int)
  | setScissor (mode : ScissorMode) (ul lr : Corner)
  | setPrimDepth (z dz : Int)
  | rdpSetOtherMode (high low : Nat)
  | loadTlut (tile count : Nat)
  | rdpHalf2 (value : Nat)
  | setTileSize (rect : TileRect)
  | loadBlock (uls ult tile texels : Nat) (dxt : Fixed .dxt)
  | loadTile (rect : TileRect)
  | setTile (format : ImageFormat) (size : TexelSize) (line tmem tile palette : Nat)
      (t s : TileAxis)
  | fillRect (ul lr : Corner)
  | setFillColor (value : Nat)
  | setFogColor (color : Color)
  | setBlendColor (color : Color)
  | setPrimColor (minLevel : Nat) (lodFraction : Fixed .lod) (color : Color)
  | setEnvColor (color : Color)
  | setCombine (first second : CombineCycle)
  | setTImg (image : ImageSource)
  | setZImg (address : Address)
  | setCImg (image : ImageSource)
deriving DecidableEq

namespace Command

def opcode : Command → Opcode
  | noop .. => .noop
  | vtx .. => .vtx
  | modifyVtx .. => .modifyVtx
  | cullDl .. => .cullDl
  | branchZ .. => .branchZ
  | tri1 .. => .tri1
  | tri2 .. => .tri2
  | quad .. => .quad
  | special3 .. => .special3
  | special2 .. => .special2
  | special1 .. => .special1
  | dmaIo .. => .dmaIo
  | texture .. => .texture
  | popMtx .. => .popMtx
  | geometryMode .. => .geometryMode
  | mtx .. => .mtx
  | moveWord .. => .moveWord
  | moveMem .. => .moveMem
  | loadUcode .. => .loadUcode
  | dl .. => .dl
  | endDl => .endDl
  | spNoop => .spNoop
  | rdpHalf1 .. => .rdpHalf1
  | setOtherModeL .. => .setOtherModeL
  | setOtherModeH .. => .setOtherModeH
  | texRect .. => .texRect
  | texRectFlip .. => .texRectFlip
  | rdpLoadSync => .rdpLoadSync
  | rdpPipeSync => .rdpPipeSync
  | rdpTileSync => .rdpTileSync
  | rdpFullSync => .rdpFullSync
  | setKeyGb .. => .setKeyGb
  | setKeyR .. => .setKeyR
  | setConvert .. => .setConvert
  | setScissor .. => .setScissor
  | setPrimDepth .. => .setPrimDepth
  | rdpSetOtherMode .. => .rdpSetOtherMode
  | loadTlut .. => .loadTlut
  | rdpHalf2 .. => .rdpHalf2
  | setTileSize .. => .setTileSize
  | loadBlock .. => .loadBlock
  | loadTile .. => .loadTile
  | setTile .. => .setTile
  | fillRect .. => .fillRect
  | setFillColor .. => .setFillColor
  | setFogColor .. => .setFogColor
  | setBlendColor .. => .setBlendColor
  | setPrimColor .. => .setPrimColor
  | setEnvColor .. => .setEnvColor
  | setCombine .. => .setCombine
  | setTImg .. => .setTImg
  | setZImg .. => .setZImg
  | setCImg .. => .setCImg

def isEnd (c : Command) : Bool := c = endDl

/-- The display list that the command calls or goes on with. -/
def target? : Command → Option Address
  | dl _ address => some address
  | _ => none

/-- The segment that the command sets. -/
def segment? : Command → Option Nat
  | moveWord .segment offset _ => some (offset / 4)
  | _ => none

end Command

/-- The names of the flags of a geometry mode, with the value of each. -/
def geometryFlags : List (Nat × String) := [
  (0x00000001, "G_ZBUFFER"),
  (0x00000004, "G_SHADE"),
  (0x00000200, "G_CULL_FRONT"),
  (0x00000400, "G_CULL_BACK"),
  (0x00010000, "G_FOG"),
  (0x00020000, "G_LIGHTING"),
  (0x00040000, "G_TEXTURE_GEN"),
  (0x00080000, "G_TEXTURE_GEN_LINEAR"),
  (0x00100000, "G_LOD"),
  (0x00200000, "G_SHADING_SMOOTH"),
  (0x00800000, "G_CLIPPING")]

/-- The names of the flags that a geometry mode holds. -/
def geometryFlagNames (mode : Nat) : List String :=
  (geometryFlags.filter fun flag => mode &&& flag.1 != 0).map (·.2)

/-- How many cycles the rasteriser spends on a pixel. -/
inductive CycleType
  | oneCycle
  | twoCycle
  | copy
  | fill
deriving DecidableEq

/-- The mode that both words of a mode command set. -/
structure RasterMode where
  cycleType : CycleType
  textureFilter : Nat
  textureLut : Nat
  alphaCompare : Nat
  zSourcePrim : Bool
  renderMode : Nat
deriving DecidableEq

namespace RasterMode

/-- Reads the mode from its two words. -/
def ofWords (high low : Nat) : RasterMode where
  cycleType :=
    match high / 2 ^ 20 % 4 with
    | 0 => .oneCycle
    | 1 => .twoCycle
    | 2 => .copy
    | _ => .fill
  textureFilter := high / 2 ^ 12 % 4
  textureLut := high / 2 ^ 14 % 4
  alphaCompare := low % 4
  zSourcePrim := low.testBit 2
  renderMode := low / 8 * 8

end RasterMode

end Cartridge
