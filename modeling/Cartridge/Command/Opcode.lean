import Cartridge.Word

/-!
# Opcodes of display-list commands

A command is one 64-bit word. Its top byte is the opcode; further bits of the
word are fixed for each opcode. A word is looked up by its top byte first and
then by its fixed bits, which gives the same answer as a search through all
opcodes.
-/
namespace Cartridge

/-- A field of a word that holds the same value in every word of an opcode. -/
structure FixedBits where
  shift : Nat
  width : Nat
  value : Nat

namespace FixedBits

def mask (f : FixedBits) : Nat := (2 ^ f.width - 1) <<< f.shift

def pattern (f : FixedBits) : Nat := f.value <<< f.shift

end FixedBits

/-- The operations of the display-list processor. -/
inductive Opcode
  | noop
  | vtx
  | modifyVtx
  | cullDl
  | branchZ
  | tri1
  | tri2
  | quad
  | special3
  | special2
  | special1
  | dmaIo
  | texture
  | popMtx
  | geometryMode
  | mtx
  | moveWord
  | moveMem
  | loadUcode
  | dl
  | endDl
  | spNoop
  | rdpHalf1
  | setOtherModeL
  | setOtherModeH
  | texRect
  | texRectFlip
  | rdpLoadSync
  | rdpPipeSync
  | rdpTileSync
  | rdpFullSync
  | setKeyGb
  | setKeyR
  | setConvert
  | setScissor
  | setPrimDepth
  | rdpSetOtherMode
  | loadTlut
  | rdpHalf2
  | setTileSize
  | loadBlock
  | loadTile
  | setTile
  | fillRect
  | setFillColor
  | setFogColor
  | setBlendColor
  | setPrimColor
  | setEnvColor
  | setCombine
  | setTImg
  | setZImg
  | setCImg
deriving DecidableEq

namespace Opcode

/-- What is known of an opcode: the title and the mnemonic of its commands, its
byte, and the fixed bits below the byte. -/
structure Info where
  title : String
  mnemonic : String
  byte : Nat
  fixed : List FixedBits

def info : Opcode → Info
  | noop => ⟨"Noop", "G_NOOP", 0x00, [⟨32, 24, 0⟩]⟩
  | vtx => ⟨"Vtx", "G_VTX", 0x01, [⟨52, 4, 0⟩, ⟨40, 4, 0⟩, ⟨32, 1, 0⟩]⟩
  | modifyVtx => ⟨"ModifyVtx", "G_MODIFYVTX", 0x02, [⟨32, 1, 0⟩]⟩
  | cullDl => ⟨"CullDl", "G_CULLDL", 0x03, [⟨48, 8, 0⟩, ⟨16, 17, 0⟩, ⟨0, 1, 0⟩]⟩
  | branchZ => ⟨"BranchZ", "G_BRANCH_Z", 0x04, []⟩
  | tri1 => ⟨"Tri1", "G_TRI1", 0x05, [⟨48, 1, 0⟩, ⟨40, 1, 0⟩, ⟨0, 33, 0⟩]⟩
  | tri2 => ⟨"Tri2", "G_TRI2", 0x06,
      [⟨48, 1, 0⟩, ⟨40, 1, 0⟩, ⟨24, 9, 0⟩, ⟨16, 1, 0⟩, ⟨8, 1, 0⟩, ⟨0, 1, 0⟩]⟩
  | quad => ⟨"Quad", "G_QUAD", 0x07,
      [⟨48, 1, 0⟩, ⟨40, 1, 0⟩, ⟨24, 9, 0⟩, ⟨16, 1, 0⟩, ⟨8, 1, 0⟩, ⟨0, 1, 0⟩]⟩
  | special3 => ⟨"Special3", "G_SPECIAL_3", 0xD3, []⟩
  | special2 => ⟨"Special2", "G_SPECIAL_2", 0xD4, []⟩
  | special1 => ⟨"Special1", "G_SPECIAL_1", 0xD5, []⟩
  | dmaIo => ⟨"DmaIo", "G_DMA_IO", 0xD6, [⟨44, 1, 0⟩]⟩
  | texture => ⟨"Texture", "G_TEXTURE", 0xD7, [⟨46, 10, 0⟩, ⟨32, 1, 0⟩]⟩
  | popMtx => ⟨"PopMtx", "G_POPMTX", 0xD8, [⟨32, 24, 0x380002⟩, ⟨0, 6, 0⟩]⟩
  | geometryMode => ⟨"GeometryMode", "G_GEOMETRYMODE", 0xD9, []⟩
  | mtx => ⟨"Mtx", "G_MTX", 0xDA, [⟨35, 21, 0x70000⟩]⟩
  | moveWord => ⟨"MoveWord", "G_MOVEWORD", 0xDB, []⟩
  | moveMem => ⟨"MoveMem", "G_MOVEMEM", 0xDC, [⟨48, 3, 0⟩]⟩
  | loadUcode => ⟨"LoadUcode", "G_LOAD_UCODE", 0xDD, [⟨48, 8, 0⟩]⟩
  | dl => ⟨"Dl", "G_DL", 0xDE, [⟨49, 7, 0⟩, ⟨32, 16, 0⟩]⟩
  | endDl => ⟨"EndDl", "G_ENDDL", 0xDF, [⟨0, 56, 0⟩]⟩
  | spNoop => ⟨"SpNoop", "G_SPNOOP", 0xE0, [⟨0, 56, 0⟩]⟩
  | rdpHalf1 => ⟨"RdpHalf1", "G_RDPHALF_1", 0xE1, [⟨32, 24, 0⟩]⟩
  | setOtherModeL => ⟨"SetOtherModeL", "G_SETOTHERMODE_L", 0xE2, [⟨48, 8, 0⟩]⟩
  | setOtherModeH => ⟨"SetOtherModeH", "G_SETOTHERMODE_H", 0xE3, [⟨48, 8, 0⟩]⟩
  | texRect => ⟨"TexRect", "G_TEXRECT", 0xE4, [⟨27, 5, 0⟩]⟩
  | texRectFlip => ⟨"TexRectFlip", "G_TEXRECTFLIP", 0xE5, [⟨27, 5, 0⟩]⟩
  | rdpLoadSync => ⟨"RdpLoadSync", "G_RDPLOADSYNC", 0xE6, [⟨0, 56, 0⟩]⟩
  | rdpPipeSync => ⟨"RdpPipeSync", "G_RDPPIPESYNC", 0xE7, [⟨0, 56, 0⟩]⟩
  | rdpTileSync => ⟨"RdpTileSync", "G_RDPTILESYNC", 0xE8, [⟨0, 56, 0⟩]⟩
  | rdpFullSync => ⟨"RdpFullSync", "G_RDPFULLSYNC", 0xE9, [⟨0, 56, 0⟩]⟩
  | setKeyGb => ⟨"SetKeyGb", "G_SETKEYGB", 0xEA, []⟩
  | setKeyR => ⟨"SetKeyR", "G_SETKEYR", 0xEB, [⟨28, 28, 0⟩]⟩
  | setConvert => ⟨"SetConvert", "G_SETCONVERT", 0xEC, [⟨54, 2, 0⟩]⟩
  | setScissor => ⟨"SetScissor", "G_SETSCISSOR", 0xED, [⟨28, 4, 0⟩]⟩
  | setPrimDepth => ⟨"SetPrimDepth", "G_SETPRIMDEPTH", 0xEE, [⟨32, 24, 0⟩]⟩
  | rdpSetOtherMode => ⟨"RdpSetOtherMode", "G_RDPSETOTHERMODE", 0xEF, []⟩
  | loadTlut => ⟨"LoadTlut", "G_LOADTLUT", 0xF0, [⟨27, 29, 0⟩, ⟨0, 14, 0⟩]⟩
  | rdpHalf2 => ⟨"RdpHalf2", "G_RDPHALF_2", 0xF1, [⟨32, 24, 0⟩]⟩
  | setTileSize => ⟨"SetTileSize", "G_SETTILESIZE", 0xF2, [⟨27, 5, 0⟩]⟩
  | loadBlock => ⟨"LoadBlock", "G_LOADBLOCK", 0xF3, [⟨27, 5, 0⟩]⟩
  | loadTile => ⟨"LoadTile", "G_LOADTILE", 0xF4, [⟨27, 5, 0⟩]⟩
  | setTile => ⟨"SetTile", "G_SETTILE", 0xF5, [⟨50, 1, 0⟩, ⟨27, 5, 0⟩]⟩
  | fillRect => ⟨"FillRect", "G_FILLRECT", 0xF6, [⟨24, 8, 0⟩]⟩
  | setFillColor => ⟨"SetFillColor", "G_SETFILLCOLOR", 0xF7, [⟨32, 24, 0⟩]⟩
  | setFogColor => ⟨"SetFogColor", "G_SETFOGCOLOR", 0xF8, [⟨32, 24, 0⟩]⟩
  | setBlendColor => ⟨"SetBlendColor", "G_SETBLENDCOLOR", 0xF9, [⟨32, 24, 0⟩]⟩
  | setPrimColor => ⟨"SetPrimColor", "G_SETPRIMCOLOR", 0xFA, [⟨48, 8, 0⟩]⟩
  | setEnvColor => ⟨"SetEnvColor", "G_SETENVCOLOR", 0xFB, [⟨32, 24, 0⟩]⟩
  | setCombine => ⟨"SetCombine", "G_SETCOMBINE", 0xFC, []⟩
  | setTImg => ⟨"SetTImg", "G_SETTIMG", 0xFD, [⟨44, 7, 0⟩]⟩
  | setZImg => ⟨"SetZImg", "G_SETZIMG", 0xFE, [⟨32, 24, 0⟩]⟩
  | setCImg => ⟨"SetCImg", "G_SETCIMG", 0xFF, [⟨44, 7, 0⟩]⟩

/-- The name of the command itself. -/
def title (op : Opcode) : String := op.info.title

/-- The name of the opcode in listings. -/
def mnemonic (op : Opcode) : String := op.info.mnemonic

/-- The top byte of every word of the opcode. -/
def byte (op : Opcode) : Nat := op.info.byte

/-- All fixed bits of the opcode, its byte included. -/
def fixed (op : Opcode) : List FixedBits := ⟨56, 8, op.byte⟩ :: op.info.fixed

def mask (op : Opcode) : Nat := op.fixed.foldl (fun m f => m ||| f.mask) 0

def pattern (op : Opcode) : Nat := op.fixed.foldl (fun p f => p ||| f.pattern) 0

/-- Whether the fixed bits of a word are those of the opcode. -/
def Matches (op : Opcode) (word : UInt64) : Prop := word.toNat &&& op.mask = op.pattern

instance (op : Opcode) (word : UInt64) : Decidable (op.Matches word) :=
  inferInstanceAs (Decidable (word.toNat &&& op.mask = op.pattern))

def all : List Opcode :=
  [.noop, .vtx, .modifyVtx, .cullDl, .branchZ, .tri1, .tri2, .quad, .special3, .special2,
    .special1, .dmaIo, .texture, .popMtx, .geometryMode, .mtx, .moveWord, .moveMem, .loadUcode,
    .dl, .endDl, .spNoop, .rdpHalf1, .setOtherModeL, .setOtherModeH, .texRect, .texRectFlip,
    .rdpLoadSync, .rdpPipeSync, .rdpTileSync, .rdpFullSync, .setKeyGb, .setKeyR, .setConvert,
    .setScissor, .setPrimDepth, .rdpSetOtherMode, .loadTlut, .rdpHalf2, .setTileSize,
    .loadBlock, .loadTile, .setTile, .fillRect, .setFillColor, .setFogColor, .setBlendColor,
    .setPrimColor, .setEnvColor, .setCombine, .setTImg, .setZImg, .setCImg]

/-- For each byte the opcodes that have it. -/
def index : Array (List Opcode) := Array.ofFn fun b : Fin 256 => all.filter (·.byte = b)

/-- The opcodes with this byte. -/
def withByte (b : Nat) : List Opcode := index.getD b []

/-- The opcode of a word, when the word has the fixed bits of one. -/
def ofWord? (word : UInt64) : Option Opcode :=
  (withByte (Word.field word 56 8)).find? (·.Matches word)

/-- The mnemonic that belongs to a byte. -/
def mnemonicOf (b : Nat) : String :=
  match (withByte b).head? with
  | some op => op.mnemonic
  | none => "unknown"

def ofMnemonic? (mnemonic : String) : Option Opcode := all.find? (·.mnemonic == mnemonic)

end Opcode

end Cartridge
