import Cartridge.Command.Basic
import Cartridge.Text.Labelled

/-!
# Listings of commands

A command is listed by the mnemonic of its opcode and the values of its parts.
-/
namespace Cartridge

open Labelled (nat int bool)

def Address.labelled (a : Address) : Labelled := .tuple "SegAddr" [nat a.value]

def Color.labelled (c : Color) : Labelled :=
  .record "Rgba" [("r", nat c.r), ("g", nat c.g), ("b", nat c.b), ("a", nat c.a)]

def Triangle.labelled (t : Triangle) : Labelled := .list [nat t.v0, nat t.v1, nat t.v2]

def Corner.labelled (c : Corner) : Labelled := .tuple "" [c.x.labelled, c.y.labelled]

def TileRect.labelled (r : TileRect) : Labelled :=
  .record "TileRect" [("ul", r.ul.labelled), ("lr", r.lr.labelled), ("tile", nat r.tile)]

def ImageSource.labelled (i : ImageSource) : Labelled :=
  .record "ImageSource" [("format", .word i.format.label), ("size", .word i.size.label),
    ("width", nat i.width), ("address", i.address.labelled)]

def KeyChannel.labelled (k : KeyChannel) : Labelled :=
  .record "KeyChannel"
    [("width", k.width.labelled), ("center", nat k.center), ("scale", nat k.scale)]

def TileAxis.labelled (a : TileAxis) : Labelled :=
  .record "TileAxis" [("clamp", bool a.clamp), ("mirror", bool a.mirror),
    ("mask", nat a.mask), ("shift", nat a.shift)]

def CombineInputs.labelled (i : CombineInputs) : Labelled :=
  .record "CombineInputs" [("a", nat i.a), ("b", nat i.b), ("c", nat i.c), ("d", nat i.d)]

def CombineCycle.labelled (c : CombineCycle) : Labelled :=
  .record "CombineCycle" [("color", c.color.labelled), ("alpha", c.alpha.labelled)]

namespace Command

/-- A list of parts under the title of an opcode; an opcode without parts stands
alone, and a part without name in brackets. -/
def parts (op : Opcode) (fields : List (String × Labelled)) : Labelled :=
  match fields with
  | [] => .word op.title
  | [("", value)] => .tuple op.title [value]
  | _ => .record op.title fields

def operands : Command → List (String × Labelled)
  | noop tag => [("tag", nat tag)]
  | vtx count dest address =>
    [("count", nat count), ("dest", nat dest), ("address", address.labelled)]
  | modifyVtx part vertex value =>
    [("attribute", .word part.label), ("vertex", nat vertex), ("value", nat value)]
  | cullDl first last => [("first", nat first), ("last", nat last)]
  | branchZ vertex z => [("vertex", nat vertex), ("z", nat z)]
  | tri1 vertices => [("vertices", vertices.labelled)]
  | tri2 first second => [("first", first.labelled), ("second", second.labelled)]
  | quad first second => [("first", first.labelled), ("second", second.labelled)]
  | special3 hi lo => [("hi", nat hi), ("lo", nat lo)]
  | special2 hi lo => [("hi", nat hi), ("lo", nat lo)]
  | special1 hi lo => [("hi", nat hi), ("lo", nat lo)]
  | dmaIo write dmem size dram =>
    [("write", bool write), ("dmem", nat dmem), ("size", nat size), ("dram", dram.labelled)]
  | texture level tile enabled scaleS scaleT =>
    [("level", nat level), ("tile", nat tile), ("on", bool enabled),
      ("scale_s", scaleS.labelled), ("scale_t", scaleT.labelled)]
  | popMtx count => [("count", nat count)]
  | geometryMode cleared added => [("clear", nat cleared), ("set", nat added)]
  | mtx push load projection address =>
    [("push", bool push), ("load", bool load), ("projection", bool projection),
      ("address", address.labelled)]
  | moveWord index offset data =>
    [("index", .word index.label), ("offset", nat offset), ("data", nat data)]
  | moveMem size offset index address =>
    [("size", nat size), ("offset", nat offset), ("index", .word index.label),
      ("address", address.labelled)]
  | loadUcode dataSize text => [("data_size", nat dataSize), ("text", text.labelled)]
  | dl branch address => [("branch", bool branch), ("address", address.labelled)]
  | endDl | spNoop | rdpLoadSync | rdpPipeSync | rdpTileSync | rdpFullSync => []
  | rdpHalf1 value => [("value", nat value)]
  | setOtherModeL shift len data => [("shift", nat shift), ("len", nat len), ("data", nat data)]
  | setOtherModeH shift len data => [("shift", nat shift), ("len", nat len), ("data", nat data)]
  | texRect rect => [("", rect.labelled)]
  | texRectFlip rect => [("", rect.labelled)]
  | setKeyGb green blue => [("green", green.labelled), ("blue", blue.labelled)]
  | setKeyR red => [("red", red.labelled)]
  | setConvert k0 k1 k2 k3 k4 k5 =>
    [("k", .list [int k0, int k1, int k2, int k3, int k4, int k5])]
  | setScissor mode ul lr =>
    [("mode", .word mode.label), ("ul", ul.labelled), ("lr", lr.labelled)]
  | setPrimDepth z dz => [("z", int z), ("dz", int dz)]
  | rdpSetOtherMode high low => [("high", nat high), ("low", nat low)]
  | loadTlut tile count => [("tile", nat tile), ("count", nat count)]
  | rdpHalf2 value => [("value", nat value)]
  | setTileSize rect => [("", rect.labelled)]
  | loadBlock uls ult tile texels dxt =>
    [("uls", nat uls), ("ult", nat ult), ("tile", nat tile), ("texels", nat texels),
      ("dxt", dxt.labelled)]
  | loadTile rect => [("", rect.labelled)]
  | setTile format size line tmem tile palette t s =>
    [("format", .word format.label), ("size", .word size.label), ("line", nat line),
      ("tmem", nat tmem), ("tile", nat tile), ("palette", nat palette),
      ("t", t.labelled), ("s", s.labelled)]
  | fillRect ul lr => [("ul", ul.labelled), ("lr", lr.labelled)]
  | setFillColor value => [("value", nat value)]
  | setFogColor color => [("color", color.labelled)]
  | setBlendColor color => [("color", color.labelled)]
  | setPrimColor minLevel lodFraction color =>
    [("min_level", nat minLevel), ("lod_fraction", lodFraction.labelled),
      ("color", color.labelled)]
  | setEnvColor color => [("color", color.labelled)]
  | setCombine first second => [("cycles", .list [first.labelled, second.labelled])]
  | setTImg image => [("", image.labelled)]
  | setZImg address => [("address", address.labelled)]
  | setCImg image => [("", image.labelled)]

/-- The line of a command in a listing. -/
def render (c : Command) : String :=
  c.opcode.mnemonic ++ " " ++ (parts c.opcode c.operands).render

end Command

end Cartridge
