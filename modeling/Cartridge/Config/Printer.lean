import Cartridge.Config.Lexical

/-!
# Printing values

A value on one line. A text is put between the plainest quotes that can hold it
as it is; only where there are none it is written with escapes.
-/
namespace Cartridge.Config

/-- What a text holds that quotes can trip over. -/
structure TextTraits where
  control : Bool
  backslash : Bool
  newline : Bool
  quotes : Nat
  apostrophes : Nat

/-- The length of the longest run of `c`, where the last `run` characters were `c`. -/
def longestRun (c : Char) (run best : Nat) : List Char → Nat
  | [] => best
  | d :: rest =>
    if d = c then longestRun c (run + 1) (max best (run + 1)) rest
    else longestRun c 0 best rest

namespace TextTraits

/-- The traits of a text. Tabs and line ends do not count as controls. -/
def of (cs : List Char) : TextTraits where
  control := cs.any fun c => (c.toNat < 0x20 && c != '\t' && c != '\n') || c.toNat == 0x7F
  backslash := cs.contains '\\'
  newline := cs.contains '\n'
  quotes := longestRun '"' 0 0 cs
  apostrophes := longestRun '\'' 0 0 cs

end TextTraits

/-- Writes a text between quotes with escapes. A quote is escaped when `limit`
quotes stand before it; line ends stay where `keepLines` is set. -/
def escapeText (keepLines : Bool) (limit run : Nat) : List Char → List Char
  | [] => []
  | c :: rest =>
    let plain := c :: escapeText keepLines limit 0 rest
    let escaped (e : Char) := '\\' :: e :: escapeText keepLines limit 0 rest
    if c = '"' then
      if run < limit then c :: escapeText keepLines limit (run + 1) rest else escaped '"'
    else if c = '\\' then escaped '\\'
    else if c = '\x08' then escaped 'b'
    else if c = '\t' then escaped 't'
    else if c = '\n' then if keepLines then plain else escaped 'n'
    else if c = '\x0c' then escaped 'f'
    else if c = '\r' then escaped 'r'
    else if c.toNat < 0x20 || c.toNat == 0x7F then
      '\\' :: 'u' :: (Numeral.upperHex 4 c.toNat).toList ++ escapeText keepLines limit 0 rest
    else plain

/-- A text between single quotes, with escapes. -/
def basicQuoted (cs : List Char) : String :=
  "\"" ++ String.ofList (escapeText false 0 0 cs) ++ "\""

/-- A text as it is, between apostrophes. -/
def literalQuoted (cs : List Char) : String := "'" ++ String.ofList cs ++ "'"

/-- A text between three quotes, with escapes. A line end at the front is not
part of the text. -/
def basicQuotedLines (newline : Bool) (cs : List Char) : String :=
  "\"\"\"" ++ (if newline then "\n" else "") ++ String.ofList (escapeText true 2 0 cs) ++ "\"\"\""

/-- A text as it is, between three apostrophes. -/
def literalQuotedLines (newline : Bool) (cs : List Char) : String :=
  "'''" ++ (if newline then "\n" else "") ++ String.ofList cs ++ "'''"

/-- A text between the plainest quotes. -/
def quoteText (text : String) : String :=
  let cs := text.toList
  let traits := TextTraits.of cs
  if !traits.control && !traits.backslash && traits.quotes == 0 && !traits.newline then
    basicQuoted cs
  else if !traits.control && traits.apostrophes == 0 && !traits.newline then literalQuoted cs
  else if !traits.control && !traits.backslash && traits.quotes ≤ 2 then
    basicQuotedLines traits.newline cs
  else if !traits.control && traits.apostrophes ≤ 2 then literalQuotedLines traits.newline cs
  else if traits.newline then basicQuotedLines true cs
  else basicQuoted cs

/-- A key, between quotes where it needs them. -/
def quoteKey (key : String) : String :=
  let cs := key.toList
  let traits := TextTraits.of cs
  let control := traits.control || traits.newline
  if !cs.isEmpty && cs.all isBare then key
  else if !control && !traits.backslash && traits.quotes == 0 then basicQuoted cs
  else if !control && traits.apostrophes == 0 then literalQuoted cs
  else basicQuoted cs

/-- A float, with a point where it is whole. -/
def floatText (x : Binary64) : String :=
  match x with
  | .nan => "nan"
  | .infinity _ => x.toDecimal
  | .finite .. =>
    let text := x.toDecimal
    if text.toList.contains '.' then text else text ++ ".0"

mutual

def Value.render : Value → String
  | .string text => quoteText text
  | .integer i => toString i
  | .float x => floatText x
  | .boolean b => if b then "true" else "false"
  | .datetime d => d.render
  | .array items => "[" ++ ", ".intercalate (renderItems items) ++ "]"
  | .table [] => "\x7b\x7d"
  | .table (first :: rest) =>
    "\x7b " ++ ", ".intercalate (renderEntries (first :: rest)) ++ " \x7d"

def renderItems : List Value → List String
  | [] => []
  | v :: rest => v.render :: renderItems rest

def renderEntries : List (String × Value) → List String
  | [] => []
  | (key, v) :: rest => (quoteKey key ++ " = " ++ v.render) :: renderEntries rest

end

/-- A value that stands alone, where a date or time is a table with the text of it. -/
def Value.renderAlone : Value → String
  | .datetime d => (Value.table [(Datetime.key, .string d.render)]).render
  | v => v.render

end Cartridge.Config
