import Cartridge.Config.Printer
import Cartridge.Config.Reader
import Cartridge.Text.Labelled

/-!
# Questions to a configuration

A value is found by the keys that lead to it. All but the last must be keys of
tables. Addresses and offsets may be integers or texts with a numeral.
-/
namespace Cartridge.Config

inductive Error
  | parse
  | missingKey (key : String)
  | badValue (key value : String)
deriving DecidableEq

def Error.message : Error → String
  | parse => "config parse error"
  | missingKey key => "config key " ++ key ++ " not found"
  | badValue key value => "config key " ++ key ++ " has unusable value " ++ value

def Error.labelled : Error → Labelled
  | parse => .word "Parse"
  | missingKey key => .tuple "MissingKey" [.word (Quoted.render key)]
  | badValue key value =>
    .record "BadValue"
      [("key", .word (Quoted.render key)), ("value", .word (Quoted.render value))]

/-- The names of the message table files of a European release. -/
structure LanguageFiles where
  english : String
  german : String
  french : String
  spanish : String
deriving DecidableEq

/-- Where the message tables are: at an offset of the code file, or in files. -/
structure TablePlace where
  offset : Option Nat
  files : Option LanguageFiles
deriving DecidableEq

namespace Value

/-- A number below 2^32. -/
def u32? : Value → Option Nat
  | integer i => if 0 ≤ i ∧ i < 2 ^ 32 then some i.toNat else none
  | _ => none

/-- A number below 2^32, which may also be a text with a numeral: hexadecimal
behind `0x`, else decimal. -/
def number? : Value → Option Nat
  | string text =>
    match text.toList with
    | '0' :: 'x' :: digits => Numeral.readBelow? 16 (2 ^ 32) digits
    | digits => Numeral.readBelow? 10 (2 ^ 32) digits
  | v => v.u32?

/-- A text, where a date or time counts as its text. -/
def text? : Value → Option String
  | string text => some text
  | datetime d => some d.render
  | _ => none

/-- The four names of table files: by language, or in the order of the languages. -/
def languageFiles? : Value → Option LanguageFiles
  | table entries => do
    let name (key : String) : Option String := (Table.get? entries key).bind text?
    some ⟨← name "en", ← name "de", ← name "fr", ← name "es"⟩
  | array [english, german, french, spanish] => do
    some ⟨← english.text?, ← german.text?, ← french.text?, ← spanish.text?⟩
  | _ => none

/-- The place of the message tables: by name, or the offset and then the files. -/
def tablePlace? : Value → Option TablePlace
  | table entries => do
    let offset ← match Table.get? entries "offset" with
      | none => some none
      | some v => v.u32?.map some
    let files ← match Table.get? entries "files" with
      | none => some none
      | some v => v.languageFiles?.map some
    some ⟨offset, files⟩
  | array [offset, files] => do
    some ⟨some (← offset.u32?), some (← files.languageFiles?)⟩
  | _ => none

end Value

/-- A configuration. -/
structure Tree where
  root : Table

namespace Tree

def ofText (text : String) : Except Error Tree :=
  match readTable text with
  | some root => .ok ⟨root⟩
  | none => .error .parse

/-- The value that keys lead to from a table. -/
def find? : List String → Table → Option Value
  | [], _ => none
  | [last], t => t.get? last
  | key :: path, t =>
    match t.get? key with
    | some (.table entries) => find? path entries
    | _ => none

def get? (tree : Tree) (path : List String) : Option Value := find? path tree.root

def has (tree : Tree) (path : List String) : Bool := (tree.get? path).isSome

def string? (tree : Tree) (path : List String) : Option String :=
  (tree.get? path).bind Value.string?

def number (tree : Tree) (path : List String) : Except Error Nat :=
  let key := ".".intercalate path
  match tree.get? path with
  | none => .error (.missingKey key)
  | some v =>
    match v.number? with
    | some n => .ok n
    | none => .error (.badValue key v.renderAlone)

/-- The group that keys lead to; no keys lead to the whole configuration. -/
def group? (tree : Tree) (path : List String) : Option Table :=
  if path.isEmpty then some tree.root else (tree.get? path).bind Value.table?

/-- The first key of a group with this text as its value. -/
def keyOf? (tree : Tree) (path : List String) (text : String) : Option String := do
  let entries ← tree.group? path
  let entry ← entries.find? fun entry => entry.2.string? == some text
  some entry.1

/-- The place of the message tables. -/
def tablePlace (tree : Tree) : Except Error TablePlace :=
  match tree.get? ["messageTable"] with
  | none => .error (.missingKey "messageTable")
  | some v =>
    match v.tablePlace? with
    | some place => .ok place
    | none => .error (.badValue "messageTable" v.renderAlone)

end Tree

end Cartridge.Config
