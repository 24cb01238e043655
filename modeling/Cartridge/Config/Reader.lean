import Cartridge.Config.Document
import Cartridge.Config.Lexical

/-!
# Reading configurations

The grammar of values and statements. Arrays and tables on one line nest to a
fixed depth. The length of a whole configuration bounds the number of parts that
anything in it has.
-/
namespace Cartridge.Config

/-- Reads the elements of an array behind its bracket. A comma may follow the last. -/
def elements (element : Reader Node) (done : List Node) : Nat → Reader (List Node)
  | 0, _ => none
  | fuel + 1, cs =>
    match skipTrivia cs with
    | ']' :: rest => some (done.reverse, rest)
    | cs => do
      let (value, cs) ← element cs
      match skipTrivia cs with
      | ',' :: rest => elements element (value :: done) fuel rest
      | ']' :: rest => some ((value :: done).reverse, rest)
      | _ => none

/-- Splits a key into the path and its last part. -/
def splitKey (parts : List String) : Option (List String × String) :=
  parts.getLast?.map fun last => (parts.dropLast, last)

/-- Reads a key, an equals sign and a value. -/
def assignment (value : Reader Node) : Reader (List String × String × Node) := fun cs => do
  let (parts, cs) ← key cs
  let (_, cs) ← readChar '=' cs
  let (v, cs) ← value (skipBlanks cs)
  let (path, last) ← splitKey parts
  some ((path, last, v), cs)

/-- Reads the assignments of a table on one line, after the first. -/
def moreAssignments (value : Reader Node) (done : List (List String × String × Node)) :
    Nat → Reader (List (List String × String × Node))
  | 0, _ => none
  | fuel + 1, cs => do
    let (a, cs) ← assignment value cs
    match skipBlanks cs with
    | ',' :: rest => moreAssignments value (a :: done) fuel rest
    | '}' :: rest => some ((a :: done).reverse, rest)
    | _ => none

/-- Reads a table on one line behind its brace. -/
def inlineTable (limit : Nat) (value : Reader Node) : Reader Node := fun cs =>
  match skipBlanks cs with
  | '}' :: rest => some (.table .complete [], rest)
  | cs => do
    let (assignments, rest) ← moreAssignments value [] limit cs
    let table ← inlineTable? assignments
    some (table, rest)

/-- Reads a value that holds arrays and tables to the given depth, none of them with
`limit` or more parts. -/
def value (limit : Nat) : Nat → Reader Node
  | 0, '[' :: _ | 0, '{' :: _ => none
  | depth + 1, '[' :: rest => do
    let (items, rest) ← elements (value limit depth) [] limit rest
    some (.array items, rest)
  | depth + 1, '{' :: rest => inlineTable limit (value limit depth) rest
  | _, cs => (scalar cs).map fun (v, rest) => (.scalar v, rest)

/-- The greatest depth of arrays and tables on one line. -/
def maxDepth : Nat := 79

/-- Reads the key of a header and the brackets behind it. -/
def headerKey (close : Nat) : Reader (List String × String) := fun cs => do
  let (parts, cs) ← key cs
  if cs.take close = List.replicate close ']' then
    let split ← splitKey parts
    some (split, cs.drop close)
  else none

/-- Reads a statement of at most `limit` characters. -/
def statement (limit : Nat) : Reader Statement
  | '[' :: '[' :: rest => do
    let ((path, last), rest) ← headerKey 2 rest
    some (.arrayHeader path last, rest)
  | '[' :: rest => do
    let ((path, last), rest) ← headerKey 1 rest
    some (.header path last, rest)
  | cs => do
    let ((path, last, v), rest) ← assignment (value limit maxDepth) cs
    some (.assign path last v, rest)

/-- Reads all statements, each on lines of its own. -/
def statements (done : List Statement) : Nat → List Char → Option (List Statement)
  | 0, _ => none
  | fuel + 1, cs =>
    let cs := skipSpace cs
    match cs with
    | [] => some done.reverse
    | '#' :: _ =>
      match afterLine? cs with
      | some rest => statements done fuel rest
      | none => none
    | cs => do
      let (s, rest) ← statement fuel cs
      let rest ← afterLine? rest
      statements (s :: done) fuel rest

/-- The characters without a byte order mark at the front. -/
def dropMark : List Char → List Char
  | '\ufeff' :: rest => rest
  | cs => cs

def readTable (text : String) : Option Table := do
  let cs := dropMark text.toList
  let all ← statements [] (cs.length + 1) cs
  Document.ofStatements? all

end Cartridge.Config
