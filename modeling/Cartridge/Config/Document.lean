import Cartridge.Config.Value

/-!
# Documents

A configuration is written as a sequence of statements. A header opens a table,
or a new element of an array of tables; an assignment gives a key of the open
table a value. Parts of a key before the last lead through tables, which come
into being where they are missing.

Each table is opened by at most one header. A table that only lay on the way to
another may still be opened. A table that came from the dots of an assignment
may be extended by further assignments, but never opened, and a table that has
been opened is never extended by dots. A table that is written as a value is
complete.

Tables keep the order in which their keys came; a table that is opened after it
lay on the way comes last from then on. The order matters for dates and times
that are given as tables: one is meant by a table, other than the whole document,
whose first key is the key for them.
-/
namespace Cartridge.Config

/-- How a table came into being. -/
inductive Origin
  | opened
  | onTheWay
  | dotted
  | complete
deriving DecidableEq

/-- A node of a document: a value that holds no others, an array, a table, or an
array of tables that headers open. -/
inductive Node
  | scalar (v : Value)
  | array (items : List Node)
  | table (origin : Origin) (entries : List (String × Node))
  | tables (elements : List (List (String × Node)))

/-- One statement of a document. -/
inductive Statement
  | header (path : List String) (last : String)
  | arrayHeader (path : List String) (last : String)
  | assign (path : List String) (last : String) (value : Node)

/-- The entries of a table of a document. -/
abbrev Entries := List (String × Node)

namespace Entries

def get? (entries : Entries) (key : String) : Option Node :=
  match entries with
  | [] => none
  | (k, n) :: rest => if k = key then some n else get? rest key

def set (entries : Entries) (key : String) (node : Node) : Entries :=
  match entries with
  | [] => [(key, node)]
  | (k, n) :: rest => if k = key then (key, node) :: rest else (k, n) :: set rest key node

def remove (entries : Entries) (key : String) : Entries :=
  match entries with
  | [] => []
  | (k, n) :: rest => if k = key then rest else (k, n) :: remove rest key

/-- Changes the last of several tables. -/
def changeLast (f : Entries → Option Entries) : List Entries → Option (List Entries)
  | [] => none
  | [last] => (f last).map ([·])
  | first :: rest => (changeLast f rest).map (first :: ·)

/-- Changes the table at the end of a path. -/
def within (f : Entries → Option Entries) : List String → Entries → Option Entries
  | [], entries => f entries
  | key :: path, entries =>
    match entries.get? key with
    | none => (within f path []).map fun sub => entries.set key (.table .onTheWay sub)
    | some (.table origin sub) =>
      if origin = .complete then none
      else (within f path sub).map fun sub => entries.set key (.table origin sub)
    | some (.tables elements) =>
      (changeLast (within f path) elements).map fun elements => entries.set key (.tables elements)
    | some (.scalar _) | some (.array _) => none

/-- Assigns a value to a key that has none. -/
def assign (last : String) (value : Node) (entries : Entries) : Option Entries :=
  match entries.get? last with
  | none => some (entries.set last value)
  | some _ => none

/-- Assigns a value at the end of a dotted path. -/
def assignDotted (last : String) (value : Node) : List String → Entries → Option Entries
  | [], entries => assign last value entries
  | key :: path, entries =>
    match entries.get? key with
    | none =>
      (assignDotted last value path []).map fun sub => entries.set key (.table .dotted sub)
    | some (.table origin sub) =>
      if origin = .opened ∨ origin = .complete ∨ (path = [] ∧ origin ≠ .dotted) then none
      else
        (assignDotted last value path sub).map fun sub => entries.set key (.table origin sub)
    | some (.tables elements) =>
      if path = [] then none
      else
        (changeLast (assignDotted last value path) elements).map fun elements =>
          entries.set key (.tables elements)
    | some (.scalar _) | some (.array _) => none

/-- Opens a table, which comes last. -/
def openTable (last : String) (entries : Entries) : Option Entries :=
  match entries.get? last with
  | none => some (entries.set last (.table .opened []))
  | some (.table .onTheWay sub) => some ((entries.remove last).set last (.table .opened sub))
  | some _ => none

/-- Opens a new element of an array of tables. -/
def openElement (last : String) (entries : Entries) : Option Entries :=
  match entries.get? last with
  | none => some (entries.set last (.tables [[]]))
  | some (.tables elements) => some (entries.set last (.tables (elements ++ [[]])))
  | some _ => none

end Entries

/-- The date or time that the text of a node names. -/
def Node.datetime? : Node → Option Datetime
  | .scalar (.string text) => Datetime.ofText? text
  | _ => none

mutual

/-- The value of a node, where each table for a date or time names one. -/
def Node.toValue? : Node → Option Value
  | .scalar v => some v
  | .array items => (itemsToValues? items).map .array
  | .table _ entries => tableToValue? entries
  | .tables elements => (elementsToValues? elements).map .array

/-- The value of a table: a date or time where its first key says so, whatever
the other entries are. -/
def tableToValue? : List (String × Node) → Option Value
  | [] => some (.table [])
  | (key, node) :: rest =>
    if key = Datetime.key then node.datetime?.map .datetime
    else
      match node.toValue?, entriesToValues? rest with
      | some first, some others => some (.table (Table.ofList ((key, first) :: others)))
      | _, _ => none

def entriesToValues? : List (String × Node) → Option (List (String × Value))
  | [] => some []
  | (key, node) :: rest =>
    match node.toValue?, entriesToValues? rest with
    | some first, some others => some ((key, first) :: others)
    | _, _ => none

def itemsToValues? : List Node → Option (List Value)
  | [] => some []
  | node :: rest =>
    match node.toValue?, itemsToValues? rest with
    | some first, some others => some (first :: others)
    | _, _ => none

def elementsToValues? : List (List (String × Node)) → Option (List Value)
  | [] => some []
  | entries :: rest =>
    match tableToValue? entries, elementsToValues? rest with
    | some first, some others => some (first :: others)
    | _, _ => none

end

/-- A document as far as it has been read, and the path of the open table. -/
structure Document where
  root : Entries := []
  current : List String := []

namespace Document

/-- Adds a statement, where it does not contradict those before. -/
def add? (d : Document) : Statement → Option Document
  | .header path last =>
    (Entries.within (Entries.openTable last) path d.root).map (⟨·, path ++ [last]⟩)
  | .arrayHeader path last =>
    (Entries.within (Entries.openElement last) path d.root).map (⟨·, path ++ [last]⟩)
  | .assign path last value =>
    (Entries.within (Entries.assignDotted last value path) d.current d.root).map (⟨·, d.current⟩)

/-- The table that statements make, where none contradicts those before. -/
def ofStatements? (statements : List Statement) : Option Table := do
  let d ← statements.foldlM add? {}
  let entries ← entriesToValues? d.root
  some (Table.ofList entries)

end Document

/-- The table that assignments on one line make. -/
def inlineTable? (assignments : List (List String × String × Node)) : Option Node :=
  (assignments.foldlM (fun entries (path, last, value) =>
    Entries.assignDotted last value path entries) ([] : Entries)).map (.table .complete)

end Cartridge.Config
