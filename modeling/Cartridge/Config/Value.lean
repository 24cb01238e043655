import Cartridge.Decimal
import Cartridge.Text.Numeral

/-!
# Values of configurations

A configuration is a tree of values. A table lists its keys in the order of
their code points, and no key twice.

A value can be a date, a time of day, or both, and both together with an offset
from universal time. Fractions of a second have nine places. Dates and times can
also be given as texts, which are written in the same way.
-/
namespace Cartridge.Config

structure Date where
  year : Nat
  month : Nat
  day : Nat
deriving DecidableEq

structure Time where
  hour : Nat
  minute : Nat
  second : Nat
  nanosecond : Nat
deriving DecidableEq

inductive Offset
  | utc
  | minutes (m : Int)
deriving DecidableEq

/-- A date, a time of day, or both, then also with an offset from universal time. -/
structure Datetime where
  date : Option Date
  time : Option Time
  offset : Option Offset
deriving DecidableEq

/-- A reader takes a value from the front of the characters. -/
abbrev Reader (α : Type) := List Char → Option (α × List Char)

/-- Reads exactly `n` decimal digits. -/
def readFixed (n : Nat) : Reader Nat := fun cs =>
  let digits := cs.take n
  if digits.length = n then (Numeral.readUnsigned? 10 digits).map fun value => (value, cs.drop n)
  else none

def readChar (c : Char) : Reader Unit
  | d :: rest => if c = d then some ((), rest) else none
  | [] => none

namespace Date

/-- Whether the year has a 29th of February. -/
def isLeap (year : Nat) : Bool := year % 4 == 0 && (year % 100 != 0 || year % 400 == 0)

/-- The number of days in a month. -/
def daysIn (year month : Nat) : Nat :=
  match month with
  | 2 => if isLeap year then 29 else 28
  | 4 | 6 | 9 | 11 => 30
  | _ => 31

def read : Reader Date := fun cs => do
  let (year, cs) ← readFixed 4 cs
  let (_, cs) ← readChar '-' cs
  let (month, cs) ← readFixed 2 cs
  let (_, cs) ← readChar '-' cs
  let (day, cs) ← readFixed 2 cs
  if 1 ≤ month ∧ month ≤ 12 ∧ 1 ≤ day ∧ day ≤ daysIn year month then
    some (⟨year, month, day⟩, cs)
  else none

def render (d : Date) : String :=
  Numeral.decimal 4 d.year ++ "-" ++ Numeral.decimal 2 d.month ++ "-" ++ Numeral.decimal 2 d.day

end Date

namespace Time

/-- Reads the digits behind a point as billionths; places after the ninth are cut off. -/
def readFraction : Reader Nat
  | '.' :: cs =>
    let digits := cs.takeWhile Char.isDigit
    let rest := cs.dropWhile Char.isDigit
    let kept := digits.take 9
    (Numeral.readUnsigned? 10 kept).map fun n => (n * 10 ^ (9 - kept.length), rest)
  | _ => none

/-- Reads a time of day. A second can be a leap second. -/
def read : Reader Time := fun cs => do
  let (hour, cs) ← readFixed 2 cs
  let (_, cs) ← readChar ':' cs
  let (minute, cs) ← readFixed 2 cs
  let (_, cs) ← readChar ':' cs
  let (second, cs) ← readFixed 2 cs
  if hour ≤ 23 ∧ minute ≤ 59 ∧ second ≤ 60 then
    match readFraction cs with
    | some (nanosecond, cs) => some (⟨hour, minute, second, nanosecond⟩, cs)
    | none => some (⟨hour, minute, second, 0⟩, cs)
  else none

/-- The places of a fraction without zeros at the end. -/
def renderFraction (nanosecond : Nat) : String :=
  if nanosecond = 0 then ""
  else
    let digits := (Numeral.decimal 9 nanosecond).toList
    "." ++ String.ofList (digits.reverse.dropWhile (· == '0')).reverse

def render (t : Time) : String :=
  Numeral.decimal 2 t.hour ++ ":" ++ Numeral.decimal 2 t.minute ++ ":"
    ++ Numeral.decimal 2 t.second ++ renderFraction t.nanosecond

end Time

namespace Offset

/-- Reads a signed distance of hours and minutes. -/
def readMinutes (sign : Int) : Reader Offset := fun cs => do
  let (hour, cs) ← readFixed 2 cs
  let (_, cs) ← readChar ':' cs
  let (minute, cs) ← readFixed 2 cs
  if hour ≤ 23 ∧ minute ≤ 59 then some (.minutes (sign * (hour * 60 + minute : Nat)), cs)
  else none

def read : Reader Offset
  | 'Z' :: cs | 'z' :: cs => some (.utc, cs)
  | '+' :: cs => readMinutes 1 cs
  | '-' :: cs => readMinutes (-1) cs
  | _ => none

def render : Offset → String
  | utc => "Z"
  | minutes m =>
    (if m < 0 then "-" else "+") ++ Numeral.decimal 2 (m.natAbs / 60) ++ ":"
      ++ Numeral.decimal 2 (m.natAbs % 60)

end Offset

namespace Datetime

/-- Reads the time that may follow a date. -/
def readTimeOfDay : Reader (Time × Option Offset)
  | 'T' :: cs | 't' :: cs | ' ' :: cs => do
    let (time, cs) ← Time.read cs
    match Offset.read cs with
    | some (offset, cs) => some ((time, some offset), cs)
    | none => some ((time, none), cs)
  | _ => none

def read : Reader Datetime := fun cs =>
  match Date.read cs with
  | some (date, cs) =>
    match readTimeOfDay cs with
    | some ((time, offset), cs) => some (⟨some date, some time, offset⟩, cs)
    | none => some (⟨some date, none, none⟩, cs)
  | none =>
    match Time.read cs with
    | some (time, cs) => some (⟨none, some time, none⟩, cs)
    | none => none

/-- The date, time of day, or both that a whole text names. -/
def ofText? (text : String) : Option Datetime :=
  match read text.toList with
  | some (d, []) => some d
  | _ => none

def render (d : Datetime) : String :=
  let date := (d.date.map Date.render).getD ""
  let time := (d.time.map Time.render).getD ""
  let delimiter := if d.date.isSome && d.time.isSome then "T" else ""
  date ++ delimiter ++ time ++ (d.offset.map Offset.render).getD ""

/-- The key that stands for dates and times: a table that begins with it is the
date or time that its text names. -/
def key : String := "$__toml_private_datetime"

end Datetime

/-- A value of a configuration. -/
inductive Value
  | string (text : String)
  | integer (i : Int)
  | float (x : Binary64)
  | boolean (b : Bool)
  | datetime (d : Datetime)
  | array (items : List Value)
  | table (entries : List (String × Value))

abbrev Table := List (String × Value)

namespace Table

def get? (t : Table) (key : String) : Option Value :=
  match t with
  | [] => none
  | (k, v) :: rest => if k = key then some v else get? rest key

/-- Puts an entry in its place among entries in order. -/
def insert (key : String) (value : Value) : Table → Table
  | [] => [(key, value)]
  | (k, v) :: rest =>
    if key < k then (key, value) :: (k, v) :: rest
    else if k < key then (k, v) :: insert key value rest
    else (key, value) :: rest

def ofList (entries : List (String × Value)) : Table :=
  entries.foldl (fun t e => t.insert e.1 e.2) []

end Table

namespace Value

def string? : Value → Option String
  | string text => some text
  | _ => none

def table? : Value → Option Table
  | table entries => some entries
  | _ => none

end Value

end Cartridge.Config
