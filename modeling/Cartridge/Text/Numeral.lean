/-!
# Numerals

Decimal and hexadecimal spellings of natural numbers, padded with zeros to a
least width, and the reverse: the number that a run of digits spells.
-/
namespace Cartridge

namespace Numeral

/-- The digits of `n` in `base`, padded with zeros on the left to `width`. -/
def padded (base width n : Nat) : String :=
  let digits := Nat.toDigits base n
  String.ofList (List.replicate (width - digits.length) '0' ++ digits)

/-- Lower-case hexadecimal digits, at least `width` of them. -/
def lowerHex (width n : Nat) : String := padded 16 width n

/-- Upper-case hexadecimal digits, at least `width` of them. -/
def upperHex (width n : Nat) : String := (padded 16 width n).map Char.toUpper

/-- Numbers in upper-case hexadecimal, two digits or more each, as a list. -/
def hexList (ns : List Nat) : String := "[" ++ ", ".intercalate (ns.map (upperHex 2)) ++ "]"

/-- Decimal digits, at least `width` of them. -/
def decimal (width n : Nat) : String := padded 10 width n

/-- The value of a digit, letters of either case counting from ten on. -/
def digitValue? (base : Nat) (c : Char) : Option Nat :=
  let value :=
    if '0' ≤ c ∧ c ≤ '9' then c.toNat - '0'.toNat
    else if 'a' ≤ c ∧ c ≤ 'z' then c.toNat - 'a'.toNat + 10
    else if 'A' ≤ c ∧ c ≤ 'Z' then c.toNat - 'A'.toNat + 10
    else base
  if value < base then some value else none

/-- The number that digits spell after `n` has been read. -/
def readDigits? (base n : Nat) : List Char → Option Nat
  | [] => some n
  | c :: rest =>
    match digitValue? base c with
    | some d => readDigits? base (n * base + d) rest
    | none => none

/-- The number that one or more digits spell. -/
def readUnsigned? (base : Nat) (text : List Char) : Option Nat :=
  if text.isEmpty then none else readDigits? base 0 text

/-- The number below `limit` that digits spell, after at most one plus sign. -/
def readBelow? (base limit : Nat) (text : List Char) : Option Nat :=
  let digits := match text with
    | '+' :: rest => rest
    | _ => text
  match readUnsigned? base digits with
  | some n => if n < limit then some n else none
  | none => none

end Numeral

end Cartridge
