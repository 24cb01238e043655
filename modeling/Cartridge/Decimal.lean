import Cartridge.Word

/-!
# Binary floating point and its decimals

Numbers of the 64-bit binary format as exact values: a sign, a significand
below 2^53 and a power of two not below 2^-1074. Rounding goes to the nearest
number of the format, and a tie to the even significand.

The decimal text of a floating-point number has the fewest digits that read
back to the same number. Of the decimals with that many digits the one nearest
to the number is taken; of two equally near ones, the greater. The text is
always positional.

A decimal with few digits is a point of a coarse grid of multiples of a power
of ten. The grids are tried from the coarsest on; if any point of a grid reads
back, so does one of the two neighbours of the number on it.
-/
namespace Cartridge

/-- A number of the 64-bit binary floating-point format. -/
inductive Binary64
  | finite (negative : Bool) (significand : Nat) (exponent : Int)
  | infinity (negative : Bool)
  | nan
deriving DecidableEq

namespace Binary64

/-- The exponent of the least positive number. -/
def leastExponent : Int := -1074

/-- The exponent of the greatest finite number. -/
def greatestExponent : Int := 971

/-- The integer nearest to `num / den`, of two the even one. -/
def roundEven (num den : Nat) : Nat :=
  let q := num / den
  let r := num % den
  if 2 * r < den then q
  else if den < 2 * r then q + 1
  else q + q % 2

/-- The quotient `num / den` times `2 ^ (-exponent)`, rounded to an integer. -/
def scaledRound (num den : Nat) (exponent : Int) : Nat :=
  if 0 ≤ exponent then roundEven num (den * 2 ^ exponent.toNat)
  else roundEven (num * 2 ^ (-exponent).toNat) den

/-- The number nearest to `num / den`. The quotient lies between 2^52 and 2^54 units of the guessed
exponent. -/
def ofRatio (negative : Bool) (num den : Nat) : Binary64 :=
  if num = 0 then .finite negative 0 leastExponent
  else
    let guess : Int := (Nat.log2 num : Int) - (Nat.log2 den : Int) - 53
    let fits := scaledRound num den guess < 2 ^ 53
    let exponent := max leastExponent (if fits then guess else guess + 1)
    let significand := scaledRound num den exponent
    let (significand, exponent) :=
      if significand = 2 ^ 53 then (2 ^ 52, exponent + 1) else (significand, exponent)
    if greatestExponent < exponent then .infinity negative
    else .finite negative significand exponent

/-- The number nearest to `digits * 10 ^ power`. -/
def ofDecimal (negative : Bool) (digits : Nat) (power : Int) : Binary64 :=
  let size : Int := (Nat.toDigits 10 digits).length
  if digits = 0 ∨ size + power < -400 then .finite negative 0 leastExponent
  else if 400 < size + power then .infinity negative
  else if 0 ≤ power then ofRatio negative (digits * 10 ^ power.toNat) 1
  else ofRatio negative digits (10 ^ (-power).toNat)

/-- The number nearest to an integer, divided by `2 ^ shift`. -/
def ofInt (i : Int) (shift : Nat) : Binary64 :=
  ofRatio (i < 0) i.natAbs (2 ^ shift)

end Binary64

/-- The reals that round to one positive number, over a common denominator:
`value` itself, with the ends `least` and `greatest`, which belong to the
interval when `closed` is set. -/
structure RoundingInterval where
  least : Nat
  value : Nat
  greatest : Nat
  den : Nat
  closed : Bool

namespace RoundingInterval

/-- The interval of `significand * 2 ^ exponent`. Below a power of two the next
number is only half as far as above it. -/
def of (significand : Nat) (exponent : Int) : RoundingInterval :=
  let narrow := significand = 2 ^ 52 ∧ Binary64.leastExponent < exponent
  let scale := 2 ^ (exponent - 2).toNat
  { least := (4 * significand - if narrow then 1 else 2) * scale
    value := 4 * significand * scale
    greatest := (4 * significand + 2) * scale
    den := 2 ^ (2 - exponent).toNat
    closed := significand % 2 == 0 }

/-- Whether `num / den` rounds to the number. -/
def Contains (i : RoundingInterval) (num den : Nat) : Prop :=
  if i.closed then i.least * den ≤ num * i.den ∧ num * i.den ≤ i.greatest * den
  else i.least * den < num * i.den ∧ num * i.den < i.greatest * den

instance (i : RoundingInterval) (num den : Nat) : Decidable (i.Contains num den) := by
  unfold Contains
  infer_instance

/-- The multiple of `10 ^ power` that stands for the number on that grid. Of two neighbours the
nearer one does, as twice the number against their sum tells. -/
def onGrid? (i : RoundingInterval) (power : Int) : Option Nat :=
  let up := 10 ^ power.toNat
  let down := 10 ^ (-power).toNat
  let below := i.value * down / (i.den * up)
  let above := below + 1
  let hitBelow := i.Contains (below * up) down
  let hitAbove := i.Contains (above * up) down
  let nearBelow := 2 * i.value * down < (below + above) * up * i.den
  if hitBelow ∧ hitAbove then some (if nearBelow then below else above)
  else if hitBelow then some below
  else if hitAbove then some above
  else none

/-- The first grid with a hit, from `10 ^ power` down to finer ones. -/
def search (i : RoundingInterval) (power : Int) : Nat → Nat × Int
  | 0 => (i.value, power)
  | fuel + 1 =>
    match i.onGrid? power with
    | some digits => (digits, power)
    | none => search i (power - 1) fuel

/-- Digits and a power of ten for the number. -/
def shortest (i : RoundingInterval) : Nat × Int :=
  let size : Int := (Nat.log2 i.greatest : Int) - (Nat.log2 i.den : Int) + 1
  let coarsest := if 0 ≤ size then size * 30103 / 100000 + 1 else size * 30102 / 100000 + 1
  search i coarsest 40

end RoundingInterval

/-- The digits of `digits * 10 ^ power` written without exponent. -/
def positional (digits : Nat) (power : Int) : String :=
  let text := Nat.toDigits 10 digits
  if 0 ≤ power then String.ofList (text ++ List.replicate power.toNat '0')
  else
    let places := (-power).toNat
    let text := List.replicate (places + 1 - text.length) '0' ++ text
    let whole := text.length - places
    String.ofList (text.take whole ++ '.' :: text.drop whole)

namespace Binary64

/-- The shortest decimal text. Infinity keeps its sign, and so does zero. -/
def toDecimal : Binary64 → String
  | .finite negative significand exponent =>
    let sign := if negative then "-" else ""
    if significand = 0 then sign ++ "0"
    else
      let (digits, power) := (RoundingInterval.of significand exponent).shortest
      sign ++ positional digits power
  | .infinity negative => if negative then "-inf" else "inf"
  | .nan => "NaN"

end Binary64

end Cartridge
