import SceneFlow.Number.Binary

/-!
# The shortest decimal that reads back

A finite binary number is the nearest one of its format to every decimal of an interval around it.
Among the decimals of that interval, `shortestDecimal` picks one with the fewest digits, of those
the nearest to the number, and of two that are equally near the one that a rule for ties takes.

Distances are counted in quarters of the number's last bit, so that the interval's ends, half a bit
away or a quarter below a power of two, are whole.
-/

set_option autoImplicit false

namespace SceneFlow

-- Powers are those of the core library, whatever else is imported.
attribute [local instance (high)] instPowNat

/-- The number `digits * 10 ^ exponent`. -/
structure Decimal where
  digits : Nat
  exponent : Int
deriving DecidableEq

/-- Which of two neighbours is taken for a number in the middle between them. -/
inductive TieRule where
  /-- The one with an even last digit. -/
  | even
  /-- The greater one. -/
  | up
deriving DecidableEq

def TieRule.nearest (tie : TieRule) (numerator denominator : Nat) : Nat :=
  match tie with
  | .even => roundedQuotient numerator denominator
  | .up => (2 * numerator + denominator) / (2 * denominator)

/-- The decimals that a positive binary number is nearest to, in quarters of its last bit. -/
structure ReadBack where
  lower : Nat
  center : Nat
  upper : Nat
  /-- Whether the ends themselves read back, as they do when the last bit is even. -/
  closed : Bool
  /-- The binary exponent of one quarter. -/
  quarter : Int

namespace ReadBack

/-- The interval of the value `mantissa * 2 ^ exponent`. The lower neighbour of a power of two is
only half as far away as the upper one, unless the number is among the smallest of the format. -/
def around (format : BinaryFormat) (mantissa : Nat) (exponent : Int) : ReadBack :=
  let isPower := mantissa = 2 ^ (format.precision - 1) ∧ format.lowestExponent < exponent
  { lower := 4 * mantissa - (if isPower then 1 else 2)
    center := 4 * mantissa
    upper := 4 * mantissa + 2
    closed := mantissa % 2 == 0
    quarter := exponent - 2 }

variable (interval : ReadBack)

/-- A number of quarters over `10 ^ power`, as a numerator for `denominator power`. -/
def numerator (power : Int) (quarters : Nat) : Nat :=
  quarters * 2 ^ interval.quarter.toNat * 10 ^ (-power).toNat

def denominator (power : Int) : Nat :=
  2 ^ (-interval.quarter).toNat * 10 ^ power.toNat

/-- Whether `digits * 10 ^ power` lies in the interval. -/
def holds (power : Int) (digits : Nat) : Bool :=
  let point := digits * interval.denominator power
  let lower := interval.numerator power interval.lower
  let upper := interval.numerator power interval.upper
  if interval.closed then lower ≤ point && point ≤ upper else lower < point && point < upper

/-- The multiple of `10 ^ power` in the interval that is nearest to its center. If the interval
holds a multiple at all, it holds one of the center's two neighbours. -/
def nearestMultiple? (tie : TieRule) (power : Int) : Option Nat :=
  let center := interval.numerator power interval.center
  let denominator := interval.denominator power
  let below := center / denominator
  let above := below + 1
  let belowHolds := 0 < below && interval.holds power below
  match belowHolds, interval.holds power above with
  | true, true => some (tie.nearest center denominator)
  | true, false => some below
  | false, true => some above
  | false, false => none

end ReadBack

/-- A power of ten above the positive value `mantissa * 2 ^ exponent`, and not by more than a factor
of a thousand. -/
def powerOfTenAbove (mantissa : Nat) (exponent : Int) : Int :=
  ((mantissa.log2 : Int) + exponent) * 30103 / 100000 + 2

/-- The shortest decimal that reads back as the positive value `mantissa * 2 ^ exponent`. No format
here needs more than seventeen digits, so the search among two dozen powers of ten always ends; past
its end stands the exact value. -/
def shortestDecimal (tie : TieRule) (format : BinaryFormat) (mantissa : Nat) (exponent : Int) :
    Decimal :=
  let interval := ReadBack.around format mantissa exponent
  let top := powerOfTenAbove mantissa exponent
  let found := (List.range 24).findSome? fun (steps : Nat) =>
    (interval.nearestMultiple? tie (top - steps)).map fun digits =>
      (⟨digits, top - steps⟩ : Decimal)
  found.getD
    (if 0 ≤ exponent then ⟨mantissa * 2 ^ exponent.toNat, 0⟩
     else ⟨mantissa * 5 ^ (-exponent).toNat, exponent⟩)

end SceneFlow
