import SceneFlow.Number.Basic
import SceneFlow.Number.Digits
import SceneFlow.Number.Shortest

/-!
# Numerals

A numeral is a number as a document spells it: a sign, whole digits, digits behind a point and an
exponent. This module gives the number that a numeral stands for and the numeral that each number is
written with.

Reading is not the rounding of the exact value. The leading digits are gathered into one 64-bit
word, and that word is multiplied or divided by a power of ten in binary64 arithmetic, so the last
bit of a very small or very long number can differ from the nearest one.
-/

set_option autoImplicit false

namespace SceneFlow

-- Powers are those of the core library, whatever else is imported.
attribute [local instance (high)] instPowNat

structure NumeralExponent where
  /-- `some true` for a minus sign, `some false` for a plus sign. -/
  minus : Option Bool
  magnitude : Nat
deriving DecidableEq

/-- A number as a document spells it. There is no point where no digit follows it. -/
structure Numeral where
  negative : Bool
  whole : Nat
  fraction : List Digit
  exponent : Option NumeralExponent
deriving DecidableEq

namespace Numeral

/-! ## The number a numeral stands for -/

/-- Leading digits gathered in a 64-bit word, and the power of ten they count. -/
structure Significand where
  word : Nat
  exponent : Int

def wordLimit : Nat := 2 ^ (64 : Nat)

/-- The longest run of leading digits of a whole number that fits a word. -/
def Significand.ofWhole (whole : Nat) : Significand :=
  if whole < wordLimit then ⟨whole, 0⟩
  else
    let shorter := ofWhole (whole / 10)
    ⟨shorter.word, shorter.exponent + 1⟩
termination_by whole
decreasing_by
  rename_i tooLong
  simp only [wordLimit, Nat.not_lt] at tooLong
  omega

/-- Appends the digits behind the point, up to the first that no longer fits. -/
def Significand.append : Significand → List Digit → Significand
  | gathered, [] => gathered
  | gathered, digit :: rest =>
      if 10 * gathered.word + digit.val < wordLimit then
        append ⟨10 * gathered.word + digit.val, gathered.exponent - 1⟩ rest
      else
        gathered

def powerOfTen (power : Nat) : Float :=
  Float.ofScientific 1 false power

def greatestPower : Nat := 308

/-- Divides by a power of ten, in as many steps as the format needs. -/
def dividedByPower (value : Float) (power : Nat) : Float :=
  if greatestPower < power then
    if value == 0 then value
    else dividedByPower (value / powerOfTen greatestPower) (power - greatestPower)
  else
    value / powerOfTen power
termination_by power
decreasing_by
  rename_i far _
  simp only [greatestPower] at far ⊢
  omega

/-- A word times a power of ten, in binary64 arithmetic; none where the product is infinite. -/
def Significand.scaled? (gathered : Significand) : Option Float :=
  let value := (UInt64.ofNat gathered.word).toFloat
  if gathered.exponent < 0 then
    some (dividedByPower value gathered.exponent.natAbs)
  else if gathered.exponent ≤ greatestPower then
    let product := value * powerOfTen gathered.exponent.natAbs
    if product.isInf then none else some product
  else if value == 0 then
    some value
  else
    none

/-- The greatest magnitude of an exponent that is counted; beyond it a number is zero or none. -/
def greatestExponent : Nat := 2 ^ (31 : Nat) - 1

def realMagnitude? (numeral : Numeral) : Option Float :=
  let gathered := (Significand.ofWhole numeral.whole).append numeral.fraction
  match numeral.exponent with
  | none => gathered.scaled?
  | some ⟨minus, magnitude⟩ =>
      let downwards := minus == some true
      if greatestExponent < magnitude then
        if downwards || gathered.word == 0 then some 0 else none
      else
        let shift : Int := if downwards then -(magnitude : Int) else magnitude
        Significand.scaled? { gathered with exponent := gathered.exponent + shift }

/-- The number a numeral stands for. Without point and exponent it is whole where it fits a 64-bit
word, save that a negative zero is binary64; else it is binary64, and none beyond its range. -/
def number? (numeral : Numeral) : Option Number :=
  let signed : Int := if numeral.negative then -(numeral.whole : Int) else numeral.whole
  if fits : (numeral.fraction = [] ∧ numeral.exponent = none ∧
      ¬(numeral.negative ∧ numeral.whole = 0)) ∧
      (-2 ^ (63 : Nat) ≤ signed ∧ signed < 2 ^ (64 : Nat)) then
    some (.whole signed fits.2)
  else
    numeral.realMagnitude?.bind fun magnitude =>
      let value := if numeral.negative then -magnitude else magnitude
      if finite : (Unpacked.ofFloat value).isFinite then some (.real value finite) else none

/-! ## The numeral a number is written with -/

def ofInt (value : Int) : Numeral :=
  { negative := value < 0, whole := value.natAbs, fraction := [], exponent := none }

def ofNat (value : Nat) : Numeral :=
  { negative := false, whole := value, fraction := [], exponent := none }

/-- How binary numbers are laid out: the decimal exponents between which the digits stand around the
point in their places. Outside of them one digit stands before the point and an exponent is
written. -/
structure Layout where
  format : BinaryFormat
  lowest : Int
  highest : Int

/-- Binary32 numbers are written in place from a millionth to thirteen whole digits. -/
def Layout.single : Layout := ⟨.single, -6, 12⟩

/-- Binary64 numbers are written in place from a hundred-thousandth to sixteen whole digits. -/
def Layout.double : Layout := ⟨.double, -5, 15⟩

/-- The digits in their places, at least one behind the point. -/
def inPlace (negative : Bool) (decimal : Decimal) : Numeral :=
  let places := (-decimal.exponent).toNat
  { negative
    whole := decimal.digits * 10 ^ decimal.exponent.toNat / 10 ^ places
    fraction :=
      if places = 0 then [⟨0, by decide⟩] else Digit.padded places (decimal.digits % 10 ^ places)
    exponent := none }

/-- One digit, the others behind the point if there are any, and an exponent with its sign. -/
def withExponent (negative : Bool) (decimal : Decimal) (leadingExponent : Int) : Numeral :=
  let places := (Digit.ofNat decimal.digits).length - 1
  { negative
    whole := decimal.digits / 10 ^ places
    fraction := Digit.padded places (decimal.digits % 10 ^ places)
    exponent := some ⟨some (leadingExponent < 0), leadingExponent.natAbs⟩ }

/-- The numeral of `mantissa * 2 ^ exponent` with a sign: its shortest decimal, laid out. Of two
that are equally near the one with an even last digit is taken. -/
def ofFinite (layout : Layout) (negative : Bool) (mantissa : Nat) (exponent : Int) : Numeral :=
  if mantissa = 0 then
    inPlace negative ⟨0, 0⟩
  else
    let decimal := shortestDecimal .even layout.format mantissa exponent
    let leadingExponent := ((Digit.ofNat decimal.digits).length - 1 : Nat) + decimal.exponent
    if layout.lowest ≤ leadingExponent ∧ leadingExponent ≤ layout.highest then
      inPlace negative decimal
    else
      withExponent negative decimal leadingExponent

/-- The numeral of a number taken apart; none for an infinity and for not-a-number. -/
def ofUnpacked? (layout : Layout) (parts : Unpacked) : Option Numeral :=
  match parts.magnitude with
  | .notANumber | .infinite => none
  | .finite mantissa exponent => some (ofFinite layout parts.negative mantissa exponent)

theorem isSome_ofUnpacked? (layout : Layout) (parts : Unpacked) :
    (ofUnpacked? layout parts).isSome = parts.isFinite := by
  unfold ofUnpacked? Unpacked.isFinite
  cases parts.magnitude <;> rfl

def ofFloat32? (value : Float32) : Option Numeral :=
  ofUnpacked? .single (Unpacked.ofFloat32 value)

def ofFloat? (value : Float) : Option Numeral :=
  ofUnpacked? .double (Unpacked.ofFloat value)

def ofNumber : Number → Numeral
  | .whole value _ => ofInt value
  | .real value finite =>
      (ofFloat? value).get ((isSome_ofUnpacked? .double (Unpacked.ofFloat value)).trans finite)

/-! ## Text -/

def exponentText : Option NumeralExponent → List Char
  | none => []
  | some ⟨minus, magnitude⟩ =>
      let sign :=
        match minus with
        | none => []
        | some true => ['-']
        | some false => ['+']
      'e' :: (sign ++ (Digit.ofNat magnitude).map Digit.toChar)

def text (numeral : Numeral) : List Char :=
  (if numeral.negative then ['-'] else []) ++
    (Digit.ofNat numeral.whole).map Digit.toChar ++
    (if numeral.fraction = [] then [] else '.' :: numeral.fraction.map Digit.toChar) ++
    exponentText numeral.exponent

def readDigits? (chars : List Char) : Option (List Digit × List Char) :=
  match Digit.leading chars with
  | ([], _) => none
  | found => some found

/-- Reads the whole digits of a numeral: a lone zero, or digits that do not begin with one. -/
def readWhole? (chars : List Char) : Option (Nat × List Char) :=
  (readDigits? chars).bind fun (digits, rest) =>
    match digits with
    | 0 :: _ :: _ => none
    | _ => some (Digit.value digits, rest)

/-- Reads the point and the digits behind it, if a point stands there. -/
def readFraction? : List Char → Option (List Digit × List Char)
  | '.' :: rest => readDigits? rest
  | chars => some ([], chars)

def readMagnitude? (minus : Option Bool) (chars : List Char) :
    Option (Option NumeralExponent × List Char) :=
  (readDigits? chars).map fun (digits, rest) => (some ⟨minus, Digit.value digits⟩, rest)

def readExponent? (chars : List Char) : Option (Option NumeralExponent × List Char) :=
  match chars with
  | 'e' :: '-' :: rest | 'E' :: '-' :: rest => readMagnitude? (some true) rest
  | 'e' :: '+' :: rest | 'E' :: '+' :: rest => readMagnitude? (some false) rest
  | 'e' :: rest | 'E' :: rest => readMagnitude? none rest
  | _ => some (none, chars)

def read? (chars : List Char) : Option (Numeral × List Char) := do
  let (negative, chars) :=
    match chars with
    | '-' :: rest => (true, rest)
    | _ => (false, chars)
  let (whole, chars) ← readWhole? chars
  let (fraction, chars) ← readFraction? chars
  let (exponent, chars) ← readExponent? chars
  some ({ negative, whole, fraction, exponent }, chars)

end Numeral

end SceneFlow
