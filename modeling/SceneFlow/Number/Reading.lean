import SceneFlow.Number.Binary
import SceneFlow.Number.Digits

/-!
# Numbers typed by people

Numbers as they are typed on a command line: natural numbers, and binary32 numbers in decimal
notation, each correctly rounded.
-/

set_option autoImplicit false

namespace SceneFlow

-- Powers are those of the core library, whatever else is imported.
attribute [local instance (high)] instPowNat

/-- The digits of a text that consists of digits alone, at least one. -/
def allDigits? (chars : List Char) : Option (List Digit) :=
  match Digit.leading chars with
  | ([], _) => none
  | (digits, []) => some digits
  | _ => none

/-- A natural number below a bound; a plus sign may stand in front. -/
def typedNat? (bound : Nat) (text : String) : Option Nat :=
  let chars :=
    match text.toList with
    | '+' :: rest => rest
    | chars => chars
  (allDigits? chars).bind fun digits =>
    if Digit.value digits < bound then some (Digit.value digits) else none

/-- A sign in front of a number, and what follows it. -/
def typedSign : List Char → Bool × List Char
  | '-' :: rest => (true, rest)
  | '+' :: rest => (false, rest)
  | chars => (false, chars)

/-- The exponent at the end of a number, zero if there is none. -/
def typedExponent? : List Char → Option Int
  | [] => some 0
  | 'e' :: rest | 'E' :: rest =>
      let (negative, rest) := typedSign rest
      (allDigits? rest).map fun digits =>
        if negative then -(Digit.value digits : Int) else Digit.value digits
  | _ => none

/-- Digits and an exponent that are certain to be beyond every binary32 number, on either side. -/
def decimalReach : Int := 100

def nearestSingleBits (digits : List Digit) (exponent : Int) : Nat :=
  let number := Digit.value digits
  let magnitude := ((Digit.ofNat number).length : Int) + exponent
  if number = 0 ∨ magnitude < -decimalReach then 0
  else if decimalReach < magnitude then BinaryFormat.single.infinityBits
  else
    BinaryFormat.single.nearestBits (number * 10 ^ exponent.toNat) (10 ^ (-exponent).toNat)

/-- The bits of a number without its sign: digits with a point among, before or behind them and an
exponent, or one of the words for the special values in either case. -/
def typedMagnitude? (chars : List Char) : Option Nat :=
  let word := String.ofList (chars.map Char.toLower)
  if word = "inf" ∨ word = "infinity" then some BinaryFormat.single.infinityBits
  else if word = "nan" then some (BinaryFormat.single.infinityBits + 1)
  else
    let (whole, rest) := Digit.leading chars
    let (fraction, rest) :=
      match rest with
      | '.' :: rest => Digit.leading rest
      | _ => ([], rest)
    if whole.isEmpty && fraction.isEmpty then none
    else
      (typedExponent? rest).map fun exponent =>
        nearestSingleBits (whole ++ fraction) (exponent - fraction.length)

def typedFloat32? (text : String) : Option Float32 :=
  let (negative, chars) := typedSign text.toList
  let sign := if negative then BinaryFormat.single.signBit else 0
  (typedMagnitude? chars).map fun magnitude => Float32.ofBits (UInt32.ofNat (sign + magnitude))

end SceneFlow
