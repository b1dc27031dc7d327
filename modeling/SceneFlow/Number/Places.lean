import SceneFlow.Number.Shortest

/-!
# Numbers in running text

Two spellings of binary32 numbers that lines of text use: a fixed count of two places, and the
shortest decimal written out without an exponent.
-/

set_option autoImplicit false

namespace SceneFlow

-- Powers are those of the core library, whatever else is imported.
attribute [local instance (high)] instPowNat

/-- A sign in front of negative numbers, negative zero included. -/
def signText (negative : Bool) : String :=
  if negative then "-" else ""

/-- Two places after the point: the exact value, rounded to hundredths, a half going to the even
neighbour. -/
def twoPlaces (value : Float32) : String :=
  let parts := Unpacked.ofFloat32 value
  match parts.magnitude with
  | .notANumber => "NaN"
  | .infinite => signText parts.negative ++ "inf"
  | .finite mantissa exponent =>
      let hundredths :=
        roundedQuotient (mantissa * 100 * 2 ^ exponent.toNat) (2 ^ (-exponent).toNat)
      let cents := hundredths % 100
      signText parts.negative ++ toString (hundredths / 100) ++ "." ++
        (if cents < 10 then "0" else "") ++ toString cents

/-- The shortest decimal that reads back, written out in full: no exponent, and no point where no
digit follows it. Of two that are equally near the one farther from zero is taken. -/
def writtenOut (value : Float32) : String :=
  let parts := Unpacked.ofFloat32 value
  match parts.magnitude with
  | .notANumber => "NaN"
  | .infinite => signText parts.negative ++ "inf"
  | .finite 0 _ => signText parts.negative ++ "0"
  | .finite mantissa exponent =>
      let decimal := shortestDecimal .up .single mantissa exponent
      let places := (-decimal.exponent).toNat
      let whole := decimal.digits * 10 ^ decimal.exponent.toNat / 10 ^ places
      let fraction := toString (decimal.digits % 10 ^ places)
      signText parts.negative ++ toString whole ++
        (if places = 0 then ""
         else "." ++ "".pushn '0' (places - fraction.length) ++ fraction)

end SceneFlow
