/-!
# Binary floating-point numbers, exactly

A finite binary floating-point number is a whole number times a power of two. This module takes the
bits of a number apart into that exact value, and finds the bits of the number nearest to a given
quotient. Everything is whole-number arithmetic.
-/

set_option autoImplicit false

namespace SceneFlow

-- Powers are those of the core library, whatever else is imported.
attribute [local instance (high)] instPowNat

/-- The whole number nearest to a quotient; the even one of two that are equally near. -/
def roundedQuotient (numerator denominator : Nat) : Nat :=
  let floor := numerator / denominator
  let remainder := numerator % denominator
  if 2 * remainder < denominator then floor
  else if denominator < 2 * remainder then floor + 1
  else floor + floor % 2

/-- A binary floating-point format: a sign bit, a biased exponent and a fraction. -/
structure BinaryFormat where
  /-- Significant bits of a normal number, its leading one included. -/
  precision : Nat
  exponentBits : Nat

inductive Magnitude where
  | notANumber
  | infinite
  /-- The value `mantissa * 2 ^ exponent`. The exponent is that of the last bit the format keeps. -/
  | finite (mantissa : Nat) (exponent : Int)

structure Unpacked where
  negative : Bool
  magnitude : Magnitude

namespace BinaryFormat

def single : BinaryFormat := ⟨24, 8⟩

def double : BinaryFormat := ⟨53, 11⟩

variable (format : BinaryFormat)

/-- The exponent of the last bit of the numbers nearest to zero. -/
def lowestExponent : Int :=
  3 - 2 ^ (format.exponentBits - 1) - (format.precision : Int)

def infinityBits : Nat :=
  (2 ^ format.exponentBits - 1) * 2 ^ (format.precision - 1)

def signBit : Nat :=
  2 ^ (format.exponentBits + format.precision - 1)

/-- Takes the bits of a number apart. A biased exponent of zero marks the numbers without a leading
one, the greatest one the infinities and not-a-number. -/
def unpack (bits : Nat) : Unpacked :=
  let fractionSize := 2 ^ (format.precision - 1)
  let fraction := bits % fractionSize
  let biased := bits / fractionSize % 2 ^ format.exponentBits
  { negative := bits / format.signBit % 2 == 1
    magnitude :=
      if biased + 1 = 2 ^ format.exponentBits then
        if fraction = 0 then .infinite else .notANumber
      else if biased = 0 then .finite fraction format.lowestExponent
      else .finite (fractionSize + fraction) (format.lowestExponent + (biased - 1 : Nat)) }

/-- The bits of the nonnegative number nearest to `numerator / denominator`, the one with an even
last bit of two that are equally near; infinity above the greatest finite number. The exponent is
chosen so that the rounded mantissa fills the format, and a mantissa that rounds up to the next
power of two carries into the exponent by itself. Zero has no leading bit to choose by. -/
def nearestBits (numerator denominator : Nat) : Nat :=
  if numerator = 0 then 0 else
  let scaled (exponent : Int) : Nat × Nat :=
    (numerator * 2 ^ (-exponent).toNat, denominator * 2 ^ exponent.toNat)
  let guess := max format.lowestExponent
    ((numerator.log2 : Int) - (denominator.log2 : Int) - (format.precision : Int))
  let exponent :=
    if (scaled guess).1 / (scaled guess).2 < 2 ^ format.precision then guess else guess + 1
  let mantissa := roundedQuotient (scaled exponent).1 (scaled exponent).2
  min format.infinityBits
    ((exponent - format.lowestExponent).toNat * 2 ^ (format.precision - 1) + mantissa)

end BinaryFormat

namespace Unpacked

def isFinite (parts : Unpacked) : Bool :=
  match parts.magnitude with
  | .finite .. => true
  | _ => false

def ofFloat32 (value : Float32) : Unpacked :=
  BinaryFormat.single.unpack value.toBits.toNat

def ofFloat (value : Float) : Unpacked :=
  BinaryFormat.double.unpack value.toBits.toNat

def toFloat32 (parts : Unpacked) : Float32 :=
  let sign := if parts.negative then BinaryFormat.single.signBit else 0
  let magnitude :=
    match parts.magnitude with
    | .notANumber => BinaryFormat.single.infinityBits + 1
    | .infinite => BinaryFormat.single.infinityBits
    | .finite mantissa exponent =>
        BinaryFormat.single.nearestBits (mantissa * 2 ^ exponent.toNat) (2 ^ (-exponent).toNat)
  Float32.ofBits (UInt32.ofNat (sign + magnitude))

end Unpacked

end SceneFlow
