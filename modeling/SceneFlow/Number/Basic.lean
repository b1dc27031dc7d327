import SceneFlow.Number.Binary

/-!
# Numbers of a document

A document knows two kinds of number: whole numbers that fit a 64-bit word, signed or unsigned, and
finite binary64 numbers.
-/

set_option autoImplicit false

namespace SceneFlow

-- Powers are those of the core library, whatever else is imported.
attribute [local instance (high)] instPowNat

inductive Number where
  | whole (value : Int) (fits : -2 ^ (63 : Nat) ≤ value ∧ value < 2 ^ (64 : Nat))
  | real (value : Float) (finite : (Unpacked.ofFloat value).isFinite = true)

namespace Number

/-- Whole numbers are equal by value and binary64 numbers compare as such, so both zeros agree. A
number of one kind never equals one of the other. -/
def same : Number → Number → Bool
  | .whole left _, .whole right _ => left == right
  | .real left _, .real right _ => left == right
  | _, _ => false

instance : BEq Number := ⟨same⟩

/-- The nearest binary32 number. A whole number is rounded once and directly. -/
def toFloat32 : Number → Float32
  | .whole value _ =>
      Unpacked.toFloat32 { negative := value < 0, magnitude := .finite value.natAbs 0 }
  | .real value _ => (Unpacked.ofFloat value).toFloat32

/-- The number as a natural number below `bound`, if it is one and whole. -/
def below? (bound : Nat) : Number → Option Nat
  | .whole value _ => if 0 ≤ value ∧ value < bound then some value.toNat else none
  | .real _ _ => none

end Number

end SceneFlow
