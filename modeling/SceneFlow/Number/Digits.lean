/-!
# Decimal digits

Lists of decimal digits, the leading digit first, beside the numbers they spell.
-/

set_option autoImplicit false

namespace SceneFlow

-- Powers are those of the core library, whatever else is imported.
attribute [local instance (high)] instPowNat

abbrev Digit := Fin 10

namespace Digit

def toChar (digit : Digit) : Char :=
  Char.ofNat ('0'.toNat + digit.val)

/-- The digit a character stands for; only the ten ASCII digits stand for one. -/
def ofChar? (char : Char) : Option Digit :=
  if inRange : '0'.toNat ≤ char.toNat ∧ char.toNat - '0'.toNat < 10 then
    some ⟨char.toNat - '0'.toNat, inRange.2⟩
  else
    none

def value (digits : List Digit) : Nat :=
  digits.foldl (fun total digit => 10 * total + digit.val) 0

/-- The digits of a number, at least one. -/
def ofNat (number : Nat) : List Digit :=
  if number < 10 then
    [Fin.ofNat 10 number]
  else
    ofNat (number / 10) ++ [Fin.ofNat 10 number]
termination_by number

/-- The last `width` digits of a number, with zeros in front where it has fewer. -/
def padded : (width number : Nat) → List Digit
  | 0, _ => []
  | width + 1, number => padded width (number / 10) ++ [Fin.ofNat 10 number]

/-- The leading digits of a text, and the text behind them. -/
def leading : List Char → List Digit × List Char
  | [] => ([], [])
  | char :: rest =>
      match ofChar? char with
      | none => ([], char :: rest)
      | some digit => let (digits, rest) := leading rest; (digit :: digits, rest)

theorem ofChar?_toChar (digit : Digit) : ofChar? digit.toChar = some digit := by
  revert digit
  decide

theorem ofNat_ne_nil (number : Nat) : ofNat number ≠ [] := by
  rw [ofNat]
  split <;> simp

theorem value_append_singleton (digits : List Digit) (digit : Digit) :
    value (digits ++ [digit]) = 10 * value digits + digit.val := by
  simp [value]

theorem value_ofNat (number : Nat) : value (ofNat number) = number := by
  induction number using Nat.strongRecOn with
  | ind number ih =>
      rw [ofNat]
      split
      · rename_i small
        simp [value, Nat.mod_eq_of_lt small]
      · rw [value_append_singleton, ih (number / 10) (by omega), Fin.val_ofNat]
        omega

end Digit

end SceneFlow
