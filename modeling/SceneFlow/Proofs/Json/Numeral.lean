import SceneFlow.Json.Numeral

/-!
# Numerals read back

What a numeral is written as is read as that numeral again, as long as nothing follows that could
belong to it. The whole numbers that a document knows are read from their numerals as themselves.
-/

set_option autoImplicit false

namespace SceneFlow

namespace Digit

/-- No digit stands in front. -/
def NoneAhead (chars : List Char) : Prop :=
  ∀ char ∈ chars.head?, ofChar? char = none

theorem leading_map_toChar (digits : List Digit) {rest : List Char} (ends : NoneAhead rest) :
    leading (digits.map toChar ++ rest) = (digits, rest) := by
  induction digits with
  | nil =>
      cases rest with
      | nil => rfl
      | cons char rest => simp [leading, ends char rfl]
  | cons digit digits ih => simp [leading, ofChar?_toChar, ih]

/-- A number of more digits than one does not begin with a zero. -/
theorem ofNat_eq_cons (number : Nat) (several : 10 ≤ number) :
    ∃ digit rest, ofNat number = digit :: rest ∧ digit ≠ 0 := by
  induction number using Nat.strongRecOn with
  | ind number ih =>
      rw [ofNat, if_neg (by omega)]
      by_cases small : number / 10 < 10
      · refine ⟨Fin.ofNat 10 (number / 10), [Fin.ofNat 10 number], ?_, ?_⟩
        · rw [ofNat, if_pos small]
          rfl
        · intro zero
          have value := congrArg Fin.val zero
          simp only [Fin.val_ofNat, Fin.val_zero] at value
          omega
      · obtain ⟨digit, rest, digits, nonzero⟩ := ih (number / 10) (by omega) (by omega)
        refine ⟨digit, rest ++ [Fin.ofNat 10 number], ?_, nonzero⟩
        rw [digits, List.cons_append]

theorem toChar_ne (digit : Digit) : digit.toChar ≠ '-' ∧ digit.toChar ≠ '+' := by
  revert digit
  decide

end Digit

namespace Numeral

/-- Nothing stands in front that could go on with a numeral. -/
def EndsBefore (chars : List Char) : Prop :=
  ∀ char ∈ chars.head?, Digit.ofChar? char = none ∧ char ≠ '.' ∧ char ≠ 'e' ∧ char ≠ 'E'

theorem EndsBefore.noneAhead {chars : List Char} (ends : EndsBefore chars) :
    Digit.NoneAhead chars :=
  fun char ahead => (ends char ahead).1

theorem readDigits?_map {digits : List Digit} (some_digit : digits ≠ []) {rest : List Char}
    (ends : Digit.NoneAhead rest) :
    readDigits? (digits.map Digit.toChar ++ rest) = some (digits, rest) := by
  unfold readDigits?
  rw [Digit.leading_map_toChar digits ends]
  cases digits with
  | nil => exact absurd rfl some_digit
  | cons => rfl

theorem readWhole?_ofNat (whole : Nat) {rest : List Char} (ends : Digit.NoneAhead rest) :
    readWhole? ((Digit.ofNat whole).map Digit.toChar ++ rest) = some (whole, rest) := by
  have value := Digit.value_ofNat whole
  unfold readWhole?
  rw [readDigits?_map (Digit.ofNat_ne_nil whole) ends, Option.bind_some]
  by_cases several : 10 ≤ whole
  · obtain ⟨digit, others, digits, nonzero⟩ := Digit.ofNat_eq_cons whole several
    rw [digits] at value ⊢
    dsimp only
    split
    next leads => cases leads; exact absurd rfl nonzero
    next => rw [value]
  · rw [Digit.ofNat, if_pos (by omega)] at value ⊢
    dsimp only
    rw [value]
    split
    next leads => exact absurd (congrArg List.length leads) (by simp)
    next => rfl

theorem readMagnitude?_ofNat (minus : Option Bool) (magnitude : Nat) {rest : List Char}
    (ends : Digit.NoneAhead rest) :
    readMagnitude? minus ((Digit.ofNat magnitude).map Digit.toChar ++ rest) =
      some (some ⟨minus, magnitude⟩, rest) := by
  unfold readMagnitude?
  rw [readDigits?_map (Digit.ofNat_ne_nil magnitude) ends, Option.map_some]
  simp only [Digit.value_ofNat]

theorem readExponent?_text (exponent : Option NumeralExponent) {rest : List Char}
    (ends : EndsBefore rest) :
    readExponent? (exponentText exponent ++ rest) = some (exponent, rest) := by
  rcases exponent with _ | ⟨_ | _ | _, magnitude⟩
  · cases rest with
    | nil => rfl
    | cons char rest =>
        obtain ⟨_, _, lower, upper⟩ := ends char rfl
        simp only [exponentText, List.nil_append]
        unfold readExponent?
        split <;> simp_all
  · have read := readMagnitude?_ofNat none magnitude ends.noneAhead
    cases digits : Digit.ofNat magnitude with
    | nil => exact absurd digits (Digit.ofNat_ne_nil magnitude)
    | cons digit others =>
        obtain ⟨minus, plus⟩ := digit.toChar_ne
        rw [digits] at read
        simp only [exponentText, digits, List.nil_append, List.map_cons, List.cons_append]
          at read ⊢
        unfold readExponent?
        split <;> simp_all
  · exact readMagnitude?_ofNat (some false) magnitude ends.noneAhead
  · exact readMagnitude?_ofNat (some true) magnitude ends.noneAhead

theorem noneAhead_exponentText (exponent : Option NumeralExponent) {rest : List Char}
    (ends : EndsBefore rest) :
    ∀ char ∈ (exponentText exponent ++ rest).head?, Digit.ofChar? char = none ∧ char ≠ '.' := by
  intro char ahead
  cases exponent with
  | none =>
      obtain ⟨digit, point, _⟩ := ends char ahead
      exact ⟨digit, point⟩
  | some exponent =>
      cases ahead
      exact ⟨by decide, by decide⟩

/-- A numeral is read back from its text, whatever follows. -/
theorem read?_text (numeral : Numeral) {rest : List Char} (ends : EndsBefore rest) :
    read? (numeral.text ++ rest) = some (numeral, rest) := by
  obtain ⟨negative, whole, fraction, exponent⟩ := numeral
  have exponents := readExponent?_text exponent ends
  have behind := noneAhead_exponentText exponent ends
  generalize later : exponentText exponent ++ rest = tail at exponents behind
  have fractions : readFraction? ((if fraction = [] then [] else
      '.' :: fraction.map Digit.toChar) ++ tail) = some (fraction, tail) := by
    split
    next empty =>
      subst empty
      cases tail with
      | nil => rfl
      | cons char tail =>
          obtain ⟨_, point⟩ := behind char rfl
          simp [readFraction?, point]
    next digits => exact readDigits?_map digits fun char ahead => (behind char ahead).1
  generalize middle : (if fraction = [] then [] else '.' :: fraction.map Digit.toChar) = point
    at fractions
  have none_ahead : Digit.NoneAhead (point ++ tail) := by
    intro char ahead
    by_cases empty : fraction = []
    · rw [← middle, if_pos empty] at ahead
      exact (behind char ahead).1
    · rw [← middle, if_neg empty] at ahead
      cases ahead
      decide
  have wholes := readWhole?_ofNat whole none_ahead
  have written : (Numeral.mk negative whole fraction exponent).text ++ rest =
      (if negative then ['-'] else []) ++
        ((Digit.ofNat whole).map Digit.toChar ++ (point ++ tail)) := by
    simp only [text, middle, ← later, List.append_assoc]
  rw [written]
  unfold read?
  cases negative with
  | true =>
      simp [wholes, fractions, exponents]
  | false =>
      cases digits : Digit.ofNat whole with
      | nil => exact absurd digits (Digit.ofNat_ne_nil whole)
      | cons digit others =>
          obtain ⟨minus, _⟩ := digit.toChar_ne
          rw [digits] at wholes
          simp only [List.map_cons, List.cons_append] at wholes
          simp [minus, wholes, fractions, exponents]

/-! ## Whole numbers -/

/-- A numeral that is written without point and exponent is read as a whole number. -/
theorem number?_of_signed {negative : Bool} {whole : Nat} {value : Int} (fits)
    (signed : (if negative then -(whole : Int) else whole) = value)
    (plain : ¬ (negative = true ∧ whole = 0)) :
    (Numeral.mk negative whole [] none).number? = some (.whole value fits) := by
  subst signed
  unfold number?
  rw [dif_pos ⟨⟨rfl, rfl, plain⟩, fits⟩]

theorem number?_ofInt (value : Int) (fits) : (ofInt value).number? = some (.whole value fits) := by
  apply number?_of_signed
  · simp only [decide_eq_true_eq]
    split <;> omega
  · rintro ⟨negative, zero⟩
    simp only [decide_eq_true_eq] at negative
    omega

theorem number?_ofNat (value : Nat) (fits) : (ofNat value).number? = some (.whole value fits) := by
  apply number?_of_signed <;> simp

end Numeral

end SceneFlow
