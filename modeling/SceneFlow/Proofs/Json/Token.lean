import Mathlib.Data.List.Chain
import SceneFlow.Json.Writer
import SceneFlow.Proofs.Json.Numeral

/-!
# Tokens read back

Strings are written with escapes and read back as the texts they stand for. A list of tokens is read
back from any layout of it that has nothing but blanks between tokens, as long as no two numerals
run into each other.
-/

set_option autoImplicit false

namespace SceneFlow

namespace Token

/-! ## Strings -/

/-- How one character of a string is read: control characters without a short escape by their
codes, all others as they are. -/
def elementOf (char : Char) : Element :=
  if char.toNat < 0x20 ∧ char ∉ ['\x08', '\x0c', '\n', '\r', '\t'] then .unit char.toNat
  else .char char

theorem unitCode?_hexChar {code : Nat} (bound : code < 0x20) :
    unitCode? '0' '0' (hexChar (code / 16)) (hexChar (code % 16)) = some code := by
  have all : ∀ code < 0x20,
      unitCode? '0' '0' (hexChar (code / 16)) (hexChar (code % 16)) = some code := by decide
  exact all code bound

theorem readElements?_escapedText (char : Char) (rest : List Char) :
    readElements? (escapedText char ++ rest) =
      (readElements? rest).map fun read => (elementOf char :: read.1, read.2) := by
  by_cases short : char ∈ ['"', '\\', '\x08', '\x0c', '\n', '\r', '\t']
  · simp only [List.mem_cons, List.not_mem_nil, or_false] at short
    rcases short with rfl | rfl | rfl | rfl | rfl | rfl | rfl
    all_goals
      cases later : readElements? rest <;>
        simp [escapedText, readElements?, escaped?, elementOf, later]
  · simp only [List.mem_cons, List.not_mem_nil, or_false, not_or] at short
    obtain ⟨quote, backslash, backspace, feed, line, return_, tab⟩ := short
    by_cases control : char.toNat < 0x20
    · have code := unitCode?_hexChar control
      cases later : readElements? rest <;>
        simp [escapedText, readElements?, elementOf, quote, backslash, backspace, feed, line,
          return_, tab, control, code, later]
    · cases later : readElements? rest <;>
        simp [escapedText, readElements?, elementOf, quote, backslash, backspace, feed, line,
          return_, tab, control, later]

theorem readElements?_flatMap (text rest : List Char) :
    readElements? (text.flatMap escapedText ++ '"' :: rest) = some (text.map elementOf, rest) := by
  induction text with
  | nil => simp [readElements?]
  | cons char text ih =>
      simp only [List.flatMap_cons, List.append_assoc, readElements?_escapedText, ih,
        Option.map_some, List.map_cons]

theorem characters?_elementOf (char : Char) (rest : List Element) :
    characters? (elementOf char :: rest) = (characters? rest).map (char :: ·) := by
  unfold elementOf
  split
  next control =>
    obtain ⟨control, _⟩ := control
    have high : isHigh char.toNat = false := by
      simp only [isHigh, Bool.and_eq_false_iff, decide_eq_false_iff_not]
      omega
    have low : isLow char.toNat = false := by
      simp only [isLow, Bool.and_eq_false_iff, decide_eq_false_iff_not]
      omega
    rcases rest with _ | ⟨_ | _, rest⟩ <;> simp [characters?, high, low]
  next => simp [characters?]

theorem characters?_map (text : List Char) : characters? (text.map elementOf) = some text := by
  induction text with
  | nil => rfl
  | cons char text ih =>
      rw [List.map_cons, characters?_elementOf, ih]
      rfl

theorem readString?_quoted (text : String) (rest : List Char) :
    readString? (text.toList.flatMap escapedText ++ '"' :: rest) =
      some (.string (some text), rest) := by
  unfold readString?
  rw [readElements?_flatMap, Option.map_some]
  simp [characters?_map]

/-! ## Single tokens -/

def isNumber : Token → Bool
  | .number _ => true
  | _ => false

/-- The characters that numerals begin with. -/
def numeralStarts : List Char :=
  ['-', '0', '1', '2', '3', '4', '5', '6', '7', '8', '9']

theorem toChar_mem_numeralStarts (digit : Digit) : digit.toChar ∈ numeralStarts := by
  revert digit
  decide

theorem text_eq_cons (numeral : Numeral) :
    ∃ first rest, numeral.text = first :: rest ∧ first ∈ numeralStarts := by
  have starts : ∃ first ∈ numeralStarts, numeral.text.head? = some first := by
    unfold Numeral.text
    by_cases negative : numeral.negative = true
    · exact ⟨'-', by decide, by simp [negative]⟩
    · cases digits : Digit.ofNat numeral.whole with
      | nil => exact absurd digits (Digit.ofNat_ne_nil _)
      | cons digit others =>
          exact ⟨digit.toChar, toChar_mem_numeralStarts digit, by simp [negative]⟩
  obtain ⟨first, starts, ahead⟩ := starts
  obtain ⟨rest, text⟩ := List.head?_eq_some_iff.mp ahead
  exact ⟨first, rest, text, starts⟩

/-- A token begins with a character that is no blank and, unless it is a number, cannot go on with
a numeral either. -/
theorem chars_eq_cons (token : Token) :
    ∃ first rest, token.chars = first :: rest ∧ isBlank first = false ∧
      (token.isNumber = false → ∀ more, Numeral.EndsBefore (first :: more)) := by
  have apart : ∀ first : Char, (Digit.ofChar? first = none ∧ first ≠ '.' ∧ first ≠ 'e' ∧
      first ≠ 'E') → ∀ more, Numeral.EndsBefore (first :: more) := by
    intro first apart more char ahead
    cases ahead
    exact apart
  cases token with
  | number numeral =>
      obtain ⟨first, rest, text, starts⟩ := text_eq_cons numeral
      have solid : ∀ char ∈ numeralStarts, isBlank char = false := by
        simp [numeralStarts, isBlank]
      exact ⟨first, rest, text, solid first starts, nofun⟩
  | bool value => cases value <;> exact ⟨_, _, rfl, by decide, fun _ => apart _ (by decide)⟩
  | string text => cases text <;> exact ⟨_, _, rfl, by decide, fun _ => apart _ (by decide)⟩
  | _ => exact ⟨_, _, rfl, by decide, fun _ => apart _ (by decide)⟩

theorem read?_of_numeralStarts {first : Char} (starts : first ∈ numeralStarts)
    (rest : List Char) :
    read? (first :: rest) =
      (Numeral.read? (first :: rest)).map fun (numeral, rest) => (.number numeral, rest) := by
  simp only [numeralStarts, List.mem_cons, List.not_mem_nil, or_false] at starts
  rcases starts with rfl | rfl | rfl | rfl | rfl | rfl | rfl | rfl | rfl | rfl | rfl <;> rfl

/-- A token is read back from its characters, whatever follows that it does not run into. -/
theorem read?_chars (token : Token) {rest : List Char}
    (apart : token.isNumber = true → Numeral.EndsBefore rest) :
    read? (token.chars ++ rest) = some (token, rest) := by
  cases token with
  | number numeral =>
      have read := numeral.read?_text (apart rfl)
      obtain ⟨first, others, text, starts⟩ := text_eq_cons numeral
      simp only [chars]
      rw [text, List.cons_append] at read ⊢
      rw [read?_of_numeralStarts starts, read]
      rfl
  | string text =>
      cases text with
      | none =>
          simp [chars, read?, readString?, readElements?, unitCode?, hexDigit?, characters?, isHigh]
      | some text =>
          have read := readString?_quoted text rest
          simpa [chars, quoted, read?] using read
  | bool value => cases value <;> rfl
  | _ => rfl

/-! ## Layouts -/

/-- The characters are those of the tokens with blanks in between, and what follows a numeral
cannot go on with it. -/
inductive LaidOut : List Token → List Char → Prop where
  | nil {blanks : List Char} (blank : ∀ char ∈ blanks, isBlank char = true) : LaidOut [] blanks
  | cons {blanks chars : List Char} {token : Token} {rest : List Token}
      (blank : ∀ char ∈ blanks, isBlank char = true)
      (apart : token.isNumber = true → Numeral.EndsBefore chars) (later : LaidOut rest chars) :
      LaidOut (token :: rest) (blanks ++ (token.chars ++ chars))

theorem readAll?_blanks {blanks : List Char} (blank : ∀ char ∈ blanks, isBlank char = true)
    (fuel : Nat) (chars : List Char) :
    readAll? (blanks.length + fuel) (blanks ++ chars) = readAll? fuel chars := by
  induction blanks with
  | nil => simp
  | cons char blanks ih =>
      obtain ⟨here, later⟩ := List.forall_mem_cons.mp blank
      rw [List.length_cons, Nat.add_right_comm, List.cons_append, readAll?, if_pos here]
      exact ih later

theorem LaidOut.readAll? {tokens : List Token} {chars : List Char} (laidOut : LaidOut tokens chars)
    {fuel : Nat} (enough : chars.length ≤ fuel) : Token.readAll? fuel chars = some tokens := by
  induction laidOut generalizing fuel with
  | @nil blanks blank =>
      obtain ⟨more, rfl⟩ := Nat.exists_eq_add_of_le enough
      have passed := readAll?_blanks blank more []
      rw [List.append_nil] at passed
      rw [passed]
      cases more <;> rfl
  | @cons blanks chars token rest blank apart later ih =>
      obtain ⟨first, others, written, solid, _⟩ := token.chars_eq_cons
      rw [List.length_append, List.length_append] at enough
      obtain ⟨more, rfl⟩ := Nat.exists_eq_add_of_le (Nat.le_trans (Nat.le_add_right _ _) enough)
      have reads := token.read?_chars apart
      rw [readAll?_blanks blank]
      rw [written, List.cons_append] at reads ⊢
      rw [written, List.length_cons] at enough
      cases more with
      | zero => omega
      | succ more =>
          have remaining := @ih more (by omega)
          simp [Token.readAll?, solid, reads, remaining]

theorem LaidOut.next {token : Token} {rest : List Token} {chars : List Char}
    (apart : token.isNumber = true → Numeral.EndsBefore chars) (later : LaidOut rest chars) :
    LaidOut (token :: rest) (token.chars ++ chars) :=
  @LaidOut.cons [] chars token rest nofun apart later

theorem LaidOut.after_blanks {tokens : List Token} {chars : List Char}
    (laidOut : LaidOut tokens chars) {blanks : List Char}
    (blank : ∀ char ∈ blanks, isBlank char = true) : LaidOut tokens (blanks ++ chars) := by
  have both : ∀ others : List Char, (∀ char ∈ others, isBlank char = true) →
      ∀ char ∈ blanks ++ others, isBlank char = true := by
    intro others other char member
    rcases List.mem_append.mp member with front | back
    · exact blank char front
    · exact other char back
  cases laidOut with
  | nil other => exact .nil (both _ other)
  | cons other apart later =>
      rw [← List.append_assoc]
      exact .cons (both _ other) apart later

theorem endsBefore_of_isBlank {char : Char} (blank : isBlank char = true) (rest : List Char) :
    Numeral.EndsBefore (char :: rest) := by
  intro other ahead
  cases ahead
  simp only [isBlank, Bool.or_eq_true, beq_iff_eq] at blank
  rcases blank with ((rfl | rfl) | rfl) | rfl <;> decide

theorem LaidOut.endsBefore {tokens : List Token} {chars : List Char}
    (laidOut : LaidOut tokens chars) (apart : ∀ token ∈ tokens.head?, token.isNumber = false) :
    Numeral.EndsBefore chars := by
  cases laidOut with
  | nil blank =>
      cases chars with
      | nil => exact nofun
      | cons char blanks => exact endsBefore_of_isBlank (blank char (.head _)) blanks
  | @cons blanks chars token rest blank =>
      cases blanks with
      | nil =>
          obtain ⟨first, others, written, _, ends⟩ := token.chars_eq_cons
          rw [List.nil_append, written]
          exact ends (apart token rfl) _
      | cons char blanks => exact endsBefore_of_isBlank (blank char (.head _)) _

/-- No two numbers stand next to each other. -/
def Apart (tokens : List Token) : Prop :=
  tokens.IsChain fun token next => token.isNumber = true → next.isNumber = false

end Token

namespace Json

theorem isBlank_of_mem_lineBreak {depth : Nat} {char : Char} (member : char ∈ lineBreak depth) :
    Token.isBlank char = true := by
  simp only [lineBreak, List.mem_cons, List.mem_replicate] at member
  rcases member with rfl | ⟨_, rfl⟩ <;> decide

theorem isBlank_of_mem_lead {depth : Nat} {first : Bool} {char : Char}
    (member : char ∈ if first then lineBreak depth else []) : Token.isBlank char = true := by
  cases first with
  | true => exact isBlank_of_mem_lineBreak member
  | false => cases member

/-- The wide layout puts nothing but blanks between tokens. -/
theorem laidOut_wideLayout (depth : Nat) (first : Bool) {tokens : List Token}
    (apart : Token.Apart tokens) : Token.LaidOut tokens (wideLayout depth first tokens) := by
  induction tokens generalizing depth first with
  | nil => exact .nil nofun
  | cons token rest ih =>
      have later : Token.Apart rest := apart.tail
      have before : ∀ next ∈ rest.head?, token.isNumber = true → next.isNumber = false := by
        intro next ahead
        cases rest with
        | nil => cases ahead
        | cons other rest =>
            cases ahead
            exact (List.isChain_cons_cons.mp apart).1
      have lines : ∀ char ∈ lineBreak depth, Token.isBlank char = true :=
        fun _ => isBlank_of_mem_lineBreak
      cases token with
      | openBrace | openBracket =>
          rw [wideLayout, List.append_assoc]
          exact .cons (fun char => isBlank_of_mem_lead) nofun (ih (depth + 1) true later)
      | closeBrace | closeBracket =>
          rw [wideLayout, List.append_assoc]
          refine .cons ?_ nofun (ih (depth - 1) false later)
          cases first with
          | true => exact nofun
          | false => exact fun char => isBlank_of_mem_lineBreak
      | comma =>
          rw [wideLayout, List.append_assoc]
          exact .next nofun ((ih depth false later).after_blanks lines)
      | colon =>
          have space : ∀ char ∈ [' '], Token.isBlank char = true := by simp [Token.isBlank]
          exact .next nofun ((ih depth false later).after_blanks space)
      | null | bool | number | string =>
          simp only [wideLayout, List.append_assoc]
          refine .cons (fun char => isBlank_of_mem_lead) (fun number => ?_) (ih depth false later)
          exact (ih depth false later).endsBefore fun next ahead => before next ahead number

end Json

theorem Token.ofText?_wideLayout {tokens : List Token} (apart : Apart tokens) :
    Token.ofText? (String.ofList (Json.wideLayout 0 false tokens)) = some tokens := by
  have read := (Json.laidOut_wideLayout 0 false apart).readAll? (Nat.le_refl _)
  simpa [Token.ofText?] using read

end SceneFlow
