import SceneFlow.Json.Reader
import SceneFlow.Proofs.Json.Token

/-!
# Documents read back

A document is read back from its text along an outline that covers all of it, provided it nests no
deeper than a reader follows and its numbers are in range.
-/

set_option autoImplicit false

namespace SceneFlow

namespace Token

theorem Apart.cons {token : Token} {rest : List Token} (apart : Apart rest)
    (plain : token.isNumber = false) : Apart (token :: rest) :=
  List.isChain_cons.mpr ⟨fun _ _ number => absurd (plain.symm.trans number) nofun, apart⟩

theorem Apart.append {front back : List Token} {token : Token} (apart : Apart front)
    (later : Apart back) (plain : token.isNumber = false) : Apart (front ++ token :: back) := by
  refine List.isChain_append.mpr ⟨apart, later.cons plain, ?_⟩
  intro last _ next ahead _
  cases ahead
  exact plain

end Token

namespace Json

/-! ## Tokens, depths and numbers of a document -/

mutual

theorem apart_tokens : ∀ document : Json, Token.Apart document.tokens
  | .null | .bool _ | .number _ | .string _ => by
      rw [tokens]
      exact List.isChain_singleton _
  | .array items => by
      rw [tokens]
      exact ((apart_itemTokens items).append .nil rfl).cons rfl
  | .object members => by
      rw [tokens]
      exact ((apart_memberTokens members).append .nil rfl).cons rfl

theorem apart_itemTokens : ∀ items : List Json, Token.Apart (itemTokens items)
  | [] => .nil
  | [last] => apart_tokens last
  | item :: next :: rest => by
      rw [itemTokens]
      · exact (apart_tokens item).append (apart_itemTokens (next :: rest)) rfl
      · simp

theorem apart_memberTokens : ∀ members : List (String × Json), Token.Apart (memberTokens members)
  | [] => .nil
  | [(name, value)] => by
      rw [memberTokens]
      exact ((apart_tokens value).cons rfl).cons rfl
  | (name, value) :: next :: rest => by
      rw [memberTokens]
      · have later := apart_memberTokens (next :: rest)
        exact (((apart_tokens value).append later rfl).cons rfl).cons rfl
      · simp

end

mutual

/-- How many arrays and objects are open at once at most. -/
def nesting : Json → Nat
  | .array items => nestingOfItems items + 1
  | .object members => nestingOfMembers members + 1
  | .null | .bool _ | .number _ | .string _ => 0

def nestingOfItems : List Json → Nat
  | [] => 0
  | item :: rest => max item.nesting (nestingOfItems rest)

def nestingOfMembers : List (String × Json) → Nat
  | [] => 0
  | (_, value) :: rest => max value.nesting (nestingOfMembers rest)

end

mutual

/-- All numerals of a document. -/
def numerals : Json → List Numeral
  | .number numeral => [numeral]
  | .array items => numeralsOfItems items
  | .object members => numeralsOfMembers members
  | .null | .bool _ | .string _ => []

def numeralsOfItems : List Json → List Numeral
  | [] => []
  | item :: rest => item.numerals ++ numeralsOfItems rest

def numeralsOfMembers : List (String × Json) → List Numeral
  | [] => []
  | (_, value) :: rest => value.numerals ++ numeralsOfMembers rest

end

/-! ## Values -/

/-- The value is read back from its tokens, whatever follows them, if there is fuel for two calls
for each token and room for all that it opens. -/
def ReadBy (outline : Outline) (value : Json) : Prop :=
  ∀ (fuel room : Nat) (rest : List Token), 2 * value.tokens.length ≤ fuel + 1 →
    value.nesting ≤ room →
      readValue? fuel room outline (value.tokens ++ rest) = some (value, rest)

theorem exists_token (value : Json) :
    ∃ first rest, value.tokens = first :: rest ∧ first ≠ .closeBracket := by
  cases value <;> exact ⟨_, _, rfl, nofun⟩

theorem readItems?_itemTokens {further : Outline} {items : List Json} (present : items ≠ [])
    (read : ∀ item ∈ items, ReadBy further item) {fuel room : Nat}
    (enough : 2 * (itemTokens items).length ≤ fuel) (fits : nestingOfItems items ≤ room)
    (rest : List Token) :
    readItems? fuel room [] further (itemTokens items ++ .closeBracket :: rest) =
      some (items, rest) := by
  induction items generalizing fuel with
  | nil => exact absurd rfl present
  | cons item others ih =>
      obtain ⟨readFirst, readOthers⟩ := List.forall_mem_cons.mp read
      obtain ⟨first, more, written, _⟩ := item.exists_token
      have size : 1 ≤ item.tokens.length := by simp [written]
      rw [nestingOfItems] at fits
      cases others with
      | nil =>
          rw [itemTokens] at enough ⊢
          cases fuel with
          | zero => omega
          | succ fuel =>
              have here := readFirst fuel room (.closeBracket :: rest) (by omega) (by omega)
              simp [readItems?, here]
      | cons next others =>
          have listed : itemTokens (item :: next :: others) =
              item.tokens ++ .comma :: itemTokens (next :: others) := by
            rw [itemTokens]
            simp
          rw [listed, List.length_append, List.length_cons] at enough
          cases fuel with
          | zero => omega
          | succ fuel =>
              have here := readFirst fuel room
                (.comma :: (itemTokens (next :: others) ++ .closeBracket :: rest)) (by omega)
                (by omega)
              have later := @ih (by simp) readOthers fuel (by omega) (by omega)
              rw [listed, List.append_assoc, List.cons_append]
              simp [readItems?, here, later]

theorem readMembers?_memberTokens {outline : Outline} (isRead : outline.isRead = true)
    {members : List (String × Json)} (present : members ≠ [])
    (read : ∀ member ∈ members, (outline.member member.1).isRead = true ∧
      ReadBy (outline.member member.1) member.2)
    {fuel room : Nat} (enough : 2 * (memberTokens members).length ≤ fuel)
    (fits : nestingOfMembers members ≤ room) (rest : List Token) :
    readMembers? fuel room outline (memberTokens members ++ .closeBrace :: rest) =
      some (members, rest) := by
  induction members generalizing fuel with
  | nil => exact absurd rfl present
  | cons member others ih =>
      obtain ⟨name, value⟩ := member
      obtain ⟨⟨counts, readFirst⟩, readOthers⟩ := List.forall_mem_cons.mp read
      change ReadBy (outline.member name) value at readFirst
      rw [nestingOfMembers] at fits
      cases others with
      | nil =>
          rw [memberTokens, List.length_cons, List.length_cons] at enough
          rw [memberTokens]
          cases fuel with
          | zero => omega
          | succ fuel =>
              have here := readFirst fuel room (.closeBrace :: rest) (by omega) (by omega)
              simp [readMembers?, isRead, here, withMember, counts]
      | cons next others =>
          have listed : memberTokens ((name, value) :: next :: others) =
              .string (some name) :: .colon ::
                (value.tokens ++ .comma :: memberTokens (next :: others)) := by
            rw [memberTokens]
            simp
          rw [listed, List.length_cons, List.length_cons, List.length_append, List.length_cons]
            at enough
          cases fuel with
          | zero => omega
          | succ fuel =>
              have here := readFirst fuel room
                (.comma :: (memberTokens (next :: others) ++ .closeBrace :: rest)) (by omega)
                (by omega)
              have later := @ih (by simp) readOthers fuel (by omega) (by omega)
              rw [listed, List.cons_append, List.cons_append, List.append_assoc, List.cons_append]
              simp [readMembers?, isRead, here, later, withMember, counts]

theorem openedWithin?_succ {outline : Outline} (isRead : outline.isRead = true) (room : Nat) :
    openedWithin? outline (room + 1) = some room := by
  rw [openedWithin?, if_pos isRead]

theorem readValue?_openBracket {first : Token} (inside : first ≠ .closeBracket) (fuel room : Nat)
    (outline : Outline) (rest : List Token) :
    readValue? (fuel + 1) room outline (.openBracket :: first :: rest) =
      (openedWithin? outline room).bind fun room =>
        (readItems? fuel room outline.leadingItems outline.furtherItems (first :: rest)).map
          fun read => (.array read.1, read.2) := by
  cases first with
  | closeBracket => exact absurd rfl inside
  | _ => simp only [readValue?, Option.map_eq_bind]; rfl

theorem readBy_array {outline : Outline} (isRead : outline.isRead = true)
    (anywhere : outline.leadingItems = []) {items : List Json}
    (read : ∀ item ∈ items, ReadBy outline.furtherItems item) : ReadBy outline (.array items) := by
  intro fuel room rest enough fits
  rw [nesting] at fits
  rw [tokens, List.length_cons, List.length_append, List.length_singleton] at enough
  obtain ⟨room, rfl⟩ := Nat.exists_eq_add_of_le' (Nat.le_trans (Nat.le_add_left 1 _) fits)
  cases fuel with
  | zero => omega
  | succ fuel =>
      -- An empty array is read by a case of its own, so the first token must not close it.
      cases items with
      | nil => simp [tokens, itemTokens, readValue?, openedWithin?_succ isRead]
      | cons item others =>
          have inside := readItems?_itemTokens (List.cons_ne_nil item others) read
            (show 2 * (itemTokens (item :: others)).length ≤ fuel by omega)
            (Nat.le_of_succ_le_succ fits) rest
          have written : ∃ first more, itemTokens (item :: others) = first :: more ∧
              first ≠ .closeBracket := by
            obtain ⟨first, more, written, other⟩ := item.exists_token
            cases others with
            | nil => exact ⟨first, more, written, other⟩
            | cons next others =>
                exact ⟨first, more ++ .comma :: itemTokens (next :: others),
                  by simp [itemTokens, written], other⟩
          obtain ⟨first, more, written, other⟩ := written
          rw [tokens, List.cons_append, List.append_assoc, List.singleton_append]
          rw [written, List.cons_append] at inside ⊢
          simp [readValue?_openBracket other, openedWithin?_succ isRead, anywhere, inside]

theorem readBy_object {outline : Outline} (isRead : outline.isRead = true)
    {members : List (String × Json)}
    (read : ∀ member ∈ members, (outline.member member.1).isRead = true ∧
      ReadBy (outline.member member.1) member.2) : ReadBy outline (.object members) := by
  intro fuel room rest enough fits
  rw [nesting] at fits
  rw [tokens, List.length_cons, List.length_append, List.length_singleton] at enough
  obtain ⟨room, rfl⟩ := Nat.exists_eq_add_of_le' (Nat.le_trans (Nat.le_add_left 1 _) fits)
  cases fuel with
  | zero => omega
  | succ fuel =>
      cases members with
      | nil => simp [tokens, memberTokens, readValue?, openedWithin?_succ isRead]
      | cons member others =>
          have inside := readMembers?_memberTokens isRead (List.cons_ne_nil member others) read
            (show 2 * (memberTokens (member :: others)).length ≤ fuel by omega)
            (Nat.le_of_succ_le_succ fits) rest
          have written : ∃ name more, memberTokens (member :: others) = .string name :: more := by
            obtain ⟨name, value⟩ := member
            cases others <;> exact ⟨_, _, rfl⟩
          obtain ⟨name, more, written⟩ := written
          rw [tokens, List.cons_append, List.append_assoc, List.singleton_append]
          rw [written, List.cons_append] at inside ⊢
          simp [readValue?, openedWithin?_succ isRead, inside]

/-! ## Documents that are read in full -/

/-- Every number of the document is one. -/
def InRange (document : Json) : Prop :=
  ∀ numeral ∈ document.numerals, numeral.number?.isSome = true

@[simp] theorem inRange_null : InRange .null := nofun

@[simp] theorem inRange_bool (value : Bool) : InRange (.bool value) := nofun

@[simp] theorem inRange_string (text : String) : InRange (.string text) := nofun

@[simp] theorem inRange_number (numeral : Numeral) :
    InRange (.number numeral) ↔ numeral.number?.isSome = true := by
  simp [InRange, numerals]

theorem inRange_array {items : List Json} :
    InRange (.array items) ↔ ∀ item ∈ items, item.InRange := by
  unfold InRange
  rw [numerals]
  induction items with
  | nil => simp [numeralsOfItems]
  | cons item rest ih => rw [numeralsOfItems, List.forall_mem_append, ih, List.forall_mem_cons]

theorem inRange_object {members : List (String × Json)} :
    InRange (.object members) ↔ ∀ member ∈ members, member.2.InRange := by
  unfold InRange
  rw [numerals]
  induction members with
  | nil => simp [numeralsOfMembers]
  | cons member rest ih => rw [numeralsOfMembers, List.forall_mem_append, ih, List.forall_mem_cons]

mutual

theorem readBy_everything : ∀ document : Json, document.InRange → ReadBy .everything document
  | .null, _ | .bool _, _ | .string _, _ => by
      intro fuel room rest enough fits
      cases fuel with
      | zero => simp [tokens] at enough
      | succ fuel => simp [tokens, readValue?, ofString?]
  | .number numeral, inRange => by
      intro fuel room rest enough fits
      have known := inRange numeral (by simp [numerals])
      cases fuel with
      | zero => simp [tokens] at enough
      | succ fuel => simp [tokens, readValue?, ofNumeral?, Option.isNone_iff_eq_none,
          Option.isSome_iff_ne_none.mp known]
  | .array items, inRange =>
      readBy_array rfl rfl (readBy_everything_items items (inRange_array.mp inRange))
  | .object members, inRange =>
      readBy_object rfl fun member among =>
        ⟨rfl, readBy_everything_members members (inRange_object.mp inRange) member among⟩

theorem readBy_everything_items : ∀ items : List Json, (∀ item ∈ items, item.InRange) →
    ∀ item ∈ items, ReadBy .everything item
  | [], _ => nofun
  | item :: rest, inRange => by
      obtain ⟨first, others⟩ := List.forall_mem_cons.mp inRange
      exact List.forall_mem_cons.mpr
        ⟨readBy_everything item first, readBy_everything_items rest others⟩

theorem readBy_everything_members : ∀ members : List (String × Json),
    (∀ member ∈ members, member.2.InRange) → ∀ member ∈ members, ReadBy .everything member.2
  | [], _ => nofun
  | (name, value) :: rest, inRange => by
      obtain ⟨first, others⟩ := List.forall_mem_cons.mp inRange
      exact List.forall_mem_cons.mpr
        ⟨readBy_everything value first, readBy_everything_members rest others⟩

end

/-! ## Texts -/

/-- A document is read back from its text, wide as it is laid out. -/
theorem ofText?_wideText {outline : Outline} {document : Json} (read : ReadBy outline document)
    (nests : document.nesting ≤ nestingLimit) :
    ofText? outline document.wideText = some document := by
  have tree := read (2 * document.tokens.length) nestingLimit [] (by omega) nests
  rw [List.append_nil] at tree
  rw [ofText?, wideText, Token.ofText?_wideLayout (apart_tokens document), Option.bind_some,
    ofTokens?, tree]

end Json

end SceneFlow
