import SceneFlow.Proofs.Json.Nesting

/-!
# Documents as they are written

The tokens of a document spell a tree, and a reader's way through the tokens is a walk through that
tree. Unlike in the documents that readers return, a string or a name of the tree may stand for no
text, and numbers may be out of range: whether that matters is for the reader's outline to say.
-/

set_option autoImplicit false

namespace SceneFlow

inductive Written where
  | null
  | bool (value : Bool)
  | number (numeral : Numeral)
  | string (text : Option String)
  | array (items : List Written)
  | object (members : List (Option String × Written))

namespace Written

/-! ## Tokens -/

mutual

def tokens : Written → List Token
  | .null => [.null]
  | .bool value => [.bool value]
  | .number numeral => [.number numeral]
  | .string text => [.string text]
  | .array items => .openBracket :: tokensOfItems items
  | .object members => .openBrace :: tokensOfMembers members

/-- The tokens of the items of an array, up to its closing bracket. -/
def tokensOfItems : List Written → List Token
  | [] => [.closeBracket]
  | [last] => last.tokens ++ [.closeBracket]
  | item :: rest => item.tokens ++ .comma :: tokensOfItems rest

def tokensOfMembers : List (Option String × Written) → List Token
  | [] => [.closeBrace]
  | [(name, value)] => .string name :: .colon :: (value.tokens ++ [.closeBrace])
  | (name, value) :: rest =>
      .string name :: .colon :: (value.tokens ++ .comma :: tokensOfMembers rest)

end

/-! ## Reading -/

mutual

/-- What a reader makes of a value, if it does not refuse it. -/
def read? : (room : Nat) → Outline → Written → Option Json
  | _, _, .null => some .null
  | _, _, .bool value => some (.bool value)
  | _, outline, .number numeral => Json.ofNumeral? outline numeral
  | _, outline, .string text => Json.ofString? outline text
  | room, outline, .array items =>
      (Json.openedWithin? outline room).bind fun room =>
        (readItems? room outline.leadingItems outline.furtherItems items).map .array
  | room, outline, .object members =>
      (Json.openedWithin? outline room).bind fun room =>
        (readMembers? room outline members).map .object

def readItems? : (room : Nat) → List Outline → Outline → List Written → Option (List Json)
  | _, _, _, [] => some []
  | room, leading, further, item :: rest =>
      (item.read? room (leading.headD further)).bind fun item =>
        (readItems? room leading.tail further rest).map (item :: ·)

def readMembers? : (room : Nat) → Outline → List (Option String × Written) →
    Option (List (String × Json))
  | _, _, [] => some []
  | room, outline, (name, value) :: rest =>
      (if outline.isRead then name else some "").bind fun name =>
        (value.read? room (outline.member name)).bind fun value =>
          (readMembers? room outline rest).map (Json.withMember (outline.member name) name value)

end

theorem tokensOfItems_cons_cons (item next : Written) (rest : List Written) :
    tokensOfItems (item :: next :: rest) =
      item.tokens ++ .comma :: tokensOfItems (next :: rest) := by
  rw [tokensOfItems]
  simp

theorem tokensOfMembers_cons_cons (name : Option String) (value : Written)
    (next : Option String × Written) (rest : List (Option String × Written)) :
    tokensOfMembers ((name, value) :: next :: rest) =
      .string name :: .colon :: (value.tokens ++ .comma :: tokensOfMembers (next :: rest)) := by
  rw [tokensOfMembers]
  simp

theorem exists_token (value : Written) :
    ∃ first rest, value.tokens = first :: rest ∧ first ≠ .closeBracket := by
  cases value <;> exact ⟨_, _, rfl, nofun⟩

theorem exists_token_of_items (item : Written) (rest : List Written) :
    ∃ first later, tokensOfItems (item :: rest) = first :: later ∧ first ≠ .closeBracket := by
  obtain ⟨first, later, written, other⟩ := item.exists_token
  cases rest with
  | nil => exact ⟨first, _, by rw [tokensOfItems, written, List.cons_append], other⟩
  | cons next rest =>
      exact ⟨first, later ++ .comma :: tokensOfItems (next :: rest),
        by rw [tokensOfItems_cons_cons, written, List.cons_append], other⟩

mutual

/-- A reader of tokens walks through the tree that they spell. -/
theorem readValue?_tokens : ∀ (value : Written) (fuel room : Nat) (outline : Outline)
    (rest : List Token), 2 * value.tokens.length ≤ fuel + 1 →
      Json.readValue? fuel room outline (value.tokens ++ rest) =
        (value.read? room outline).map (·, rest)
  | .null, fuel, room, outline, rest, enough
  | .bool _, fuel, room, outline, rest, enough
  | .number _, fuel, room, outline, rest, enough
  | .string _, fuel, room, outline, rest, enough => by
      cases fuel with
      | zero => simp [tokens] at enough
      | succ fuel => simp [tokens, Json.readValue?, read?]
  | .array items, fuel, room, outline, rest, enough => by
      rw [tokens, List.length_cons] at enough
      cases fuel with
      | zero => omega
      | succ fuel =>
          have inside := fun present room => readItems?_tokens items present fuel room
            outline.leadingItems outline.furtherItems rest (by omega)
          rw [tokens, read?]
          -- An empty array is read by a case of its own.
          cases items with
          | nil =>
              simp only [tokensOfItems, List.cons_append, List.nil_append, Json.readValue?,
                readItems?]
              cases Json.openedWithin? outline room <;> rfl
          | cons item items =>
              obtain ⟨first, later, written, other⟩ := exists_token_of_items item items
              rw [written, List.cons_append] at inside
              rw [written, List.cons_append, List.cons_append, Json.readValue?_openBracket other]
              cases Json.openedWithin? outline room with
              | none => rfl
              | some room =>
                  simp only [Option.bind_some, inside (List.cons_ne_nil _ _), Option.map_map]
                  rfl
  | .object members, fuel, room, outline, rest, enough => by
      rw [tokens, List.length_cons] at enough
      cases fuel with
      | zero => omega
      | succ fuel =>
          have inside := fun present room => readMembers?_tokens members present fuel room outline
            rest (by omega)
          rw [tokens, read?]
          cases members with
          | nil =>
              simp only [tokensOfMembers, List.cons_append, List.nil_append, Json.readValue?,
                readMembers?]
              cases Json.openedWithin? outline room <;> rfl
          | cons member members =>
              obtain ⟨name, value⟩ := member
              obtain ⟨later, written⟩ : ∃ later,
                  tokensOfMembers ((name, value) :: members) = .string name :: .colon :: later := by
                cases members <;> exact ⟨_, rfl⟩
              rw [written] at inside
              rw [written]
              simp only [List.cons_append, Json.readValue?] at inside ⊢
              cases Json.openedWithin? outline room with
              | none => rfl
              | some room =>
                  simp only [Option.bind_eq_bind, Option.bind_some, inside (List.cons_ne_nil _ _)]
                  cases readMembers? room outline ((name, value) :: members) <;> rfl

theorem readItems?_tokens : ∀ (items : List Written) (_ : items ≠ []) (fuel room : Nat)
    (leading : List Outline) (further : Outline) (rest : List Token),
      2 * (tokensOfItems items).length ≤ fuel →
        Json.readItems? fuel room leading further (tokensOfItems items ++ rest) =
          (readItems? room leading further items).map (·, rest)
  | [], present, _, _, _, _, _, _ => absurd rfl present
  | [item], _, fuel, room, leading, further, rest, enough => by
      rw [tokensOfItems, List.length_append, List.length_singleton] at enough
      cases fuel with
      | zero => omega
      | succ fuel =>
          have here := readValue?_tokens item fuel room (leading.headD further)
            (.closeBracket :: rest) (by omega)
          rw [tokensOfItems, List.append_assoc, List.singleton_append, Json.readItems?, here,
            readItems?]
          cases item.read? room (leading.headD further) <;> rfl
  | item :: next :: items, _, fuel, room, leading, further, rest, enough => by
      rw [tokensOfItems_cons_cons, List.length_append, List.length_cons] at enough
      cases fuel with
      | zero => omega
      | succ fuel =>
          have here := readValue?_tokens item fuel room (leading.headD further)
            (.comma :: (tokensOfItems (next :: items) ++ rest)) (by omega)
          have later := readItems?_tokens (next :: items) (List.cons_ne_nil _ _) fuel room
            leading.tail further rest (by omega)
          rw [tokensOfItems_cons_cons, List.append_assoc, List.cons_append, Json.readItems?, here,
            readItems?]
          cases item.read? room (leading.headD further) with
          | none => rfl
          | some item =>
              simp only [Option.map_some, Option.bind_eq_bind, Option.bind_some, later]
              cases readItems? room leading.tail further (next :: items) <;> rfl

theorem readMembers?_tokens : ∀ (members : List (Option String × Written)) (_ : members ≠ [])
    (fuel room : Nat) (outline : Outline) (rest : List Token),
      2 * (tokensOfMembers members).length ≤ fuel →
        Json.readMembers? fuel room outline (tokensOfMembers members ++ rest) =
          (readMembers? room outline members).map (·, rest)
  | [], present, _, _, _, _, _ => absurd rfl present
  | [(name, value)], _, fuel, room, outline, rest, enough => by
      rw [tokensOfMembers, List.length_cons, List.length_cons, List.length_append,
        List.length_singleton] at enough
      cases fuel with
      | zero => omega
      | succ fuel =>
          have here := fun name : String => readValue?_tokens value fuel room (outline.member name)
            (.closeBrace :: rest) (by omega)
          rw [tokensOfMembers, List.cons_append, List.cons_append, List.append_assoc,
            List.singleton_append, Json.readMembers?_succ, readMembers?]
          cases (if outline.isRead then name else some "") with
          | none => rfl
          | some name =>
              simp only [Option.bind_some, here]
              cases value.read? room (outline.member name) <;> rfl
  | (name, value) :: next :: members, _, fuel, room, outline, rest, enough => by
      rw [tokensOfMembers_cons_cons, List.length_cons, List.length_cons, List.length_append,
        List.length_cons] at enough
      cases fuel with
      | zero => omega
      | succ fuel =>
          have here := fun name : String => readValue?_tokens value fuel room (outline.member name)
            (.comma :: (tokensOfMembers (next :: members) ++ rest)) (by omega)
          have later := readMembers?_tokens (next :: members) (List.cons_ne_nil _ _) fuel room
            outline rest (by omega)
          rw [tokensOfMembers_cons_cons, List.cons_append, List.cons_append, List.append_assoc,
            List.cons_append, Json.readMembers?_succ, readMembers?]
          cases (if outline.isRead then name else some "") with
          | none => rfl
          | some name =>
              simp only [Option.bind_some, here]
              cases value.read? room (outline.member name) with
              | none => rfl
              | some value =>
                  simp only [Option.map_some, Option.bind_some, later]
                  cases readMembers? room outline (next :: members) <;> rfl

end

/-- A text is read by a walk through the tree that its tokens spell. -/
theorem ofText?_eq {text : String} {written : Written}
    (spelled : Token.ofText? text = some written.tokens) (outline : Outline) :
    Json.ofText? outline text = written.read? Json.nestingLimit outline := by
  have walk := readValue?_tokens written (2 * written.tokens.length) Json.nestingLimit outline []
    (by omega)
  rw [List.append_nil] at walk
  rw [Json.ofText?, spelled, Option.bind_some, Json.ofTokens?, walk]
  cases written.read? Json.nestingLimit outline <;> rfl

/-! ## Documents, written -/

mutual

def ofJson : Json → Written
  | .null => .null
  | .bool value => .bool value
  | .number numeral => .number numeral
  | .string text => .string (some text)
  | .array items => .array (ofItems items)
  | .object members => .object (ofMembers members)

def ofItems : List Json → List Written
  | [] => []
  | item :: rest => ofJson item :: ofItems rest

def ofMembers : List (String × Json) → List (Option String × Written)
  | [] => []
  | (name, value) :: rest => (some name, ofJson value) :: ofMembers rest

end

mutual

theorem tokens_ofJson : ∀ document : Json, (ofJson document).tokens = document.tokens
  | .null | .bool _ | .number _ | .string _ => rfl
  | .array items => by rw [ofJson, tokens, tokensOfItems_ofItems items, Json.tokens]
  | .object members => by rw [ofJson, tokens, tokensOfMembers_ofMembers members, Json.tokens]

theorem tokensOfItems_ofItems : ∀ items : List Json,
    tokensOfItems (ofItems items) = Json.itemTokens items ++ [.closeBracket]
  | [] => rfl
  | [last] => by
      rw [ofItems, ofItems, tokensOfItems, tokens_ofJson last, Json.itemTokens]
  | item :: next :: rest => by
      have later := tokensOfItems_ofItems (next :: rest)
      have listed : Json.itemTokens (item :: next :: rest) =
          item.tokens ++ .comma :: Json.itemTokens (next :: rest) := by
        rw [Json.itemTokens]
        simp
      rw [ofItems] at later
      rw [ofItems, ofItems, tokensOfItems_cons_cons, tokens_ofJson item, later, listed]
      simp

theorem tokensOfMembers_ofMembers : ∀ members : List (String × Json),
    tokensOfMembers (ofMembers members) = Json.memberTokens members ++ [.closeBrace]
  | [] => rfl
  | [(name, value)] => by
      rw [ofMembers, ofMembers, tokensOfMembers, tokens_ofJson value, Json.memberTokens]
      rfl
  | (name, value) :: next :: rest => by
      have later := tokensOfMembers_ofMembers (next :: rest)
      have listed : Json.memberTokens ((name, value) :: next :: rest) =
          .string (some name) :: .colon ::
            (value.tokens ++ .comma :: Json.memberTokens (next :: rest)) := by
        rw [Json.memberTokens]
        simp
      rw [ofMembers] at later
      rw [ofMembers, ofMembers, tokensOfMembers_cons_cons, tokens_ofJson value, later, listed]
      simp

end

theorem ofText?_wideText (document : Json) :
    Token.ofText? document.wideText = some (ofJson document).tokens := by
  rw [Json.wideText, Token.ofText?_wideLayout (Json.apart_tokens document), tokens_ofJson]

mutual

/-- A document is read in full if its numbers are in range and there is room for it. -/
theorem read?_ofJson : ∀ (document : Json) {room : Nat}, document.InRange →
    document.nesting ≤ room → (ofJson document).read? room .everything = some document
  | .null, _, _, _ | .bool _, _, _, _ | .string _, _, _, _ => rfl
  | .number numeral, _, inRange, _ => by
      have known := (Json.inRange_number numeral).mp inRange
      simp [ofJson, read?, Json.ofNumeral?, Option.isNone_iff_eq_none,
        Option.isSome_iff_ne_none.mp known]
  | .array items, room, inRange, fits => by
      rw [Json.nesting] at fits
      obtain ⟨room, rfl⟩ := Nat.exists_eq_add_of_le' (Nat.le_trans (Nat.le_add_left 1 _) fits)
      rw [ofJson, read?, Json.openedWithin?_succ rfl, Option.bind_some]
      exact congrArg (Option.map Json.array) (readItems?_ofItems items
        (Json.inRange_array.mp inRange) (Nat.le_of_succ_le_succ fits))
  | .object members, room, inRange, fits => by
      rw [Json.nesting] at fits
      obtain ⟨room, rfl⟩ := Nat.exists_eq_add_of_le' (Nat.le_trans (Nat.le_add_left 1 _) fits)
      rw [ofJson, read?, Json.openedWithin?_succ rfl, Option.bind_some]
      exact congrArg (Option.map Json.object) (readMembers?_ofMembers members
        (Json.inRange_object.mp inRange) (Nat.le_of_succ_le_succ fits))

theorem readItems?_ofItems : ∀ (items : List Json) {room : Nat}, (∀ item ∈ items, item.InRange) →
    Json.nestingOfItems items ≤ room →
      readItems? room [] .everything (ofItems items) = some items
  | [], _, _, _ => rfl
  | item :: rest, room, inRange, fits => by
      obtain ⟨first, others⟩ := List.forall_mem_cons.mp inRange
      rw [Json.nestingOfItems] at fits
      have here : (ofJson item).read? room .everything = some item :=
        read?_ofJson item first (by omega)
      have later : readItems? room [] .everything (ofItems rest) = some rest :=
        readItems?_ofItems rest others (by omega)
      rw [ofItems, readItems?, List.headD_nil, here, Option.bind_some, List.tail_nil, later]
      rfl

theorem readMembers?_ofMembers : ∀ (members : List (String × Json)) {room : Nat},
    (∀ member ∈ members, member.2.InRange) → Json.nestingOfMembers members ≤ room →
      readMembers? room .everything (ofMembers members) = some members
  | [], _, _, _ => rfl
  | (name, value) :: rest, room, inRange, fits => by
      obtain ⟨first, others⟩ := List.forall_mem_cons.mp inRange
      rw [Json.nestingOfMembers] at fits
      have here : (ofJson value).read? room .everything = some value :=
        read?_ofJson value first (by omega)
      have later : readMembers? room .everything (ofMembers rest) = some rest :=
        readMembers?_ofMembers rest others (by omega)
      have isRead : Outline.everything.isRead = true := rfl
      rw [ofMembers, readMembers?, if_pos isRead, Option.bind_some, Outline.member, here,
        Option.bind_some, later]
      rfl

end

mutual

/-- Nothing that is passed over is refused. -/
theorem exists_read?_nothing : ∀ (value : Written) (room : Nat),
    ∃ trace, value.read? room .nothing = some trace
  | .null, _ | .bool _, _ | .number _, _ | .string none, _ | .string (some _), _ => ⟨_, rfl⟩
  | .array items, room => by
      obtain ⟨traces, read⟩ := exists_readItems?_nothing items room
      exact ⟨.array traces, congrArg (Option.map Json.array) read⟩
  | .object members, room => by
      obtain ⟨traces, read⟩ := exists_readMembers?_nothing members room
      exact ⟨.object traces, congrArg (Option.map Json.object) read⟩

theorem exists_readItems?_nothing : ∀ (items : List Written) (room : Nat),
    ∃ traces, readItems? room [] .nothing items = some traces
  | [], _ => ⟨[], rfl⟩
  | item :: rest, room => by
      obtain ⟨trace, here⟩ := exists_read?_nothing item room
      obtain ⟨traces, later⟩ := exists_readItems?_nothing rest room
      rw [readItems?, List.headD_nil, here, Option.bind_some, List.tail_nil, later]
      exact ⟨_, rfl⟩

theorem exists_readMembers?_nothing : ∀ (members : List (Option String × Written)) (room : Nat),
    ∃ traces, readMembers? room .nothing members = some traces
  | [], _ => ⟨[], rfl⟩
  | (name, value) :: rest, room => by
      obtain ⟨trace, here⟩ := exists_read?_nothing value room
      obtain ⟨traces, later⟩ := exists_readMembers?_nothing rest room
      have passed : ¬ Outline.nothing.isRead = true := Bool.false_ne_true
      rw [readMembers?, if_neg passed, Option.bind_some, Outline.member, here, Option.bind_some,
        later]
      exact ⟨_, rfl⟩

end

/-! ## Members and items -/

section

variable {room : Nat} {outline : Outline} {members others : List (Option String × Written)}
  {read : List (String × Json)}

theorem readMembers?_cons (isRead : outline.isRead = true) (name : String) (value : Written)
    (rest : List (Option String × Written)) :
    readMembers? room outline ((some name, value) :: rest) =
      (value.read? room (outline.member name)).bind fun value =>
        (readMembers? room outline rest).map
          (Json.withMember (outline.member name) name value) := by
  rw [readMembers?, if_pos isRead]
  rfl

theorem exists_of_readMembers?_cons {name : Option String} {value : Written}
    (result : readMembers? room outline ((name, value) :: members) = some read) :
    ∃ text inside rest, (if outline.isRead then name else some "") = some text ∧
      value.read? room (outline.member text) = some inside ∧
      readMembers? room outline members = some rest ∧
      read = Json.withMember (outline.member text) text inside rest := by
  rw [readMembers?] at result
  obtain ⟨text, known, result⟩ := Option.bind_eq_some_iff.mp result
  obtain ⟨inside, readValue, result⟩ := Option.bind_eq_some_iff.mp result
  obtain ⟨rest, readRest, rfl⟩ := Option.map_eq_some_iff.mp result
  exact ⟨text, inside, rest, known, readValue, readRest, rfl⟩

theorem withMember_perm (name : String) (value : Json) {first second : List (String × Json)}
    (same : first.Perm second) :
    (Json.withMember outline name value first).Perm
      (Json.withMember outline name value second) := by
  unfold Json.withMember
  split
  · exact same.cons _
  · exact same

/-- The order of the members decides about nothing but the order in which they are read. -/
theorem exists_perm_of_readMembers? (same : members.Perm others)
    (result : readMembers? room outline members = some read) :
    ∃ readOthers, readMembers? room outline others = some readOthers ∧ read.Perm readOthers := by
  induction same generalizing read with
  | nil => exact ⟨read, result, .refl read⟩
  | @cons member _ _ _ ih =>
      obtain ⟨text, inside, rest, known, readValue, readRest, rfl⟩ :=
        exists_of_readMembers?_cons result
      obtain ⟨others, readOthers, same⟩ := ih readRest
      refine ⟨Json.withMember (outline.member text) text inside others, ?_,
        withMember_perm _ _ same⟩
      rw [readMembers?, known, Option.bind_some, readValue, Option.bind_some, readOthers,
        Option.map_some]
  | swap first second rest =>
      obtain ⟨text, inside, _, known, readValue, readRest, rfl⟩ :=
        exists_of_readMembers?_cons result
      obtain ⟨text', inside', rest, known', readValue', readLast, rfl⟩ :=
        exists_of_readMembers?_cons readRest
      refine ⟨Json.withMember (outline.member text') text' inside'
        (Json.withMember (outline.member text) text inside rest), ?_, ?_⟩
      · simp only [readMembers?, known, known', readValue, readValue', readLast, Option.bind_some,
          Option.map_some]
      · unfold Json.withMember
        split <;> split
        · exact .swap _ _ rest
        · exact .refl _
        · exact .refl _
        · exact .refl _
  | trans _ _ ih ih' =>
      obtain ⟨middle, readMiddle, same⟩ := ih result
      obtain ⟨others, readOthers, same'⟩ := ih' readMiddle
      exact ⟨others, readOthers, same.trans same'⟩

/-- The names that are read are names that were written, in the same order. -/
theorem names_sublist_of_readMembers? (isRead : outline.isRead = true)
    (result : readMembers? room outline members = some read) :
    (read.map fun member => some member.1).Sublist (members.map Prod.fst) := by
  induction members generalizing read with
  | nil =>
      cases result
      exact .slnil
  | cons member members ih =>
      obtain ⟨text, inside, rest, known, _, readRest, rfl⟩ := exists_of_readMembers?_cons result
      rw [if_pos isRead] at known
      unfold Json.withMember
      split
      · rw [List.map_cons, List.map_cons, known]
        exact (ih readRest).cons_cons _
      · exact (ih readRest).cons _

theorem lookup_of_readMembers? (result : readMembers? room .everything members = some read)
    (name : String) :
    read.lookup name = (members.lookup (some name)).bind (·.read? room .everything) := by
  induction members generalizing read with
  | nil =>
      cases result
      rfl
  | cons member members ih =>
      obtain ⟨key, value⟩ := member
      obtain ⟨text, inside, rest, known, readValue, readRest, rfl⟩ :=
        exists_of_readMembers?_cons result
      have sameKey : key = some text := known
      subst sameKey
      change ((text, inside) :: rest).lookup name = _
      rw [List.lookup_cons, List.lookup_cons, ih readRest]
      by_cases here : name = text
      · subst here
        simpa [Outline.member] using readValue.symm
      · rw [beq_false_of_ne here, beq_false_of_ne (fun same => here (Option.some.inj same))]

theorem readItems?_bind_mapM {α : Type} (convert : Json → Option α) (item : Written)
    (rest : List Written) :
    (readItems? room [] outline (item :: rest)).bind (·.mapM convert) =
      ((item.read? room outline).bind convert).bind fun value =>
        ((readItems? room [] outline rest).bind (·.mapM convert)).map (value :: ·) := by
  rw [readItems?, List.headD_nil, List.tail_nil]
  cases item.read? room outline with
  | none => rfl
  | some item =>
      simp only [Option.bind_some]
      cases readItems? room [] outline rest with
      | none => cases convert item <;> rfl
      | some items =>
          simp only [Option.map_some, Option.bind_some, List.mapM_cons]
          cases convert item with
          | none => rfl
          | some value => cases items.mapM convert <;> rfl

/-- One item of a list may stand for another if the same is made of both. -/
theorem bind_readItems?_congr {α : Type} {convert : Json → Option α} {item other : Written}
    (same : (item.read? room outline).bind convert = (other.read? room outline).bind convert)
    (before after : List Written) :
    (readItems? room [] outline (before ++ item :: after)).bind (·.mapM convert) =
      (readItems? room [] outline (before ++ other :: after)).bind (·.mapM convert) := by
  induction before with
  | nil =>
      rw [List.nil_append, List.nil_append, readItems?_bind_mapM, readItems?_bind_mapM, same]
  | cons first before ih =>
      rw [List.cons_append, List.cons_append, readItems?_bind_mapM, readItems?_bind_mapM, ih]

theorem bind_readItems?_tail_congr {β : Type} {convert : List Json → Option β}
    {leading : List Outline} {items others : List Written} (first : Written)
    (same : ∀ first, (readItems? room leading.tail outline items).bind (convert ∘ List.cons first) =
      (readItems? room leading.tail outline others).bind (convert ∘ List.cons first)) :
    (readItems? room leading outline (first :: items)).bind convert =
      (readItems? room leading outline (first :: others)).bind convert := by
  rw [readItems?, readItems?, Option.bind_assoc, Option.bind_assoc]
  refine Option.bind_congr fun first _ => ?_
  rw [Option.bind_map, Option.bind_map]
  exact same first

theorem bind_readItems?_head_congr {α β : Type} {convert : List Json → Option β}
    {inner : Json → Option α} {leading : List Outline} {value other : Written}
    (form : ∀ rest, ∃ finish : α → Option β, ∀ value,
      convert (value :: rest) = (inner value).bind finish)
    (same : (value.read? room (leading.headD outline)).bind inner =
      (other.read? room (leading.headD outline)).bind inner) (items : List Written) :
    (readItems? room leading outline (value :: items)).bind convert =
      (readItems? room leading outline (other :: items)).bind convert := by
  rw [readItems?, readItems?]
  cases readItems? room leading.tail outline items with
  | none => simp only [Option.map_none, Option.bind_fun_none, Option.bind_none]
  | some rest =>
      obtain ⟨finish, form⟩ := form rest
      simp only [Option.map_some, Option.bind_assoc, Option.bind_some, form]
      rw [← Option.bind_assoc, same, Option.bind_assoc]

/-- One member may stand for another of its name if the same is made of both, and if nothing else
is made of what was made of them. -/
theorem bind_readMembers?_congr {α β : Type} {convert : List (String × Json) → Option β}
    {inner : Json → Option α} {name : String} {value other : Written}
    (isRead : outline.isRead = true) (isReadInside : (outline.member name).isRead = true)
    (form : ∀ read, readMembers? room outline members = some read →
      ∃ finish : α → Option β, ∀ value, convert ((name, value) :: read) = (inner value).bind finish)
    (same : (value.read? room (outline.member name)).bind inner =
      (other.read? room (outline.member name)).bind inner) :
    (readMembers? room outline ((some name, value) :: members)).bind convert =
      (readMembers? room outline ((some name, other) :: members)).bind convert := by
  rw [readMembers?_cons isRead, readMembers?_cons isRead]
  cases rest : readMembers? room outline members with
  | none => simp only [Option.map_none, Option.bind_fun_none, Option.bind_none]
  | some read =>
      obtain ⟨finish, form⟩ := form read rest
      simp only [Option.map_some, Json.withMember, if_pos isReadInside, Option.bind_assoc,
        Option.bind_some, form]
      rw [← Option.bind_assoc, same, Option.bind_assoc]

theorem bind_read?_object_congr {α : Type} {convert : Json → Option α}
    (isRead : outline.isRead = true)
    (same : ∀ inside, room = inside + 1 →
      (readMembers? inside outline members).bind (convert ∘ .object) =
        (readMembers? inside outline others).bind (convert ∘ .object)) :
    ((object members).read? room outline).bind convert =
      ((object others).read? room outline).bind convert := by
  rw [Written.read?, Written.read?]
  cases room with
  | zero => simp [Json.openedWithin?, isRead]
  | succ room =>
      rw [Json.openedWithin?_succ isRead, Option.bind_some, Option.bind_some, Option.bind_map,
        Option.bind_map, same room rfl]

theorem bind_read?_array_congr {α : Type} {convert : Json → Option α} {items further : List Written}
    (isRead : outline.isRead = true)
    (same : ∀ inside, room = inside + 1 →
      (readItems? inside outline.leadingItems outline.furtherItems items).bind (convert ∘ .array) =
        (readItems? inside outline.leadingItems outline.furtherItems further).bind
          (convert ∘ .array)) :
    ((array items).read? room outline).bind convert =
      ((array further).read? room outline).bind convert := by
  rw [Written.read?, Written.read?]
  cases room with
  | zero => simp [Json.openedWithin?, isRead]
  | succ room =>
      rw [Json.openedWithin?_succ isRead, Option.bind_some, Option.bind_some, Option.bind_map,
        Option.bind_map, same room rfl]

end

end Written

end SceneFlow
