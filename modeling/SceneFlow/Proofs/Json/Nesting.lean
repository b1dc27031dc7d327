import SceneFlow.Proofs.Json.Document

/-!
# How deep documents nest

What is passed over in a text may nest as deep as it likes, but it leaves no trace in the document.
So a document nests no deeper than its reader follows, if its outline passes over members of objects
alone. And a document that nests deeper is not read back from its own text.
-/

set_option autoImplicit false

namespace SceneFlow

theorem mem_of_lookup {α : Type} {name : String} {value : α} {entries : List (String × α)}
    (found : entries.lookup name = some value) : (name, value) ∈ entries := by
  obtain ⟨before, later, rfl, _⟩ := List.lookup_eq_some_iff.mp found
  exact List.mem_append_right _ List.mem_cons_self

/-- Only members of objects are passed over. -/
inductive Outline.Thorough : Outline → Prop where
  | everything : Thorough .everything
  | fields {known : List (String × Outline)} (inside : ∀ field ∈ known, field.2.Thorough) :
      Thorough (.fields known)
  | items {each : Outline} (inside : each.Thorough) : Thorough (.items each)

namespace Outline.Thorough

variable {outline : Outline}

theorem isRead (thorough : outline.Thorough) : outline.isRead = true := by
  cases thorough <;> rfl

theorem member (thorough : outline.Thorough) {name : String}
    (isRead : (outline.member name).isRead = true) : (outline.member name).Thorough := by
  cases thorough with
  | everything => exact .everything
  | items => exact .everything
  | @fields known inside =>
      change ((known.lookup name).getD .nothing).isRead = true at isRead
      change ((known.lookup name).getD .nothing).Thorough
      cases found : known.lookup name with
      | none =>
          rw [found] at isRead
          cases isRead
      | some field => exact inside (name, field) (mem_of_lookup found)

theorem leadingItems (thorough : outline.Thorough) :
    ∀ leading ∈ outline.leadingItems, leading.Thorough := by
  cases thorough with
  | everything | items => exact fun _ member => (nomatch member)
  | fields inside =>
      intro leading member
      obtain ⟨field, among, rfl⟩ := List.mem_map.mp member
      exact inside field among

theorem furtherItems (thorough : outline.Thorough) : outline.furtherItems.Thorough := by
  cases thorough with
  | everything | fields => exact .everything
  | items inside => exact inside

end Outline.Thorough

namespace Json

/-! ## Bounds on what a document holds -/

theorem nestingOfItems_le_iff {items : List Json} {bound : Nat} :
    nestingOfItems items ≤ bound ↔ ∀ item ∈ items, item.nesting ≤ bound := by
  induction items with
  | nil => simp [nestingOfItems]
  | cons item rest ih => rw [nestingOfItems, Nat.max_le, ih, List.forall_mem_cons]

theorem nestingOfMembers_le_iff {members : List (String × Json)} {bound : Nat} :
    nestingOfMembers members ≤ bound ↔ ∀ member ∈ members, member.2.nesting ≤ bound := by
  induction members with
  | nil => simp [nestingOfMembers]
  | cons member rest ih => rw [nestingOfMembers, Nat.max_le, ih, List.forall_mem_cons]

theorem nesting_le_of_mem {items : List Json} {item : Json} (member : item ∈ items) :
    item.nesting ≤ nestingOfItems items :=
  nestingOfItems_le_iff.mp (Nat.le_refl _) item member

theorem nesting_le_of_mem_members {members : List (String × Json)} {member : String × Json}
    (among : member ∈ members) : member.2.nesting ≤ nestingOfMembers members :=
  nestingOfMembers_le_iff.mp (Nat.le_refl _) member among

/-! ## What a reader opens -/

theorem room_of_openedWithin? {outline : Outline} (isRead : outline.isRead = true)
    {room inside : Nat} (opened : openedWithin? outline room = some inside) : inside < room := by
  unfold openedWithin? at opened
  rw [if_pos isRead] at opened
  cases room with
  | zero => cases opened
  | succ room =>
      cases opened
      exact Nat.lt_succ_self _

/-- Members begin with a name and a colon. -/
theorem named_of_readMembers? {fuel room : Nat} {outline : Outline} {tokens : List Token}
    {result : List (String × Json) × List Token}
    (read : readMembers? fuel room outline tokens = some result) :
    ∃ text later, tokens = .string text :: .colon :: later := by
  unfold readMembers? at read
  split at read
  · cases read
  · exact ⟨_, _, rfl⟩
  · cases read

theorem readMembers?_succ (fuel room : Nat) (outline : Outline) (text : Option String)
    (tokens : List Token) :
    readMembers? (fuel + 1) room outline (.string text :: .colon :: tokens) =
      (if outline.isRead then text else some "").bind fun name =>
        (readValue? fuel room (outline.member name) tokens).bind fun (value, rest) =>
          match rest with
          | .comma :: rest =>
              (readMembers? fuel room outline rest).bind fun (members, rest) =>
                some (withMember (outline.member name) name value members, rest)
          | .closeBrace :: rest => some (withMember (outline.member name) name value [], rest)
          | _ => none := by
  rw [readMembers?]
  split <;> rfl

theorem nesting_ofNumeral? {outline : Outline} {numeral : Numeral} {value : Json}
    (read : ofNumeral? outline numeral = some value) : value.nesting = 0 := by
  unfold ofNumeral? at read
  split at read
  · cases read
  · cases read
    rw [nesting]

theorem nesting_ofString? {outline : Outline} {text : Option String} {value : Json}
    (read : ofString? outline text = some value) : value.nesting = 0 := by
  unfold ofString? at read
  split at read
  · cases read
    rw [nesting]
  · split at read
    · cases read
    · cases read
      rw [nesting]

theorem mem_withMember {outline : Outline} {name : String} {value : Json}
    {members : List (String × Json)} {member : String × Json}
    (among : member ∈ withMember outline name value members) :
    (outline.isRead = true ∧ member = (name, value)) ∨ member ∈ members := by
  unfold withMember at among
  split at among
  next isRead => exact (List.mem_cons.mp among).imp_left fun same => ⟨isRead, same⟩
  next => exact .inr among

mutual

/-- A value that is read opens no more than there is room for. -/
theorem nesting_of_readValue? : ∀ (fuel room : Nat) {outline : Outline} {tokens rest : List Token}
    {value : Json}, outline.Thorough →
      readValue? fuel room outline tokens = some (value, rest) → value.nesting ≤ room
  | 0, _, _, _, _, _, _, read => by
      rw [readValue?] at read
      cases read
  | fuel + 1, room, outline, tokens, rest, value, thorough, read => by
      have isRead := thorough.isRead
      unfold readValue? at read
      split at read
      · cases read
        exact Nat.zero_le _
      · cases read
        exact Nat.zero_le _
      · obtain ⟨given, known, same⟩ := Option.map_eq_some_iff.mp read
        cases same
        exact nesting_ofNumeral? known ▸ Nat.zero_le room
      · obtain ⟨given, known, same⟩ := Option.map_eq_some_iff.mp read
        cases same
        exact nesting_ofString? known ▸ Nat.zero_le room
      · obtain ⟨inside, opened, same⟩ := Option.map_eq_some_iff.mp read
        cases same
        have fits := room_of_openedWithin? isRead opened
        rw [nesting, nestingOfItems]
        omega
      · obtain ⟨inside, opened, read⟩ := Option.bind_eq_some_iff.mp read
        obtain ⟨⟨items, later⟩, readItems, same⟩ := Option.bind_eq_some_iff.mp read
        cases same
        have fits := room_of_openedWithin? isRead opened
        have bound := nesting_of_readItems? fuel inside thorough.leadingItems
          thorough.furtherItems readItems
        rw [nesting]
        omega
      · obtain ⟨inside, opened, same⟩ := Option.map_eq_some_iff.mp read
        cases same
        have fits := room_of_openedWithin? isRead opened
        rw [nesting, nestingOfMembers]
        omega
      · obtain ⟨inside, opened, read⟩ := Option.bind_eq_some_iff.mp read
        obtain ⟨⟨members, later⟩, readMembers, same⟩ := Option.bind_eq_some_iff.mp read
        cases same
        have fits := room_of_openedWithin? isRead opened
        have bound := nesting_of_readMembers? fuel inside thorough readMembers
        rw [nesting]
        omega
      · cases read

theorem nesting_of_readItems? : ∀ (fuel room : Nat) {leading : List Outline} {further : Outline}
    {tokens rest : List Token} {items : List Json}, (∀ outline ∈ leading, outline.Thorough) →
      further.Thorough → readItems? fuel room leading further tokens = some (items, rest) →
        nestingOfItems items ≤ room
  | 0, _, _, _, _, _, _, _, _, read => by
      rw [readItems?] at read
      cases read
  | fuel + 1, room, leading, further, tokens, rest, items, inLeading, inFurther, read => by
      have first : (leading.headD further).Thorough := by
        cases leading with
        | nil => exact inFurther
        | cons outline _ => exact inLeading outline List.mem_cons_self
      unfold readItems? at read
      obtain ⟨⟨item, later⟩, readItem, read⟩ := Option.bind_eq_some_iff.mp read
      have bound := nesting_of_readValue? fuel room first readItem
      dsimp only at read
      split at read
      · obtain ⟨⟨others, last⟩, readOthers, same⟩ := Option.bind_eq_some_iff.mp read
        cases same
        have boundOthers := nesting_of_readItems? fuel room
          (fun outline member => inLeading outline (List.mem_of_mem_tail member)) inFurther
          readOthers
        rw [nestingOfItems]
        exact Nat.max_le.mpr ⟨bound, boundOthers⟩
      · cases read
        rw [nestingOfItems, nestingOfItems]
        exact Nat.max_le.mpr ⟨bound, Nat.zero_le _⟩
      · cases read

theorem nesting_of_readMembers? : ∀ (fuel room : Nat) {outline : Outline}
    {tokens rest : List Token} {members : List (String × Json)}, outline.Thorough →
      readMembers? fuel room outline tokens = some (members, rest) →
        nestingOfMembers members ≤ room
  | 0, _, _, _, _, _, _, read => by
      rw [readMembers?] at read
      cases read
  | fuel + 1, room, outline, tokens, rest, members, thorough, read => by
      obtain ⟨text, later, rfl⟩ := named_of_readMembers? read
      rw [readMembers?_succ, if_pos thorough.isRead] at read
      obtain ⟨name, _, read⟩ := Option.bind_eq_some_iff.mp read
      obtain ⟨⟨value, later⟩, readMember, read⟩ := Option.bind_eq_some_iff.mp read
      -- A member that is passed over leaves no trace.
      have bound : (outline.member name).isRead = true → value.nesting ≤ room := fun isRead =>
        nesting_of_readValue? fuel room (thorough.member isRead) readMember
      dsimp only at read
      rw [nestingOfMembers_le_iff]
      intro member among
      split at read
      · obtain ⟨⟨others, last⟩, readOthers, same⟩ := Option.bind_eq_some_iff.mp read
        cases same
        have boundOthers := nesting_of_readMembers? fuel room thorough readOthers
        rcases mem_withMember among with ⟨isRead, rfl⟩ | behind
        · exact bound isRead
        · exact Nat.le_trans (nesting_le_of_mem_members behind) boundOthers
      · cases read
        rcases mem_withMember among with ⟨isRead, rfl⟩ | behind
        · exact bound isRead
        · cases behind
      · cases read

end

/-- What is read from a text nests no deeper than a reader follows. -/
theorem nesting_of_ofText? {outline : Outline} (thorough : outline.Thorough) {text : String}
    {document : Json} (read : ofText? outline text = some document) :
    document.nesting ≤ nestingLimit := by
  obtain ⟨tokens, _, read⟩ := Option.bind_eq_some_iff.mp read
  unfold ofTokens? at read
  split at read
  next whole =>
    cases read
    exact nesting_of_readValue? _ _ thorough whole
  · cases read

/-! ## More room

A reader goes the same way where more may be open at once. -/

theorem openedWithin?_add {outline : Outline} {room inside : Nat}
    (opened : openedWithin? outline room = some inside) (more : Nat) :
    openedWithin? outline (room + more) = some (inside + more) := by
  unfold openedWithin? at opened ⊢
  split at opened
  next isRead =>
    rw [if_pos isRead]
    cases room with
    | zero => cases opened
    | succ room =>
        cases opened
        rw [Nat.succ_add]
  next passed =>
    cases opened
    rw [if_neg passed]

mutual

theorem readValue?_add : ∀ (fuel : Nat) {room : Nat} (more : Nat) {outline : Outline}
    {tokens : List Token} {result : Json × List Token},
      readValue? fuel room outline tokens = some result →
        readValue? fuel (room + more) outline tokens = some result
  | 0, _, _, _, _, _, read => by
      rw [readValue?] at read
      cases read
  | fuel + 1, room, more, outline, tokens, result, read => by
      unfold readValue? at read
      split at read
      · exact read
      · exact read
      · exact read
      · exact read
      · obtain ⟨inside, opened, same⟩ := Option.map_eq_some_iff.mp read
        rw [readValue?, openedWithin?_add opened more]
        exact congrArg some same
      next several =>
        obtain ⟨inside, opened, read⟩ := Option.bind_eq_some_iff.mp read
        obtain ⟨items, readItems, same⟩ := Option.bind_eq_some_iff.mp read
        have wider := readItems?_add fuel more readItems
        rw [readValue?, openedWithin?_add opened, Option.bind_eq_bind, Option.bind_some, wider]
        · exact same
        · exact several
      · obtain ⟨inside, opened, same⟩ := Option.map_eq_some_iff.mp read
        rw [readValue?, openedWithin?_add opened more]
        exact congrArg some same
      next several =>
        obtain ⟨inside, opened, read⟩ := Option.bind_eq_some_iff.mp read
        obtain ⟨members, readMembers, same⟩ := Option.bind_eq_some_iff.mp read
        have wider := readMembers?_add fuel more readMembers
        rw [readValue?, openedWithin?_add opened, Option.bind_eq_bind, Option.bind_some, wider]
        · exact same
        · exact several
      · cases read

theorem readItems?_add : ∀ (fuel : Nat) {room : Nat} (more : Nat) {leading : List Outline}
    {further : Outline} {tokens : List Token} {result : List Json × List Token},
      readItems? fuel room leading further tokens = some result →
        readItems? fuel (room + more) leading further tokens = some result
  | 0, _, _, _, _, _, _, read => by
      rw [readItems?] at read
      cases read
  | fuel + 1, room, more, leading, further, tokens, result, read => by
      unfold readItems? at read ⊢
      obtain ⟨⟨item, later⟩, readItem, read⟩ := Option.bind_eq_some_iff.mp read
      rw [readValue?_add fuel more readItem]
      dsimp only [Option.bind_eq_bind, Option.bind_some] at read ⊢
      split at read
      · obtain ⟨items, readOthers, same⟩ := Option.bind_eq_some_iff.mp read
        rw [readItems?_add fuel more readOthers, Option.bind_some, same]
      · exact read
      · cases read

theorem readMembers?_add : ∀ (fuel : Nat) {room : Nat} (more : Nat) {outline : Outline}
    {tokens : List Token} {result : List (String × Json) × List Token},
      readMembers? fuel room outline tokens = some result →
        readMembers? fuel (room + more) outline tokens = some result
  | 0, _, _, _, _, _, read => by
      rw [readMembers?] at read
      cases read
  | fuel + 1, room, more, outline, tokens, result, read => by
      obtain ⟨text, later, rfl⟩ := named_of_readMembers? read
      rw [readMembers?_succ] at read ⊢
      obtain ⟨name, known, read⟩ := Option.bind_eq_some_iff.mp read
      obtain ⟨⟨value, later⟩, readMember, read⟩ := Option.bind_eq_some_iff.mp read
      rw [known, Option.bind_some, readValue?_add fuel more readMember]
      dsimp only [Option.bind_some] at read ⊢
      split at read
      · obtain ⟨members, readOthers, same⟩ := Option.bind_eq_some_iff.mp read
        rw [readMembers?_add fuel more readOthers, Option.bind_some, same]
      · exact read
      · cases read

end

/-- A document that nests too deep is not read back. -/
theorem ofText?_wideText_eq_none {outline : Outline} (thorough : outline.Thorough)
    {document : Json} (read : ReadBy outline document)
    (deep : nestingLimit < document.nesting) : ofText? outline document.wideText = none := by
  rw [ofText?, wideText, Token.ofText?_wideLayout (apart_tokens document), Option.bind_some,
    ofTokens?]
  split
  next value whole =>
    -- With room for everything the reader would take the same way.
    have roomy := read (2 * document.tokens.length) (nestingLimit + document.nesting) []
      (by omega) (by omega)
    rw [List.append_nil, readValue?_add _ _ whole] at roomy
    cases roomy
    exact absurd (nesting_of_readValue? _ _ thorough whole) (Nat.not_le.mpr deep)
  next => rfl

end Json

end SceneFlow
