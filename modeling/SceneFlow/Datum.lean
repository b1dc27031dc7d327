import SceneFlow.Json.Basic
import SceneFlow.Members

/-!
# Free-form data

Values whose shape the library does not prescribe, such as the parameters of an actor. Where a
document gives a record's name twice, the later value stands, and the members of a record are kept
in the order of their names. `OrderedDatum` holds the data of which that is known.
-/

set_option autoImplicit false

namespace SceneFlow

inductive Datum where
  | null
  | bool (value : Bool)
  | number (value : Number)
  | text (value : String)
  | list (items : List Datum)
  | record (members : List (String × Datum))

namespace Datum

/-! ## Order -/

mutual

/-- Whether all records in a value have their names in order, each once. -/
def Ordered : Datum → Prop
  | .list items => ItemsOrdered items
  | .record members => Ascending members ∧ MembersOrdered members
  | _ => True

def ItemsOrdered : List Datum → Prop
  | [] => True
  | item :: rest => item.Ordered ∧ ItemsOrdered rest

def MembersOrdered : List (String × Datum) → Prop
  | [] => True
  | (_, value) :: rest => value.Ordered ∧ MembersOrdered rest

end

theorem membersOrdered_iff {members : List (String × Datum)} :
    MembersOrdered members ↔ ∀ entry ∈ members, entry.2.Ordered := by
  induction members with
  | nil => simp [MembersOrdered]
  | cons head rest ih => simp [MembersOrdered, ih]

/-! ## Reading -/

mutual

/-- The value a document stands for; none if a number in it is out of range. -/
def ofJson? : Json → Option Datum
  | .null => some .null
  | .bool value => some (.bool value)
  | .number numeral => numeral.number?.map .number
  | .string value => some (.text value)
  | .array items => (listOfJson? items).map .list
  | .object members =>
      (membersOfJson? members).map fun given => .record (Members.ofList given).entries

def listOfJson? : List Json → Option (List Datum)
  | [] => some []
  | item :: rest => do
      let item ← ofJson? item
      let rest ← listOfJson? rest
      some (item :: rest)

/-- The values of an object's members, in the order in which they are written. -/
def membersOfJson? : List (String × Json) → Option (List (String × Datum))
  | [] => some []
  | (name, value) :: rest => do
      let value ← ofJson? value
      let rest ← membersOfJson? rest
      some ((name, value) :: rest)

end

mutual

/-- What is read from a document is ordered. -/
theorem ordered_of_ofJson? : ∀ {document : Json} {value : Datum},
    ofJson? document = some value → value.Ordered
  | .null, _, read | .bool _, _, read | .string _, _, read => by
      simp only [ofJson?, Option.some.injEq] at read
      simp [← read, Ordered]
  | .number _, _, read => by
      obtain ⟨_, _, rfl⟩ := Option.map_eq_some_iff.mp read
      simp [Ordered]
  | .array _, _, read => by
      obtain ⟨_, readItems, rfl⟩ := Option.map_eq_some_iff.mp read
      simpa [Ordered] using itemsOrdered_of_listOfJson? readItems
  | .object _, _, read => by
      obtain ⟨given, readMembers, rfl⟩ := Option.map_eq_some_iff.mp read
      have ordered := membersOrdered_iff.mp (membersOrdered_of_membersOfJson? readMembers)
      exact ⟨(Members.ofList given).ascending,
        membersOrdered_iff.mpr fun entry member =>
          ordered entry (Members.mem_of_mem_ofList member)⟩

theorem itemsOrdered_of_listOfJson? : ∀ {documents : List Json} {items : List Datum},
    listOfJson? documents = some items → ItemsOrdered items
  | [], _, read => by
      simp only [listOfJson?, Option.some.injEq] at read
      simp [← read, ItemsOrdered]
  | _ :: _, _, read => by
      obtain ⟨_, readItem, read⟩ := Option.bind_eq_some_iff.mp read
      obtain ⟨_, readRest, read⟩ := Option.bind_eq_some_iff.mp read
      cases read
      exact ⟨ordered_of_ofJson? readItem, itemsOrdered_of_listOfJson? readRest⟩

theorem membersOrdered_of_membersOfJson? : ∀ {documents : List (String × Json)}
    {members : List (String × Datum)},
    membersOfJson? documents = some members → MembersOrdered members
  | [], _, read => by
      simp only [membersOfJson?, Option.some.injEq] at read
      simp [← read, MembersOrdered]
  | (_, _) :: _, _, read => by
      obtain ⟨_, readValue, read⟩ := Option.bind_eq_some_iff.mp read
      obtain ⟨_, readRest, read⟩ := Option.bind_eq_some_iff.mp read
      cases read
      exact ⟨ordered_of_ofJson? readValue, membersOrdered_of_membersOfJson? readRest⟩

end

/-! ## Writing -/

mutual

def toJson : Datum → Json
  | .null => .null
  | .bool value => .bool value
  | .number value => .number (.ofNumber value)
  | .text value => .string value
  | .list items => .array (listToJson items)
  | .record members => .object (membersToJson members)

def listToJson : List Datum → List Json
  | [] => []
  | item :: rest => toJson item :: listToJson rest

def membersToJson : List (String × Datum) → List (String × Json)
  | [] => []
  | (name, value) :: rest => (name, toJson value) :: membersToJson rest

end

/-! ## Equality -/

mutual

/-- Whether two values agree, numbers comparing as `Number.same` says. -/
def same : Datum → Datum → Bool
  | .null, .null => true
  | .bool left, .bool right => left == right
  | .number left, .number right => left.same right
  | .text left, .text right => left == right
  | .list left, .list right => sameItems left right
  | .record left, .record right => sameMembers left right
  | _, _ => false

def sameItems : List Datum → List Datum → Bool
  | [], [] => true
  | left :: lefts, right :: rights => same left right && sameItems lefts rights
  | _, _ => false

def sameMembers : List (String × Datum) → List (String × Datum) → Bool
  | [], [] => true
  | (leftName, left) :: lefts, (rightName, right) :: rights =>
      leftName == rightName && same left right && sameMembers lefts rights
  | _, _ => false

end

end Datum

/-- A free-form value whose records all have their names in order. -/
structure OrderedDatum where
  datum : Datum
  ordered : datum.Ordered

namespace OrderedDatum

def null : OrderedDatum :=
  ⟨.null, by simp [Datum.Ordered]⟩

def ofJson? (document : Json) : Option OrderedDatum :=
  match read : Datum.ofJson? document with
  | some datum => some ⟨datum, Datum.ordered_of_ofJson? read⟩
  | none => none

def toJson (value : OrderedDatum) : Json :=
  value.datum.toJson

def same (left right : OrderedDatum) : Bool :=
  left.datum.same right.datum

end OrderedDatum

end SceneFlow
