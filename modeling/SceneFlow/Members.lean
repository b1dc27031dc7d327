/-!
# Values by name

A collection of values by name keeps its names in order, each once. Giving a name a value, taking
names out and changing values all respect that.
-/

set_option autoImplicit false

namespace SceneFlow

/-- Whether names stand in their order, each once. -/
def Ascending {α : Type} (entries : List (String × α)) : Prop :=
  entries.Pairwise fun left right => left.1 < right.1

/-- Values by name, in the order of the names. -/
structure Members (α : Type) where
  entries : List (String × α)
  ascending : Ascending entries

namespace Members

variable {α : Type}

def empty : Members α :=
  ⟨[], List.Pairwise.nil⟩

/-- Entries with a value for a name, in place of the one it had. -/
def insertEntry (name : String) (value : α) : List (String × α) → List (String × α)
  | [] => [(name, value)]
  | (other, present) :: rest =>
      if name = other then (name, value) :: rest
      else if name < other then (name, value) :: (other, present) :: rest
      else (other, present) :: insertEntry name value rest

theorem mem_insertEntry {name : String} {value : α} {entries : List (String × α)}
    {entry : String × α} (member : entry ∈ insertEntry name value entries) :
    entry = (name, value) ∨ entry ∈ entries := by
  induction entries with
  | nil => simpa [insertEntry] using member
  | cons head rest ih =>
      unfold insertEntry at member
      split at member
      · rcases List.mem_cons.mp member with rfl | inside
        · exact .inl rfl
        · exact .inr (.tail _ inside)
      · split at member
        · rcases List.mem_cons.mp member with rfl | inside
          · exact .inl rfl
          · exact .inr inside
        · rcases List.mem_cons.mp member with rfl | inside
          · exact .inr (.head _)
          · exact (ih inside).imp_right (.tail _)

theorem ascending_insertEntry {entries : List (String × α)} (ascending : Ascending entries)
    (name : String) (value : α) : Ascending (insertEntry name value entries) := by
  induction entries with
  | nil => simp [insertEntry, Ascending]
  | cons head rest ih =>
      obtain ⟨least, ascendingRest⟩ := List.pairwise_cons.mp ascending
      unfold insertEntry
      split
      · rename_i same
        exact List.pairwise_cons.mpr ⟨fun entry member => same ▸ least entry member, ascendingRest⟩
      · split
        · rename_i _ less
          refine List.pairwise_cons.mpr ⟨fun entry member => ?_, ascending⟩
          rcases List.mem_cons.mp member with rfl | inside
          · exact less
          · exact String.lt_trans less (least entry inside)
        · rename_i differs notLess
          refine List.pairwise_cons.mpr ⟨fun entry member => ?_, ih ascendingRest⟩
          rcases mem_insertEntry member with rfl | inside
          · have atLeast : head.1 ≤ name := String.not_lt.mp notLess
            rcases Std.le_iff_lt_or_eq.mp atLeast with less | same
            · exact less
            · exact absurd same.symm differs
          · exact least entry inside

def insert (name : String) (value : α) (members : Members α) : Members α :=
  ⟨insertEntry name value members.entries, ascending_insertEntry members.ascending name value⟩

/-- Values given in any order, the later one standing where a name is repeated. -/
def ofList (given : List (String × α)) : Members α :=
  given.foldl (fun members (name, value) => members.insert name value) empty

def filter (keep : String → α → Bool) (members : Members α) : Members α :=
  ⟨members.entries.filter fun (name, value) => keep name value, members.ascending.filter _⟩

def erase (name : String) (members : Members α) : Members α :=
  members.filter fun other _ => other ≠ name

def mapValues {β : Type} (change : α → β) (members : Members α) : Members β :=
  ⟨members.entries.map fun (name, value) => (name, change value),
    List.pairwise_map.mpr (members.ascending.imp id)⟩

def value? (members : Members α) (name : String) : Option α :=
  members.entries.lookup name

def names (members : Members α) : List String :=
  members.entries.map Prod.fst

def size (members : Members α) : Nat :=
  members.entries.length

def same (agree : α → α → Bool) (left right : Members α) : Bool :=
  left.size == right.size &&
    (left.entries.zip right.entries).all fun (left, right) =>
      left.1 == right.1 && agree left.2 right.2

theorem value?_insert_self (name : String) (value : α) (members : Members α) :
    (members.insert name value).value? name = some value := by
  rcases members with ⟨entries, ascending⟩
  simp only [insert, value?]
  clear ascending
  induction entries with
  | nil => simp [insertEntry]
  | cons head rest ih =>
      unfold insertEntry
      split
      · simp
      · split
        · simp
        · rename_i differs _
          simpa only [List.lookup_cons, beq_false_of_ne differs] using ih

theorem value?_insert_of_ne {name other : String} (differs : other ≠ name) (value : α)
    (members : Members α) : (members.insert name value).value? other = members.value? other := by
  have unequal := beq_false_of_ne differs
  rcases members with ⟨entries, ascending⟩
  simp only [insert, value?]
  clear ascending
  induction entries with
  | nil => simp [insertEntry, List.lookup_cons, unequal]
  | cons head rest ih =>
      rcases head with ⟨key, present⟩
      unfold insertEntry
      split
      · rename_i same
        subst same
        simp [List.lookup_cons, unequal]
      · split
        · simp [List.lookup_cons, unequal]
        · simp only [List.lookup_cons, ih]

/-- Nothing is in a collection that was not given. -/
theorem mem_of_mem_ofList {given : List (String × α)} {entry : String × α}
    (member : entry ∈ (ofList given).entries) : entry ∈ given := by
  suffices ∀ members : Members α,
      entry ∈ (given.foldl (fun members (given : String × α) =>
        members.insert given.1 given.2) members).entries →
      entry ∈ given ∨ entry ∈ members.entries from
    (this empty member).resolve_right (by simp [empty])
  clear member
  induction given with
  | nil => exact fun members inside => .inr inside
  | cons first rest ih =>
      intro members inside
      rcases ih _ inside with later | now
      · exact .inl (.tail _ later)
      · rcases mem_insertEntry now with rfl | before
        · exact .inl (.head _)
        · exact .inr before

end Members

end SceneFlow
