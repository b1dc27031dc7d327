import SceneFlow.Members

/-!
# What a collection holds

A collection gives a name the value that it has an entry for, and nothing else, so what a change
does to it is told by the values of names. A collection is that of its own entries.
-/

set_option autoImplicit false

namespace SceneFlow

namespace Members

variable {α : Type} {members : Members α} {name : String} {value : α}

/-! ## Values of names -/

theorem value?_eq_some_iff :
    members.value? name = some value ↔ (name, value) ∈ members.entries := by
  obtain ⟨entries, ascending⟩ := members
  change entries.lookup name = some value ↔ (name, value) ∈ entries
  induction entries with
  | nil => simp
  | cons head rest ih =>
      obtain ⟨least, ascendingRest⟩ := List.pairwise_cons.mp ascending
      obtain ⟨other, first⟩ := head
      rw [List.lookup_cons, List.mem_cons]
      by_cases same : name = other
      · subst same
        have absent : (name, value) ∉ rest := fun member => String.lt_irrefl name (least _ member)
        simp [absent, eq_comm]
      · rw [beq_false_of_ne same]
        simpa [same] using ih ascendingRest

theorem value?_insert (other : String) (value : α) :
    (members.insert other value).value? name =
      if name = other then some value else members.value? name := by
  split
  next same => rw [same, value?_insert_self]
  next differs => exact value?_insert_of_ne differs value members

theorem value?_filter (keep : String → α → Bool) :
    (members.filter keep).value? name = (members.value? name).filter (keep name) := by
  refine Option.ext fun value => ?_
  rw [value?_eq_some_iff, Option.filter_eq_some_iff, value?_eq_some_iff]
  exact List.mem_filter

theorem value?_erase (other : String) :
    (members.erase other).value? name = if name = other then none else members.value? name := by
  rw [erase, value?_filter]
  split <;> cases members.value? name <;> simp [*]

theorem value?_mapValues {β : Type} (change : α → β) :
    (members.mapValues change).value? name = (members.value? name).map change := by
  refine Option.ext fun value => ?_
  rw [value?_eq_some_iff, Option.map_eq_some_iff]
  simp only [value?_eq_some_iff, mapValues, List.mem_map, Prod.mk.injEq]
  constructor
  · rintro ⟨⟨_, old⟩, member, rfl, rfl⟩
    exact ⟨old, member, rfl⟩
  · rintro ⟨old, member, rfl⟩
    exact ⟨(name, old), member, rfl, rfl⟩

theorem mem_names_iff : name ∈ members.names ↔ ∃ value, members.value? name = some value := by
  simp [names, value?_eq_some_iff]

theorem names_ascending (members : Members α) : members.names.Pairwise (· < ·) :=
  List.pairwise_map.mpr members.ascending

theorem names_nodup (members : Members α) : members.names.Nodup := by
  refine members.names_ascending.imp ?_
  rintro name _ less rfl
  exact String.lt_irrefl name less

/-! ## Entries -/

theorem insertEntry_last {name : String} {value : α} {entries : List (String × α)}
    (last : ∀ entry ∈ entries, entry.1 < name) :
    insertEntry name value entries = entries ++ [(name, value)] := by
  induction entries with
  | nil => rfl
  | cons head rest ih =>
      obtain ⟨before, others⟩ := List.forall_mem_cons.mp last
      have differs : name ≠ head.1 := fun same => String.lt_irrefl name (same ▸ before)
      have behind : ¬ name < head.1 := fun less =>
        String.lt_irrefl name (String.lt_trans less before)
      rw [insertEntry, if_neg differs, if_neg behind, ih others, List.cons_append]

/-- A collection is that of its own entries. -/
theorem ofList_entries (members : Members α) : ofList members.entries = members := by
  suffices gathered : ∀ (later : List (String × α)) (members : Members α),
      Ascending (members.entries ++ later) →
        (later.foldl (fun members entry => members.insert entry.1 entry.2) members).entries =
          members.entries ++ later by
    have entries : (ofList members.entries).entries = members.entries :=
      gathered members.entries empty members.ascending
    generalize ofList members.entries = all at entries ⊢
    obtain ⟨given, ascending⟩ := members
    obtain ⟨all, _⟩ := all
    cases entries
    rfl
  intro later
  induction later with
  | nil => intro members _; exact (List.append_nil _).symm
  | cons entry later ih =>
      intro members ascending
      obtain ⟨name, value⟩ := entry
      obtain ⟨_, _, apart⟩ := List.pairwise_append.mp ascending
      have inserted : (members.insert name value).entries = members.entries ++ [(name, value)] :=
        insertEntry_last fun entry among => apart entry among _ (.head _)
      have step := ih (members.insert name value)
      rw [inserted, List.append_assoc, List.singleton_append] at step
      exact step ascending

end Members

end SceneFlow
