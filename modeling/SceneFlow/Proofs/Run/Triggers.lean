import Mathlib.Algebra.BigOperators.Group.List.Lemmas
import Mathlib.Algebra.Ring.Nat
import Mathlib.Data.List.Induction
import SceneFlow.Proofs.Members
import SceneFlow.Run.Triggers

/-!
# Waits by trigger

The waits for a trigger are a list of nodes: a node that begins to wait comes last, a node that ends
a wait gives up its first place, and what is done about other triggers makes no difference. A table
of these lists, in which a list stands from the first wait for its trigger until none is left,
answers every question as the registry does. So a table is empty just if nobody waits.
-/

set_option autoImplicit false

namespace SceneFlow

theorem nodup_eraseDups {α : Type} [DecidableEq α] : ∀ list : List α, list.eraseDups.Nodup
  | [] => by simp
  | first :: rest => by
      rw [List.eraseDups_cons, List.nodup_cons]
      exact ⟨by simp, nodup_eraseDups _⟩
termination_by list => list.length
decreasing_by exact Nat.lt_succ_of_le (List.length_filter_le _ _)

namespace TriggerRegistry

/-! ## Steps -/

/-- What is done with a registry. -/
inductive Step where
  | register (node : Nat) (trigger : String)
  | unregister (node : Nat) (trigger : String)
  | clear

def perform (registry : TriggerRegistry) : Step → TriggerRegistry
  | .register node trigger => registry.register node trigger
  | .unregister node trigger => registry.unregister node trigger
  | .clear => empty

def after (steps : List Step) : TriggerRegistry :=
  steps.foldl perform empty

/-- Whether a step is about a trigger. Clearing is about all of them. -/
def Step.concerns (trigger : String) : Step → Bool
  | .register _ other | .unregister _ other => other == trigger
  | .clear => true

/-- What a step makes of the list of a trigger that it is about. -/
def Step.change (list : List Nat) : Step → List Nat
  | .register node _ => list ++ [node]
  | .unregister node _ => list.erase node
  | .clear => []

/-- The list of a trigger after some steps, told from those that are about it. -/
def listed (trigger : String) (steps : List Step) : List Nat :=
  (steps.filter (Step.concerns trigger)).foldl Step.change []

/-! ## The lists -/

theorem waiting_perform (registry : TriggerRegistry) (step : Step) (trigger : String) :
    (registry.perform step).waiting trigger =
      if step.concerns trigger then step.change (registry.waiting trigger)
      else registry.waiting trigger := by
  cases step with
  | register node other =>
      rw [perform, waiting_register]
      by_cases same : other = trigger <;> simp [Step.concerns, Step.change, same]
  | unregister node other =>
      rw [perform, waiting_unregister]
      by_cases same : other = trigger <;> simp [Step.concerns, Step.change, same]
  | clear => rfl

theorem waiting_after (steps : List Step) (trigger : String) :
    (after steps).waiting trigger = listed trigger steps := by
  induction steps using List.reverseRecOn with
  | nil => rfl
  | append_singleton steps step ih =>
      rw [after, List.foldl_append, ← after, List.foldl_cons, List.foldl_nil, waiting_perform, ih]
      cases about : step.concerns trigger <;> simp [listed, about]

theorem listed_filter (trigger : String) (steps : List Step) :
    listed trigger (steps.filter (Step.concerns trigger)) = listed trigger steps := by
  simp [listed]

/-! ## All lists together -/

variable {registry : TriggerRegistry} {trigger : String}

theorem isWaiting_iff : registry.isWaiting trigger = true ↔ registry.waiting trigger ≠ [] := by
  simp [isWaiting]

theorem mem_triggers_iff : trigger ∈ registry.triggers ↔ registry.isWaiting trigger = true := by
  simp [triggers, isWaiting_iff, waiting, List.filter_eq_nil_iff]

theorem triggers_eq_nil_iff : registry.triggers = [] ↔ registry.isEmpty = true := by
  simp [triggers, isEmpty, List.eq_nil_iff_forall_not_mem]

theorem nodup_triggers (registry : TriggerRegistry) : registry.triggers.Nodup :=
  nodup_eraseDups _

theorem length_waiting (registry : TriggerRegistry) (trigger : String) :
    (registry.waiting trigger).length = (registry.registrations.map (·.trigger)).count trigger := by
  rw [waiting, List.length_map, ← List.countP_eq_length_filter, List.count, List.countP_map]
  rfl

/-- Every wait is in the list of one trigger. -/
theorem size_eq_sum (registry : TriggerRegistry) :
    registry.size =
      (registry.triggers.map fun trigger => (registry.waiting trigger).length).sum := by
  -- Each trigger counts once on both sides, but not at the same of its places.
  have distinct : (registry.registrations.map (·.trigger)).dedup.Perm registry.triggers :=
    (List.perm_ext_iff_of_nodup (List.nodup_dedup _) (nodup_triggers registry)).mpr fun trigger =>
      List.mem_dedup.trans List.mem_eraseDups.symm
  calc
    registry.size = (registry.registrations.map (·.trigger)).length := (List.length_map _).symm
    _ = ((registry.registrations.map (·.trigger)).dedup.map fun trigger =>
          (registry.registrations.map (·.trigger)).count trigger).sum :=
      (List.sum_map_count_dedup_eq_length _).symm
    _ = (registry.triggers.map fun trigger =>
          (registry.registrations.map (·.trigger)).count trigger).sum :=
      (distinct.map _).sum_eq
    _ = (registry.triggers.map fun trigger => (registry.waiting trigger).length).sum := by
      simp only [length_waiting]

theorem isEmpty_iff_size_eq_zero : registry.isEmpty = true ↔ registry.size = 0 := by
  simp [isEmpty, size]

end TriggerRegistry

/-! ## Tables of lists -/

/-- The nodes that wait for a trigger, by trigger. -/
structure TriggerTable where
  lists : Members (List Nat)

namespace TriggerTable

def empty : TriggerTable := ⟨.empty⟩

def waiting (table : TriggerTable) (trigger : String) : List Nat :=
  (table.lists.value? trigger).getD []

def register (table : TriggerTable) (node : Nat) (trigger : String) : TriggerTable :=
  ⟨table.lists.insert trigger (table.waiting trigger ++ [node])⟩

/-- Takes a node's first place out of a list, and the list out of the table once it is empty. -/
def unregister (table : TriggerTable) (node : Nat) (trigger : String) : TriggerTable :=
  match table.lists.value? trigger with
  | none => table
  | some list =>
      if (list.erase node).isEmpty then ⟨table.lists.erase trigger⟩
      else ⟨table.lists.insert trigger (list.erase node)⟩

def triggers (table : TriggerTable) : List String :=
  table.lists.names

def size (table : TriggerTable) : Nat :=
  (table.lists.entries.map fun entry => entry.2.length).sum

def isEmpty (table : TriggerTable) : Bool :=
  table.lists.entries.isEmpty

def perform (table : TriggerTable) : TriggerRegistry.Step → TriggerTable
  | .register node trigger => table.register node trigger
  | .unregister node trigger => table.unregister node trigger
  | .clear => empty

def after (steps : List TriggerRegistry.Step) : TriggerTable :=
  steps.foldl perform empty

theorem some_eq_some_iff_of_ne_nil {kept list : List Nat} (someone : kept ≠ []) :
    some kept = some list ↔ kept = list ∧ list ≠ [] := by
  rw [Option.some.injEq]
  exact (and_iff_left_of_imp fun same => same ▸ someone).symm

theorem value?_register (table : TriggerTable) (node : Nat) (trigger other : String)
    (list : List Nat) :
    (table.register node trigger).lists.value? other = some list ↔
      if other = trigger then table.waiting trigger ++ [node] = list ∧ list ≠ []
      else table.lists.value? other = some list := by
  rw [register, Members.value?_insert]
  split
  · exact some_eq_some_iff_of_ne_nil (by simp)
  · rfl

/-- An empty list leaves the table, and no list that is not empty does. -/
theorem value?_unregister (table : TriggerTable) (node : Nat) (trigger other : String)
    (list : List Nat) :
    (table.unregister node trigger).lists.value? other = some list ↔
      if other = trigger then (table.waiting trigger).erase node = list ∧ list ≠ []
      else table.lists.value? other = some list := by
  unfold unregister waiting
  cases found : table.lists.value? trigger with
  | none =>
      by_cases same : other = trigger
      · simp [same, found, eq_comm]
      · simp [same]
  | some kept =>
      cases left : kept.erase node with
      | nil =>
          by_cases same : other = trigger <;>
            simp [Members.value?_erase, same, left, eq_comm]
      | cons first rest =>
          simp only [List.isEmpty_cons, Bool.false_eq_true, if_false, Members.value?_insert,
            Option.getD_some, left]
          split
          · exact some_eq_some_iff_of_ne_nil (List.cons_ne_nil first rest)
          · rfl

/-- The table has the lists of a registry, but for those that are empty. -/
def Lists (table : TriggerTable) (registry : TriggerRegistry) : Prop :=
  ∀ trigger list,
    table.lists.value? trigger = some list ↔ registry.waiting trigger = list ∧ list ≠ []

variable {table : TriggerTable} {registry : TriggerRegistry}

theorem lists_empty : empty.Lists .empty := by
  intro trigger list
  refine iff_of_false nofun ?_
  rintro ⟨rfl, someone⟩
  exact someone rfl

theorem Lists.waiting (lists : table.Lists registry) (trigger : String) :
    table.waiting trigger = registry.waiting trigger := by
  cases found : table.lists.value? trigger with
  | none =>
      have nobody : registry.waiting trigger = [] := by
        by_contra someone
        have kept := (lists trigger _).mpr ⟨rfl, someone⟩
        rw [found] at kept
        cases kept
      rw [TriggerTable.waiting, found, nobody, Option.getD_none]
  | some list =>
      rw [TriggerTable.waiting, found, Option.getD_some, ((lists trigger list).mp found).1]

theorem Lists.register (lists : table.Lists registry) (node : Nat) (trigger : String) :
    (table.register node trigger).Lists (registry.register node trigger) := by
  intro other list
  rw [value?_register, lists.waiting, TriggerRegistry.waiting_register]
  by_cases same : other = trigger
  · subst same
    rw [if_pos rfl, if_pos rfl]
  · rw [if_neg same, if_neg (Ne.symm same), List.append_nil]
    exact lists other list

theorem Lists.unregister (lists : table.Lists registry) (node : Nat) (trigger : String) :
    (table.unregister node trigger).Lists (registry.unregister node trigger) := by
  intro other list
  rw [value?_unregister, lists.waiting, TriggerRegistry.waiting_unregister]
  by_cases same : other = trigger
  · subst same
    rw [if_pos rfl, if_pos rfl]
  · rw [if_neg same, if_neg (Ne.symm same)]
    exact lists other list

theorem Lists.perform (lists : table.Lists registry) (step : TriggerRegistry.Step) :
    (table.perform step).Lists (registry.perform step) := by
  cases step with
  | register node trigger => exact lists.register node trigger
  | unregister node trigger => exact lists.unregister node trigger
  | clear => exact lists_empty

theorem lists_after (steps : List TriggerRegistry.Step) :
    (after steps).Lists (TriggerRegistry.after steps) := by
  induction steps using List.reverseRecOn with
  | nil => exact lists_empty
  | append_singleton steps step ih =>
      rw [after, TriggerRegistry.after, List.foldl_append, List.foldl_append]
      exact ih.perform step

theorem Lists.triggers_perm (lists : table.Lists registry) :
    table.triggers.Perm registry.triggers := by
  refine (List.perm_ext_iff_of_nodup table.lists.names_nodup registry.nodup_triggers).mpr
    fun trigger => ?_
  rw [Members.mem_names_iff, TriggerRegistry.mem_triggers_iff, TriggerRegistry.isWaiting_iff]
  simp [lists trigger]

theorem Lists.size (lists : table.Lists registry) : table.size = registry.size := by
  have lengths : table.lists.entries.map (fun entry => entry.2.length) =
      table.triggers.map fun trigger => (registry.waiting trigger).length := by
    rw [triggers, Members.names, List.map_map]
    refine List.map_congr_left fun entry member => ?_
    have kept := (lists entry.1 entry.2).mp (Members.value?_eq_some_iff.mpr member)
    exact congrArg List.length kept.1.symm
  rw [TriggerTable.size, lengths, registry.size_eq_sum]
  exact (lists.triggers_perm.map _).sum_eq

theorem Lists.isEmpty (lists : table.Lists registry) : table.isEmpty = registry.isEmpty := by
  have bare : table.isEmpty = true ↔ table.triggers = [] := by
    simp [TriggerTable.isEmpty, TriggerTable.triggers, Members.names]
  have both : table.triggers = [] ↔ registry.triggers = [] := by
    rw [← List.length_eq_zero_iff, lists.triggers_perm.length_eq, List.length_eq_zero_iff]
  rw [Bool.eq_iff_iff, bare, both, TriggerRegistry.triggers_eq_nil_iff]

end TriggerTable

namespace TriggerRegistry

/-- After any steps, the waits for a trigger are the list that the steps about it make, whatever is
done about others. The registry names exactly the triggers that have waits, each once, and its size
is that of all their lists. A table that drops each list with its last node then has these lists and
no empty one, so it names the same triggers, has the same size and is empty at the same time. -/
theorem lists_by_trigger (steps : List Step) :
    let registry := after steps
    let table := TriggerTable.after steps
    (∀ trigger,
      registry.waiting trigger = listed trigger steps ∧
      registry.waiting trigger = (after (steps.filter (Step.concerns trigger))).waiting trigger ∧
      (trigger ∈ registry.triggers ↔ registry.isWaiting trigger = true)) ∧
    registry.triggers.Nodup ∧
    registry.size =
      (registry.triggers.map fun trigger => (registry.waiting trigger).length).sum ∧
    (registry.isEmpty = true ↔ registry.size = 0) ∧
    (∀ trigger list,
      table.lists.value? trigger = some list ↔ registry.waiting trigger = list ∧ list ≠ []) ∧
    table.triggers.Perm registry.triggers ∧
    table.size = registry.size ∧
    table.isEmpty = registry.isEmpty := by
  intro registry table
  have lists : table.Lists registry := TriggerTable.lists_after steps
  refine ⟨fun trigger => ⟨waiting_after steps trigger, ?_, mem_triggers_iff⟩,
    nodup_triggers registry, size_eq_sum registry, isEmpty_iff_size_eq_zero, lists,
    lists.triggers_perm, lists.size, lists.isEmpty⟩
  rw [waiting_after, waiting_after, listed_filter]

example :
    (after [.register 1 "door", .register 2 "door", .register 1 "lift", .register 1 "door",
      .unregister 1 "door", .unregister 3 "lift"]).waiting "door" = [2, 1] := by decide

end TriggerRegistry

end SceneFlow
