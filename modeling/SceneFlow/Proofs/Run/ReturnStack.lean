import Mathlib.Data.List.TakeWhile
import SceneFlow.Run.ReturnStack

/-!
# Taking from a return stack

One pop takes the topmost entry that passes and keeps what lies below it; pops until nothing is
found take all entries that pass, from top to bottom. A stack that a node was taken out of finds,
from then on, what the whole stack finds while the node never passes.
-/

set_option autoImplicit false

namespace SceneFlow

namespace ReturnStack

variable {isValid : Nat → Bool} {stack rest : ReturnStack} {found node : Nat}

/-- Every stack comes about by pushes. -/
@[elab_as_elim] theorem pushes {motive : ReturnStack → Prop} (empty : motive .empty)
    (push : ∀ stack top, motive stack → motive (stack.push top)) (stack : ReturnStack) :
    motive stack := by
  obtain ⟨entries⟩ := stack
  induction entries with
  | nil => exact empty
  | cons top entries ih => exact push ⟨entries⟩ top ih

/-! ## Single pops -/

theorem popValid_push (isValid : Nat → Bool) (stack : ReturnStack) (top : Nat) :
    (stack.push top).popValid isValid =
      if isValid top then (some top, stack) else stack.popValid isValid := by
  cases valid : isValid top <;> simp [popValid, valid]

/-- What is found passes, and nothing above it does; what is left is all that lies below. -/
theorem popValid_eq_some_iff :
    stack.popValid isValid = (some found, rest) ↔
      isValid found = true ∧ ∃ above, stack.entries = above ++ found :: rest.entries ∧
        ∀ other ∈ above, isValid other = false := by
  constructor
  · intro popped
    unfold popValid at popped
    cases left : stack.entries.dropWhile (!isValid ·) with
    | nil => simp [left] at popped
    | cons top below =>
        simp only [left, Prod.mk.injEq, Option.some.injEq] at popped
        obtain ⟨rfl, rfl⟩ := popped
        have passes := List.head_dropWhile_not (!isValid ·) (l := stack.entries) (by simp [left])
        refine ⟨by simpa [left] using passes, stack.entries.takeWhile (!isValid ·), ?_, ?_⟩
        · exact left ▸ List.takeWhile_append_dropWhile.symm
        · exact fun other skipped => by simpa using List.mem_takeWhile_imp skipped
  · rintro ⟨passes, above, split, invalid⟩
    have skipped : stack.entries.dropWhile (!isValid ·) = found :: rest.entries := by
      rw [split, List.dropWhile_append_of_pos (by simpa using invalid)]
      simp [passes]
    simp [popValid, skipped]

/-- Where nothing passes, nothing is found and nothing is left. -/
theorem popValid_eq_none_iff :
    stack.popValid isValid = (none, rest) ↔
      rest = empty ∧ ∀ other ∈ stack.entries, isValid other = false := by
  have skipped : stack.entries.dropWhile (!isValid ·) = [] ↔
      ∀ other ∈ stack.entries, isValid other = false := by simp [List.dropWhile_eq_nil_iff]
  rw [← skipped]
  unfold popValid
  cases stack.entries.dropWhile (!isValid ·) with
  | nil => simp [eq_comm]
  | cons top below => simp

/-! ## Pops until nothing is found -/

theorem size_lt_of_popValid (popped : stack.popValid isValid = (some found, rest)) :
    rest.size < stack.size := by
  obtain ⟨_, above, split, _⟩ := popValid_eq_some_iff.mp popped
  simp only [size, split, List.length_append, List.length_cons]
  omega

/-- What is found in pop after pop, until nothing is. -/
def popAll (isValid : Nat → Bool) (stack : ReturnStack) : List Nat :=
  match _popped : stack.popValid isValid with
  | (none, _) => []
  | (some found, rest) => found :: rest.popAll isValid
termination_by stack.size
decreasing_by exact size_lt_of_popValid _popped

theorem popAll_eq_filter (isValid : Nat → Bool) (stack : ReturnStack) :
    stack.popAll isValid = stack.entries.filter isValid := by
  fun_induction popAll isValid stack with
  | case1 stack rest popped =>
      obtain ⟨_, invalid⟩ := popValid_eq_none_iff.mp popped
      exact (List.filter_eq_nil_iff.mpr (by simpa using invalid)).symm
  | case2 stack found rest popped ih =>
      obtain ⟨passes, above, split, invalid⟩ := popValid_eq_some_iff.mp popped
      have skipped : above.filter isValid = [] :=
        List.filter_eq_nil_iff.mpr (by simpa using invalid)
      rw [ih, split, List.filter_append, skipped, List.nil_append, List.filter_cons_of_pos passes]

/-! ## Stacks that a node was taken out of -/

/-- What is done with a stack. -/
inductive Step where
  | push (node : Nat)
  | popValid (isValid : Nat → Bool)
  | removeAll (node : Nat)

def perform (stack : ReturnStack) : Step → ReturnStack
  | .push node => stack.push node
  | .popValid isValid => (stack.popValid isValid).2
  | .removeAll node => stack.removeAll node

def after (stack : ReturnStack) (steps : List Step) : ReturnStack :=
  steps.foldl perform stack

/-- What a step finds, if it is a pop. -/
def answer? (stack : ReturnStack) : Step → Option (Option Nat)
  | .popValid isValid => some (stack.popValid isValid).1
  | .push _ | .removeAll _ => none

/-- What the pops among some steps find, one after the other. -/
def answers (stack : ReturnStack) : List Step → List (Option Nat)
  | [] => []
  | step :: steps => (stack.answer? step).toList ++ (stack.perform step).answers steps

/-- The step, but for a pop that the node does not pass. -/
def Step.sparing (node : Nat) : Step → Step
  | .popValid isValid => .popValid fun other => isValid other && other != node
  | .push other => .push other
  | .removeAll other => .removeAll other

theorem removeAll_push (stack : ReturnStack) (top node : Nat) :
    (stack.push top).removeAll node =
      if top = node then stack.removeAll node else (stack.removeAll node).push top := by
  by_cases same : top = node <;> simp [removeAll, push, same]

theorem removeAll_comm (stack : ReturnStack) (node other : Nat) :
    (stack.removeAll node).removeAll other = (stack.removeAll other).removeAll node := by
  simp only [removeAll, List.filter_filter, Bool.and_comm]

/-- A pop that a node does not pass goes as if the node were not there. -/
theorem popValid_removeAll (isValid : Nat → Bool) (stack : ReturnStack) (node : Nat) :
    (stack.removeAll node).popValid isValid =
      (stack.popValid fun other => isValid other && other != node).map id (·.removeAll node) := by
  induction stack using pushes with
  | empty => rfl
  | push stack top ih =>
      rw [removeAll_push, popValid_push]
      by_cases same : top = node
      · simp [same, ih]
      · cases valid : isValid top <;> simp [same, popValid_push, valid, ih]

variable {step : Step} {steps : List Step}

theorem answer?_removeAll (stack : ReturnStack) (node : Nat) (step : Step) :
    (stack.removeAll node).answer? step = stack.answer? (step.sparing node) := by
  cases step with
  | popValid isValid => simp [answer?, Step.sparing, popValid_removeAll]
  | push | removeAll => rfl

theorem perform_removeAll (spared : step ≠ .push node) (stack : ReturnStack) :
    (stack.removeAll node).perform step = (stack.perform (step.sparing node)).removeAll node := by
  cases step with
  | push other =>
      have differs : other ≠ node := fun same => spared (same ▸ rfl)
      simp [perform, Step.sparing, removeAll_push, differs]
  | popValid isValid => simp [perform, Step.sparing, popValid_removeAll]
  | removeAll other => exact removeAll_comm stack node other

-- The two stacks never differ but in the node, so the induction on the steps is for any stack.
theorem answers_removeAll (spared : .push node ∉ steps) (stack : ReturnStack) :
    (stack.removeAll node).answers steps = stack.answers (steps.map (.sparing node)) := by
  induction steps generalizing stack with
  | nil => rfl
  | cons step steps ih =>
      obtain ⟨first, later⟩ := not_or.mp (mt List.mem_cons.mpr spared)
      rw [List.map_cons, answers, answers, answer?_removeAll,
        perform_removeAll (Ne.symm first), ih later]

theorem after_removeAll (spared : .push node ∉ steps) (stack : ReturnStack) :
    (stack.removeAll node).after steps =
      (stack.after (steps.map (.sparing node))).removeAll node := by
  induction steps generalizing stack with
  | nil => rfl
  | cons step steps ih =>
      obtain ⟨first, later⟩ := not_or.mp (mt List.mem_cons.mpr spared)
      simp only [after, List.map_cons, List.foldl_cons]
      rw [perform_removeAll (Ne.symm first)]
      exact ih later _

/-- A pop finds the topmost entry that passes and leaves exactly what lies below it, or finds and
leaves nothing; pop after pop, all entries that pass are found from top to bottom. A stack that a
node was taken out of does not hold it as long as it is not pushed again, and all pops find what
they find in the whole stack while the node does not pass. -/
theorem pops_and_removals (isValid : Nat → Bool) (stack : ReturnStack) :
    (∀ found rest, stack.popValid isValid = (some found, rest) ↔
      isValid found = true ∧ ∃ above, stack.entries = above ++ found :: rest.entries ∧
        ∀ other ∈ above, isValid other = false) ∧
    (∀ rest, stack.popValid isValid = (none, rest) ↔
      rest = empty ∧ ∀ other ∈ stack.entries, isValid other = false) ∧
    stack.popAll isValid = stack.entries.filter isValid ∧
    ∀ node steps, .push node ∉ steps →
      (stack.removeAll node).answers steps = stack.answers (steps.map (.sparing node)) ∧
      ∀ earlier, earlier <+: steps →
        ((stack.removeAll node).after earlier).contains node = false := by
  refine ⟨fun _ _ => popValid_eq_some_iff, fun _ => popValid_eq_none_iff,
    popAll_eq_filter isValid stack, fun node steps spared => ?_⟩
  refine ⟨answers_removeAll spared stack, fun earlier first => ?_⟩
  have sparedBefore : .push node ∉ earlier := fun among => spared (first.subset among)
  rw [after_removeAll sparedBefore]
  exact contains_removeAll _ node

/-- A node that stood in a stack three times is not found again once it was taken out, but the
others are. -/
theorem pops_and_removals_thrice :
    let stack : ReturnStack := ⟨[1, 3, 1, 2, 1]⟩
    let steps : List Step := [.push 4, .popValid (· < 4), .removeAll 3, .popValid fun _ => true]
    .push 1 ∉ steps ∧
    (stack.removeAll 1).answers steps = [some 3, some 2] ∧
    (stack.removeAll 1).answers steps = stack.answers (steps.map (.sparing 1)) ∧
    ∀ earlier, earlier <+: steps →
      ((stack.removeAll 1).after earlier).contains 1 = false := by
  intro stack steps
  have spared : .push 1 ∉ steps := by simp [steps]
  exact ⟨spared, rfl, (pops_and_removals (fun _ => true) stack).2.2.2 1 steps spared⟩

end ReturnStack

end SceneFlow
