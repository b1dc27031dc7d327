import SceneFlow.Proofs.Run.Nesting

/-!
# Runs under another identity

The identity of a run shows in its reports alone. Under another identity a run goes on in the same
way, and so do the runs nested in it, whose identities extend its own.
-/

set_option autoImplicit false

namespace SceneFlow

/-- The same level under another identity. -/
def Level.renamed (id : RunId) (level : Level) : Level :=
  { level with id }

/-- The same run under another identity, with the identities of nested runs changed accordingly. -/
def Run.renamed (id : RunId) : Run → Run
  | .alone level => .alone (level.renamed id)
  | .hosting level inner => .hosting (level.renamed id) (inner.renamed (id.nested level.enters))

namespace Level

variable {σ : Type} [World σ]

theorem enter_renamed (id : RunId) (world : Option σ) (index : Nat) (level : Level) :
    (level.renamed id).enter world index = (level.enter world index).renamed id := by
  simp only [enter, renamed, withActivity]
  split <;> rfl

theorem leave_renamed (id : RunId) (index : Nat) (level : Level) :
    (level.renamed id).leave index = (level.leave index).renamed id := by
  simp only [leave, renamed]
  split <;> rfl

end Level

namespace Run

variable {σ : Type} [World σ]

theorem level_renamed (id : RunId) (run : Run) :
    (run.renamed id).level = run.level.renamed id := by
  cases run <;> rfl

theorem isFinished_renamed (id : RunId) (run : Run) :
    (run.renamed id).isFinished = run.isFinished := by
  rw [isFinished, level_renamed]
  rfl

theorem command?_renamed (id : RunId) (run : Run) : (run.renamed id).command? = run.command? := by
  induction run generalizing id with
  | alone level => rfl
  | hosting level inner ih =>
      simp only [renamed, command?, ih]
      rfl

mutual

theorem start_renamed (world : Option σ) (id other : RunId) (graph : Graph) :
    (start world other graph).1.renamed id = (start world id graph).1 := by
  match found : graph.startIndex? with
  | none =>
      rw [start_of_none found, start_of_none found]
      rfl
  | some index =>
      rw [start_of_some found, start_of_some found]
      exact (enter_renamed world id index (Level.ofGraph other graph)).symm
termination_by 2 * graph.nesting + 1
decreasing_by
  simp only [Level.ofGraph]
  omega

theorem enter_renamed (world : Option σ) (id : RunId) (index : Nat) (level : Level) :
    (enter world index (level.renamed id)).1 = (enter world index level).1.renamed id := by
  have entered := level.enter_renamed id world index
  match hosted : level.graph.nestedAt? index with
  | none =>
      have free : (level.renamed id).graph.nestedAt? index = none := hosted
      rw [enter_of_none hosted, enter_of_none free, entered]
      rfl
  | some graph =>
      have hostedToo : (level.renamed id).graph.nestedAt? index = some graph := hosted
      have started := start_renamed world (id.nested (level.enters + 1))
        (level.id.nested (level.enters + 1)) graph
      rw [enter_hosting hosted, enter_hosting hostedToo, entered]
      simp only [renamed, Level.enters_enter, started]
      rfl
termination_by 2 * level.graph.nesting
decreasing_by
  have := Graph.nesting_lt_of_nestedAt? hosted
  omega

end

theorem moveOn_renamed (world : Option σ) (id : RunId) (index : Nat) (level : Level) :
    (moveOn world index (level.renamed id)).1 = (moveOn world index level).1.renamed id := by
  have goes : (level.leave index |>.renamed id).destination index =
      (level.leave index).destination index := rfl
  rw [moveOn_eq, moveOn_eq, Level.leave_renamed]
  dsimp only
  rw [goes]
  cases (level.leave index).destination index with
  | successor next => exact enter_renamed world id next (level.leave index)
  | resumption next returns => exact enter_renamed world id next { level.leave index with returns }
  | ending | unresolved => rfl

/-- A run that is over is left alone, whatever its identity. -/
theorem advance_renamed_of_current_none (run : Run) (isOver : run.level.current = none)
    (seconds : Float32) (world : Option σ) (id : RunId) :
    ((run.renamed id).advance seconds world).1 = (run.advance seconds world).1.renamed id := by
  have isOverToo : (run.renamed id).level.current = none := by
    rw [level_renamed]
    exact isOver
  rw [advance_of_current_none isOver, advance_of_current_none isOverToo]

/-- A tick of a run does not depend on the run's identity. -/
theorem advance_renamed (seconds : Float32) (world : Option σ) (id : RunId) (run : Run) :
    ((run.renamed id).advance seconds world).1 = (run.advance seconds world).1.renamed id := by
  induction run generalizing id with
  | alone level =>
      cases current : level.current with
      | none => exact advance_renamed_of_current_none (.alone level) current seconds world id
      | some index =>
          have currentToo : (level.renamed id).current = some index := current
          cases found : level.instances[index]? with
          | none => simp [renamed, advance, current, found, Level.renamed]
          | some inst =>
              have foundToo : (level.renamed id).instances[index]? = some inst := found
              have moved := moveOn_renamed world id index (level.worked seconds world index)
              rw [renamed, advance_alone current found, advance_alone currentToo foundToo]
              split
              · exact moved
              · rfl
  | hosting level inner ih =>
      cases current : level.current with
      | none =>
          exact advance_renamed_of_current_none (.hosting level inner) current seconds world id
      | some index =>
          have currentToo : (level.renamed id).current = some index := current
          have moved := moveOn_renamed world id index { level with ticks := level.ticks + 1 }
          rw [renamed, advance_hosting_of_current current, advance_hosting_of_current currentToo,
            ih, isFinished_renamed]
          dsimp only
          split
          · exact moved
          · rfl

end Run

end SceneFlow
