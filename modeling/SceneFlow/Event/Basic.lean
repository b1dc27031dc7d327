import SceneFlow.Graph.Basic

/-!
# Run events

What runs report while they advance. Every run has an identity of its own. That of a nested run
extends the identity of the run around it by the visit of the SubFlow node that hosts it, so
identities never repeat and tell how deep a run is nested.
-/

set_option autoImplicit false

namespace SceneFlow

structure RunId where
  /-- The run that no other run hosts, by a number its host gave it. -/
  root : Nat
  /-- From the outside inwards, which entry of the hosting run each nested run belongs to. -/
  visits : List Nat
deriving DecidableEq

namespace RunId

def outermost (root : Nat) : RunId := ⟨root, []⟩

/-- The identity of the run that belongs to one entry of this run. -/
def nested (id : RunId) (visit : Nat) : RunId :=
  { id with visits := id.visits ++ [visit] }

/-- How many runs host this one, one inside of the other. -/
def depth (id : RunId) : Nat := id.visits.length

@[simp] theorem depth_outermost (root : Nat) : (outermost root).depth = 0 := rfl

@[simp] theorem depth_nested (id : RunId) (visit : Nat) :
    (id.nested visit).depth = id.depth + 1 := by
  simp [nested, depth]

end RunId

inductive Report where
  | runStarted (graph : String)
  | nodeEntered (node : String) (type : NodeType) (tick : Nat)
  | nodeExited (node : String) (type : NodeType) (tick : Nat)
  | triggerSignalled (trigger : String) (woken : Nat)
  | runFinished (graph : String) (ticks : Nat)
  | runStopped (graph : String)
deriving DecidableEq

structure Event where
  run : RunId
  report : Report
deriving DecidableEq

namespace Event

def depth (event : Event) : Nat := event.run.depth

end Event

end SceneFlow
