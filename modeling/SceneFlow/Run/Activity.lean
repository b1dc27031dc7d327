import SceneFlow.Graph.Basic
import SceneFlow.World.Basic

/-!
# Activities

An activity is what a node is given together with what it remembers: whether its dialogue was
started, how much of its delay remains, which option it took. A run makes one activity of every node
and uses it again on each visit.

A visit begins with `enter`. On each tick the node first issues the command that `command?` names,
provided there is a world, and then does its `work`; once the work is done, `target?` says where the
node itself sends control. Entering and working ask the world questions but change nothing in it.
-/

set_option autoImplicit false

namespace SceneFlow

inductive Activity where
  | start
  | dialogue (sequence : Option String) (waits started : Bool)
  | delay (seconds remaining : Float32)
  | waitForTrigger (trigger : String) (fired : Bool)
  | objective (objective : String) (action : ObjectiveAction)
  | subFlow (graph : Option Graph)
  | branch (conditions targets : List String) (chosen : Option Nat)
  /-- `step` is the number of the current step, and the number of steps once all have run. -/
  | sequence (steps : List String) (step : Option Nat)
  /-- `iteration` counts the visits as far as 32 bits reach. -/
  | loop (body : Option String) (limit iteration : UInt32) (finished : Bool)

namespace Activity

def ofKind : NodeKind Graph → Activity
  | .start => .start
  | .dialogue name waits => .dialogue name waits false
  | .delay seconds => .delay seconds seconds
  | .waitForTrigger trigger => .waitForTrigger trigger false
  | .objective goal action => .objective goal action
  | .subFlow graph => .subFlow graph
  | .branch conditions targets => .branch conditions targets none
  | .sequence steps => .sequence steps none
  | .loop body limit => .loop body limit 0 false

def kind : Activity → NodeKind Graph
  | .start => .start
  | .dialogue name waits _ => .dialogue name waits
  | .delay seconds _ => .delay seconds
  | .waitForTrigger trigger _ => .waitForTrigger trigger
  | .objective goal action => .objective goal action
  | .subFlow graph => .subFlow graph
  | .branch conditions targets _ => .branch conditions targets
  | .sequence steps _ => .sequence steps
  | .loop body limit _ _ => .loop body limit

@[simp] theorem kind_ofKind (kind : NodeKind Graph) : (ofKind kind).kind = kind := by
  cases kind <;> rfl

/-! ## Entering -/

/-- The first option with a condition that is not empty and holds. Conditions without a target and
targets without a condition are no options. -/
def chosenOption {σ : Type} [World σ] (world : σ) (conditions targets : List String) :
    Option Nat :=
  (conditions.zip targets).findIdx? fun (condition, _) =>
    condition ≠ "" && World.holds world condition

/-- The step that a Sequence comes to when it is entered: the first one, or the one after the last
one. A Sequence without steps never has one. -/
def stepOnEntry (steps : List String) (step : Option Nat) : Option Nat :=
  if steps.isEmpty then step
  else
    match step with
    | none => some 0
    | some step => some (min (step + 1) steps.length)

/-- The visit after `iteration` visits, as far as 32 bits reach. -/
def nextIteration (iteration : UInt32) : UInt32 :=
  if iteration = UInt32.ofNat (UInt32.size - 1) then iteration else iteration + 1

/-- Begins a visit. All kinds but Sequence and Loop forget what came before. -/
def enter {σ : Type} [World σ] (world : Option σ) : Activity → Activity
  | .start => .start
  | .dialogue name waits _ => .dialogue name waits false
  | .delay seconds _ => .delay seconds seconds
  | .waitForTrigger trigger _ => .waitForTrigger trigger false
  | .objective goal action => .objective goal action
  | .subFlow graph => .subFlow graph
  | .branch conditions targets _ =>
      .branch conditions targets (world.bind fun world => chosenOption world conditions targets)
  | .sequence steps step => .sequence steps (stepOnEntry steps step)
  | .loop body limit iteration _ =>
      let iteration := nextIteration iteration
      .loop body limit iteration (0 < limit && limit < iteration)

@[simp] theorem kind_enter {σ : Type} [World σ] (world : Option σ) (activity : Activity) :
    (activity.enter world).kind = activity.kind := by
  cases activity <;> rfl

/-! ## Working -/

/-- The command that the next tick of a visit issues, given a world. -/
def command? : Activity → Option Command
  | .dialogue (some name) _ false => some (.play name)
  | .objective goal action =>
      if goal = "" then none
      else
        match action with
        | .activate => some (.activate goal)
        | .complete => some (.complete goal)
  | _ => none

/-- Does the work of one tick that lasts `seconds`, and says whether the visit is over. A SubFlow
node that hosts no run has nothing to do. -/
def work {σ : Type} [World σ] (seconds : Float32) (world : Option σ) : Activity → Activity × Bool
  | .dialogue name waits started =>
      match name, world with
      | some sequenceName, some world =>
          (.dialogue name waits true, !waits || !World.isPlaying world sequenceName)
      | _, _ => (.dialogue name waits started, true)
  | .delay total remaining =>
      let remaining := remaining - seconds
      (.delay total remaining, remaining ≤ 0)
  | .waitForTrigger trigger fired => (.waitForTrigger trigger fired, fired)
  | activity => (activity, true)

@[simp] theorem kind_work {σ : Type} [World σ] (seconds : Float32) (world : Option σ)
    (activity : Activity) : (activity.work seconds world).1.kind = activity.kind := by
  cases activity with
  | dialogue name waits started => cases name <;> cases world <;> rfl
  | _ => rfl

/-- The same activity with its trigger fired, if it waits for one. -/
def signalled? : Activity → Option Activity
  | .waitForTrigger trigger _ => some (.waitForTrigger trigger true)
  | _ => none

/-! ## Leaving -/

def hasStep : Activity → Bool
  | .sequence steps (some step) => step < steps.length
  | _ => false

def isComplete : Activity → Bool
  | .sequence steps (some step) => steps.length ≤ step
  | _ => false

/-- Where the activity itself sends control: to the target of the option it took, to its current
step, or to its body. -/
def target? : Activity → Option String
  | .branch _ targets chosen => nonEmpty? (chosen.bind (targets[·]?))
  | .sequence steps step => nonEmpty? (step.bind (steps[·]?))
  | .loop body _ _ finished => if finished then none else nonEmpty? body
  | _ => none

/-- Whether the node that follows in the graph counts where the activity has no target of its own. A
Sequence ends its chain there instead. -/
def fallsThrough : Activity → Bool
  | .sequence .. => false
  | _ => true

end Activity

end SceneFlow
