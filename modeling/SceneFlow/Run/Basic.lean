import SceneFlow.Run.Level

/-!
# Runs

A run is a stack of levels: the level of a graph and, while that level's current node is a SubFlow
node with a graph, the run of that graph. Only the current node of a level can host a run.

A tick reaches the innermost level. There the current node issues the command it has to issue and
does its work. If that ends the visit, control moves on to the next node; if it ends the level, the
node that hosts the level is done in turn, and so on outwards. Each level moves at most once.

Everything that happens is returned: the new run, the changed world and the events, in order. A
level reports that it entered a SubFlow node only after the nested run has started.
-/

set_option autoImplicit false

namespace SceneFlow

inductive Run where
  /-- A level that hosts no run. -/
  | alone (level : Level)
  /-- A level whose current node hosts a run. -/
  | hosting (level : Level) (inner : Run)

namespace Run

def level : Run → Level
  | .alone level => level
  | .hosting level _ => level

def inner? : Run → Option Run
  | .alone _ => none
  | .hosting _ inner => some inner

def isFinished (run : Run) : Bool :=
  run.level.isFinished

/-! ## Beginning a run -/

mutual

/-- Starts a run of a graph: enters its first node, and the first nodes of the graphs nested there.
A graph without a first node that can be found is over at once. -/
def start {σ : Type} [World σ] (world : Option σ) (id : RunId) (graph : Graph) :
    Run × List Event :=
  let level := Level.ofGraph id graph
  let started := level.event (.runStarted graph.id)
  match graph.startIndex? with
  | none => (.alone level, [started, level.finishedReport])
  | some index =>
      let (run, events) := enter world index (Level.ofGraph id graph)
      (run, started :: events)
termination_by 2 * graph.nesting + 1
decreasing_by
  simp only [Level.ofGraph]
  omega

/-- Gives control to a node of a level, and starts the run it hosts. -/
def enter {σ : Type} [World σ] (world : Option σ) (index : Nat) (level : Level) :
    Run × List Event :=
  let entered := level.enter world index
  match _found : level.graph.nestedAt? index with
  | none => (.alone entered, entered.enteredReport index)
  | some graph =>
      let (inner, events) := start world (entered.id.nested entered.enters) graph
      (.hosting entered inner, events ++ entered.enteredReport index)
termination_by 2 * level.graph.nesting
decreasing_by
  have := Graph.nesting_lt_of_nestedAt? _found
  omega

end

/-! ## Ticks -/

def finish (level : Level) : Run × List Event :=
  (.alone level.finish, [level.finishedReport])

/-- Takes control from a node whose visit is over, and gives it to the node that comes next. -/
def moveOn {σ : Type} [World σ] (world : Option σ) (index : Nat) (level : Level) :
    Run × List Event :=
  let left := level.leave index
  let (run, events) :=
    match left.destination index with
    | .successor next => enter world next left
    | .resumption next returns => enter world next { left with returns }
    | .ending => finish { left with returns := .empty }
    | .unresolved _ => finish left
  (run, left.exitedReport index ++ events)

/-- The command that the next tick of a run issues, given a world: that of the current node of the
innermost level. -/
def command? : Run → Option Command
  | .alone level => level.current?.bind (·.activity.command?)
  | .hosting level inner => if level.isFinished then none else inner.command?

/-- Advances a run by `seconds`, once the world has received the run's command. A run that is over
does not change. -/
def advance {σ : Type} [World σ] (seconds : Float32) (world : Option σ) : Run → Run × List Event
  | .alone level =>
      match level.current with
      | none => (.alone level, [])
      | some index =>
          let level := { level with ticks := level.ticks + 1 }
          match level.instances[index]? with
          | none => (.alone level, [])
          | some inst =>
              let (activity, done) := inst.activity.work seconds world
              let level := level.withActivity index activity
              if done then moveOn world index level else (.alone level, [])
  | .hosting level inner =>
      match level.current with
      | none => (.hosting level inner, [])
      | some index =>
          let level := { level with ticks := level.ticks + 1 }
          let (inner, events) := inner.advance seconds world
          if inner.isFinished then
            let (run, moved) := moveOn world index level
            (run, events ++ moved)
          else
            (.hosting level inner, events)

structure Ticked (σ : Type) where
  run : Run
  world : Option σ
  events : List Event

/-- Advances a run by one tick that lasts `seconds`. Without a world no command is issued. -/
def tick {σ : Type} [World σ] (seconds : Float32) (world : Option σ) (run : Run) : Ticked σ :=
  let world := world.map fun world => (run.command?.map (World.perform · world)).getD world
  let (run, events) := run.advance seconds world
  { run, world, events }

/-! ## Signals and stopping -/

def withLevel (level : Level) : Run → Run
  | .alone _ => .alone level
  | .hosting _ inner => .hosting level inner

structure Signalled where
  run : Run
  woken : Nat
  events : List Event

/-- Signals a trigger to the outermost level; nested runs are not reached. -/
def signal (trigger : String) (run : Run) : Signalled :=
  let (level, woken) := run.level.signal trigger
  { run := run.withLevel level, woken, events := [level.event (.triggerSignalled trigger woken)] }

def stoppedReport (run : Run) : Event :=
  run.level.event (.runStopped run.level.graph.id)

end Run

end SceneFlow
