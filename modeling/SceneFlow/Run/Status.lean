import SceneFlow.Number.Places
import SceneFlow.Run.Basic
import SceneFlow.Text.Quoted

/-!
# Status lines

One line of text for every node of a run, for tools that show where a run stands.
-/

set_option autoImplicit false

namespace SceneFlow

/-- How far the run of a SubFlow node has come, for its status line. -/
inductive NestedStatus where
  | notRunning
  | finished
  /-- The run's current node has this status line. -/
  | at (line : String)

namespace NestedStatus

def text : NestedStatus → String
  | .notRunning => "not running"
  | .finished => "finished"
  | .at line => "at " ++ line

end NestedStatus

def truthText (value : Bool) : String :=
  if value then "true" else "false"

namespace Activity

def dialogueState {σ : Type} [World σ] (world : Option σ) (name : Option String)
    (started : Bool) : String :=
  let playing :=
    match name, world with
    | some name, some world => World.isPlaying world name
    | _, _ => false
  if !started then "pending start" else if playing then "playing" else "finished"

/-- What a status line says behind the node's name; nothing for a Start node. -/
def status? {σ : Type} [World σ] (world : Option σ) (nested : NestedStatus) :
    Activity → Option String
  | .start => none
  | .dialogue name waits started =>
      some (name.getD "(none)" ++ " [" ++
        (if waits then "wait-for-complete" else "fire-and-forget") ++ ", " ++
        dialogueState world name started ++ "]")
  | .delay seconds remaining =>
      some (twoPlaces remaining ++ " / " ++ twoPlaces seconds ++ " seconds remaining")
  | .waitForTrigger trigger fired =>
      some ("Trigger='" ++ trigger ++ "', Fired=" ++ truthText fired)
  | .objective goal action => some (action.name ++ " '" ++ goal ++ "'")
  | .subFlow graph => some ((graph.map (·.id)).getD "(none)" ++ " [" ++ nested.text ++ "]")
  | .branch conditions targets chosen =>
      match chosen with
      | some option =>
          some ("chose option " ++ toString option ++ " ('" ++ conditions[option]?.getD "" ++
            "' -> '" ++ targets[option]?.getD "" ++ "')")
      | none =>
          some ("no option taken of " ++ toString (min conditions.length targets.length))
  | .sequence steps step =>
      let total := toString steps.length
      if steps.isEmpty then some "(no steps configured)"
      else
        match step with
        | none => some ("not started (" ++ total ++ " steps)")
        | some step =>
            if steps.length ≤ step then some ("complete (" ++ total ++ " steps)")
            else some ("step " ++ toString step ++ "/" ++ total)
  | .loop _ limit iteration finished =>
      let mode :=
        if limit = 0 then "infinite" else toString iteration.toNat ++ "/" ++ toString limit.toNat
      some ("iteration=" ++ toString iteration.toNat ++ ", mode=" ++ mode ++ ", finished=" ++
        truthText finished)

end Activity

namespace Instance

def status {σ : Type} [World σ] (world : Option σ) (nested : NestedStatus) (inst : Instance) :
    String :=
  let name := inst.type.name ++ " '" ++ inst.id ++ "'"
  match inst.activity.status? world nested with
  | none => name
  | some text => name ++ ": " ++ text

end Instance

structure NodeStatus where
  id : String
  type : NodeType
  active : Bool
  line : String

namespace Run

/-- The status line of a run's current node; none once the run is over. -/
def status? {σ : Type} [World σ] (world : Option σ) : Run → Option String
  | .alone level => level.current?.map (·.status world .notRunning)
  | .hosting level inner =>
      level.current?.map (·.status world ((inner.status? world).elim .finished .at))

def nestedStatus {σ : Type} [World σ] (world : Option σ) : Run → NestedStatus
  | .alone _ => .notRunning
  | .hosting _ inner => (inner.status? world).elim .finished .at

def nodeStatuses {σ : Type} [World σ] (world : Option σ) (run : Run) : List NodeStatus :=
  run.level.instances.mapIdx fun index inst =>
    let active := run.level.current == some index
    { id := inst.id
      type := inst.type
      active
      line := inst.status world (if active then run.nestedStatus world else .notRunning) }

/-- One line on a run as a whole, its identity being given as text. -/
def summary (identity : String) (run : Run) : String :=
  let current :=
    match run.level.current? with
    | none => "None"
    | some inst => "Some(" ++ Text.quoted inst.id ++ ")"
  "GraphRunner \x7b run_id: " ++ identity ++ ", graph: " ++ Text.quoted run.level.graph.id ++
    ", current: " ++ current ++ ", ticks: " ++ toString run.level.ticks ++
    ", return_depth: " ++ toString run.level.returns.size ++ " \x7d"

end Run

end SceneFlow
