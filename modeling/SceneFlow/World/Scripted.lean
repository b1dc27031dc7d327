import SceneFlow.World.Basic
import SceneFlow.World.Script

/-!
# Scripted worlds

A world that needs no host: dialogue plays for the time that a script gives it, conditions hold
until they are set otherwise, and every command is kept in a journal.
-/

set_option autoImplicit false

namespace SceneFlow

inductive ObjectiveState where
  | inactive
  | active
  | completed
deriving DecidableEq

namespace ObjectiveState

def name : ObjectiveState → String
  | inactive => "Inactive"
  | active => "Active"
  | completed => "Completed"

end ObjectiveState

structure ScriptedWorld where
  script : Script
  conditions : List String
  /-- The remaining seconds of the sequences that play. -/
  remaining : Members Float32
  objectives : Members ObjectiveState
  /-- The commands received, the oldest first. -/
  journal : List Command

namespace ScriptedWorld

def ofScript (script : Script) : ScriptedWorld :=
  { script, conditions := script.conditions, remaining := .empty, objectives := .empty,
    journal := [] }

/-- Receives a command. Dialogue plays only if it lasts. -/
def perform (command : Command) (world : ScriptedWorld) : ScriptedWorld :=
  let world := { world with journal := world.journal ++ [command] }
  match command with
  | .play sequence =>
      let seconds := world.script.duration sequence
      if 0 < seconds then { world with remaining := world.remaining.insert sequence seconds }
      else world
  | .activate objective => { world with objectives := world.objectives.insert objective .active }
  | .complete objective => { world with objectives := world.objectives.insert objective .completed }

instance : World ScriptedWorld where
  perform := perform
  isPlaying world sequence := (world.remaining.value? sequence).isSome
  holds world condition := world.conditions.contains condition

/-- Lets some seconds pass; dialogue ends once no time remains. -/
def advance (seconds : Float32) (world : ScriptedWorld) : ScriptedWorld :=
  { world with
    remaining :=
      (world.remaining.mapValues (· - seconds)).filter fun _ left => 0 < left }

def skip (sequence : String) (world : ScriptedWorld) : ScriptedWorld :=
  { world with remaining := world.remaining.erase sequence }

def setCondition (condition : String) (value : Bool) (world : ScriptedWorld) : ScriptedWorld :=
  { world with
    conditions :=
      if value then
        if world.conditions.contains condition then world.conditions
        else world.conditions ++ [condition]
      else world.conditions.filter (· ≠ condition) }

def objectiveState (world : ScriptedWorld) (objective : String) : ObjectiveState :=
  (world.objectives.value? objective).getD .inactive

def playing (world : ScriptedWorld) : List String :=
  world.remaining.names

def takeJournal (world : ScriptedWorld) : List Command × ScriptedWorld :=
  (world.journal, { world with journal := [] })

end ScriptedWorld

end SceneFlow
