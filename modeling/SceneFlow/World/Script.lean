import SceneFlow.Json.Fields
import SceneFlow.Members

/-!
# World scripts

The setup of a scripted world: which conditions hold at first, how long dialogue plays, and which
triggers its host signals after how many ticks. Scripts are read from documents and written to them.
-/

set_option autoImplicit false

namespace SceneFlow

/-- A trigger to be signalled once `atTick` ticks have run. -/
structure ScheduledTrigger where
  atTick : Nat
  trigger : String
deriving DecidableEq

structure Script where
  /-- Conditions that hold at first. -/
  conditions : List String
  /-- How many seconds each sequence of dialogue plays. -/
  dialogueSeconds : Members Float32
  /-- How many seconds a sequence plays that is not listed; none at all if that is zero. -/
  defaultSeconds : Float32
  triggers : List ScheduledTrigger

namespace Script

def empty : Script := ⟨[], .empty, 0, []⟩

def withCondition (script : Script) (condition : String) : Script :=
  { script with conditions := script.conditions ++ [condition] }

def withDialogue (script : Script) (sequence : String) (seconds : Float32) : Script :=
  { script with dialogueSeconds := script.dialogueSeconds.insert sequence seconds }

def withDefaultSeconds (script : Script) (seconds : Float32) : Script :=
  { script with defaultSeconds := seconds }

def withTrigger (script : Script) (atTick : Nat) (trigger : String) : Script :=
  { script with triggers := script.triggers ++ [⟨atTick, trigger⟩] }

/-- The triggers that are due after exactly `tick` ticks, in the order of the script. -/
def triggersAt (script : Script) (tick : Nat) : List String :=
  (script.triggers.filter (·.atTick == tick)).map (·.trigger)

def duration (script : Script) (sequence : String) : Float32 :=
  (script.dialogueSeconds.value? sequence).getD script.defaultSeconds

/-- Whether two scripts agree; seconds compare as binary32 numbers. -/
def same (left right : Script) : Bool :=
  left.conditions == right.conditions &&
    left.dialogueSeconds.same (· == ·) right.dialogueSeconds &&
    left.defaultSeconds == right.defaultSeconds &&
    left.triggers == right.triggers

instance : BEq Script := ⟨same⟩

end Script

/-! ## Documents -/

namespace ScheduledTrigger

def fieldNames : List String := ["at_tick", "trigger_id"]

def ofJson? (document : Json) : Option ScheduledTrigger := do
  let fields ← document.record? fieldNames
  some
    { atTick := ← Json.required? "at_tick" (Json.below? UInt64.size) fields
      trigger := ← Json.required? "trigger_id" Json.text? fields }

def listOfJson? : Json → Option (List ScheduledTrigger)
  | .array items => items.mapM ofJson?
  | _ => none

def toJson (scheduled : ScheduledTrigger) : Json :=
  .object [("at_tick", .nat scheduled.atTick), ("trigger_id", .string scheduled.trigger)]

end ScheduledTrigger

namespace Script

def fieldNames : List String :=
  ["conditions", "dialogue_seconds", "default_dialogue_seconds", "triggers"]

def secondsOfJson? : Json → Option (Members Float32)
  | .object members =>
      (members.mapM fun (member : String × Json) =>
        member.2.real?.map fun seconds => (member.1, seconds)).map Members.ofList
  | _ => none

/-- The script of a document. Every field may be missing. -/
def ofJson? (document : Json) : Option Script := do
  let fields ← document.record? fieldNames
  some
    { conditions := ← Json.optional? "conditions" [] Json.texts? fields
      dialogueSeconds := ← Json.optional? "dialogue_seconds" .empty secondsOfJson? fields
      defaultSeconds := ← Json.optional? "default_dialogue_seconds" 0 Json.real? fields
      triggers := ← Json.optional? "triggers" [] ScheduledTrigger.listOfJson? fields }

def outline : Outline :=
  .fields [("conditions", .everything), ("dialogue_seconds", .everything),
    ("default_dialogue_seconds", .everything),
    ("triggers", .items (Json.recordOutline ScheduledTrigger.fieldNames))]

def ofText? (text : String) : Option Script :=
  (Json.ofText? outline text).bind ofJson?

def toJson (script : Script) : Json :=
  .object
    [("conditions", .strings script.conditions),
     ("dialogue_seconds", .object (script.dialogueSeconds.mapValues Json.float32).entries),
     ("default_dialogue_seconds", .float32 script.defaultSeconds),
     ("triggers", .array (script.triggers.map ScheduledTrigger.toJson))]

end Script

end SceneFlow
