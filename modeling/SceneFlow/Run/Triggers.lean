/-!
# Trigger registries

Which nodes of a run wait for which triggers, in the order in which they began to wait. A node may
wait for a trigger more than once.
-/

set_option autoImplicit false

namespace SceneFlow

structure Registration where
  trigger : String
  node : Nat
deriving DecidableEq

/-- Registrations, the oldest first. -/
structure TriggerRegistry where
  registrations : List Registration
deriving DecidableEq

namespace TriggerRegistry

def empty : TriggerRegistry := ⟨[]⟩

def register (registry : TriggerRegistry) (node : Nat) (trigger : String) : TriggerRegistry :=
  ⟨registry.registrations ++ [⟨trigger, node⟩]⟩

/-- A node ends its oldest wait for a trigger, if it has one. -/
def unregister (registry : TriggerRegistry) (node : Nat) (trigger : String) : TriggerRegistry :=
  ⟨registry.registrations.erase ⟨trigger, node⟩⟩

/-- The nodes that wait for a trigger, the oldest wait first. -/
def waiting (registry : TriggerRegistry) (trigger : String) : List Nat :=
  (registry.registrations.filter (·.trigger == trigger)).map (·.node)

def isWaiting (registry : TriggerRegistry) (trigger : String) : Bool :=
  !(registry.waiting trigger).isEmpty

/-- The triggers that any node waits for, each once. -/
def triggers (registry : TriggerRegistry) : List String :=
  (registry.registrations.map (·.trigger)).eraseDups

def size (registry : TriggerRegistry) : Nat :=
  registry.registrations.length

def isEmpty (registry : TriggerRegistry) : Bool :=
  registry.registrations.isEmpty

/-- A wait counts for its own trigger alone, behind those that are older. -/
theorem waiting_register (registry : TriggerRegistry) (node : Nat) (trigger other : String) :
    (registry.register node trigger).waiting other =
      registry.waiting other ++ if trigger = other then [node] else [] := by
  by_cases same : trigger = other <;> simp [waiting, register, same]

/-- Ending a wait takes the node's oldest one for that trigger, and no other. -/
theorem waiting_unregister (registry : TriggerRegistry) (node : Nat) (trigger other : String) :
    (registry.unregister node trigger).waiting other =
      if trigger = other then (registry.waiting other).erase node else registry.waiting other := by
  rcases registry with ⟨registrations⟩
  simp only [unregister, waiting]
  induction registrations with
  | nil => simp
  | cons head rest ih =>
      rcases head with ⟨headTrigger, headNode⟩
      rw [List.erase_cons]
      by_cases sameTrigger : headTrigger = trigger <;> by_cases sameNode : headNode = node <;>
        by_cases asked : headTrigger = other <;> grind

end TriggerRegistry

end SceneFlow
