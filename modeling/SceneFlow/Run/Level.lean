import SceneFlow.Event.Basic
import SceneFlow.Run.Activity
import SceneFlow.Run.ReturnStack
import SceneFlow.Run.Triggers

/-!
# Levels of a run

A level is one graph being run, without the runs nested in it: the activities of its nodes, the node
that has control, the triggers it waits for and the stack of nodes to return to. This module holds
what a level does on its own: entering and leaving a node, and finding the node that comes next.
-/

set_option autoImplicit false

namespace SceneFlow

structure Instance where
  id : String
  nextId : Option String
  activity : Activity

namespace Instance

def ofNode (node : Node Graph) : Instance :=
  ⟨node.id, node.nextId, .ofKind node.kind⟩

def node (inst : Instance) : Node Graph :=
  ⟨inst.id, inst.nextId, inst.activity.kind⟩

@[simp] theorem node_ofNode (node : Node Graph) : (ofNode node).node = node := by
  simp [Instance.node, ofNode]

def type (inst : Instance) : NodeType :=
  inst.activity.kind.type

def next? (inst : Instance) : Option String :=
  nonEmpty? inst.nextId

/-- Where control goes once a visit is over. -/
def successor? (inst : Instance) : Option String :=
  inst.activity.target?.or (if inst.activity.fallsThrough then inst.next? else none)

end Instance

/-- One graph being run. -/
structure Level where
  id : RunId
  graph : Graph
  /-- The nodes that have an id, in the order of the graph. -/
  instances : List Instance
  /-- The number of the node that has control; none once the level is finished. -/
  current : Option Nat
  waits : TriggerRegistry
  returns : ReturnStack
  /-- Ticks that reached a node. -/
  ticks : Nat
  /-- Visits that were begun. -/
  enters : Nat

inductive Destination where
  /-- The node that the successor's id stands for. -/
  | successor (index : Nat)
  /-- The chain ends, and a node on the return stack takes over. -/
  | resumption (index : Nat) (returns : ReturnStack)
  /-- The chain ends with nothing to return to. -/
  | ending
  /-- The successor's id stands for no node. -/
  | unresolved (id : String)

namespace Level

/-- A level of a graph, before its first node is entered. -/
def ofGraph (id : RunId) (graph : Graph) : Level :=
  { id, graph, instances := graph.named.map Instance.ofNode, current := none, waits := .empty,
    returns := .empty, ticks := 0, enters := 0 }

def isFinished (level : Level) : Bool :=
  level.current.isNone

def current? (level : Level) : Option Instance :=
  level.current.bind (level.instances[·]?)

def withActivity (level : Level) (index : Nat) (activity : Activity) : Level :=
  { level with
    instances := level.instances.modify index fun inst => { inst with activity } }

def event (level : Level) (report : Report) : Event :=
  ⟨level.id, report⟩

/-! ## Entering and leaving nodes -/

/-- Registers a WaitForTrigger node, unless its trigger is empty: nothing could wake it, then. -/
def waitsOnEntry (index : Nat) (activity : Activity) (waits : TriggerRegistry) : TriggerRegistry :=
  match activity with
  | .waitForTrigger trigger _ => if trigger = "" then waits else waits.register index trigger
  | _ => waits

def waitsOnExit (index : Nat) (activity : Activity) (waits : TriggerRegistry) : TriggerRegistry :=
  match activity with
  | .waitForTrigger trigger _ => if trigger = "" then waits else waits.unregister index trigger
  | _ => waits

/-- Takes a Sequence node with steps off the stack, so that it stands there once at most. -/
def returnsOnEntry (index : Nat) (activity : Activity) (returns : ReturnStack) : ReturnStack :=
  match activity with
  | .sequence steps _ => if steps.isEmpty then returns else returns.removeAll index
  | _ => returns

/-- Puts a Sequence node that has a step to run on the stack. -/
def returnsOnExit (index : Nat) (activity : Activity) (returns : ReturnStack) : ReturnStack :=
  if activity.hasStep then returns.push index else returns

def enter {σ : Type} [World σ] (world : Option σ) (index : Nat) (level : Level) : Level :=
  let level := { level with current := some index, enters := level.enters + 1 }
  match level.instances[index]? with
  | none => level
  | some inst =>
      { level.withActivity index (inst.activity.enter world) with
        waits := waitsOnEntry index inst.activity level.waits
        returns := returnsOnEntry index inst.activity level.returns }

def leave (index : Nat) (level : Level) : Level :=
  match level.instances[index]? with
  | none => level
  | some inst =>
      { level with
        waits := waitsOnExit index inst.activity level.waits
        returns := returnsOnExit index inst.activity level.returns }

def enteredReport (index : Nat) (level : Level) : List Event :=
  match level.instances[index]? with
  | none => []
  | some inst => [level.event (.nodeEntered inst.id inst.type level.ticks)]

def exitedReport (index : Nat) (level : Level) : List Event :=
  match level.instances[index]? with
  | none => []
  | some inst => [level.event (.nodeExited inst.id inst.type level.ticks)]

def finish (level : Level) : Level :=
  { level with current := none }

def finishedReport (level : Level) : Event :=
  level.event (.runFinished level.graph.id level.ticks)

/-! ## What comes next -/

def destination (index : Nat) (level : Level) : Destination :=
  match level.instances[index]?.bind (·.successor?) with
  | some id =>
      match level.graph.index? id with
      | some next => .successor next
      | none => .unresolved id
  | none =>
      match level.returns.popValid (· < level.instances.length) with
      | (some next, returns) => .resumption next returns
      | (none, _) => .ending

/-! ## Signals -/

/-- Wakes one node, and counts it if it waits for a trigger. -/
def wake (state : Level × Nat) (index : Nat) : Level × Nat :=
  match state.1.instances[index]?.bind (·.activity.signalled?) with
  | some activity => (state.1.withActivity index activity, state.2 + 1)
  | none => state

/-- Wakes every node that waits for a trigger, and counts them. Signals are not kept for later. -/
def signal (trigger : String) (level : Level) : Level × Nat :=
  (level.waits.waiting trigger).foldl wake (level, 0)

end Level

end SceneFlow
