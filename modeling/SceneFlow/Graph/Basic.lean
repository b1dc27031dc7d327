import SceneFlow.Datum

/-!
# Flow graphs

A flow graph is a list of nodes. Its first node is the start, and the nodes name each other by id. A
SubFlow node holds a graph of its own, so nodes are described over an arbitrary type of nested
graphs, and graphs close the circle.

Ids follow two rules everywhere. An empty id is no id: nothing refers to it, and a node that has it
cannot be reached. Where an id is given to more than one node, the last one has it.
-/

set_option autoImplicit false

namespace SceneFlow

/-! ## Nodes -/

inductive ObjectiveAction where
  | activate
  | complete
deriving DecidableEq

namespace ObjectiveAction

/-- The action of an Objective node that names none. -/
def default : ObjectiveAction := .activate

def name : ObjectiveAction → String
  | .activate => "Activate"
  | .complete => "Complete"

def ofName? (name : String) : Option ObjectiveAction :=
  [activate, complete].find? (·.name == name)

end ObjectiveAction

inductive NodeType where
  | start
  | dialogue
  | delay
  | waitForTrigger
  | objective
  | subFlow
  | branch
  | sequence
  | loop
deriving DecidableEq

namespace NodeType

/-- All kinds of node. A document may give a kind by its position in this list. -/
def all : List NodeType :=
  [start, dialogue, delay, waitForTrigger, objective, subFlow, branch, sequence, loop]

def name : NodeType → String
  | start => "Start"
  | dialogue => "Dialogue"
  | delay => "Delay"
  | waitForTrigger => "WaitForTrigger"
  | objective => "Objective"
  | subFlow => "SubFlow"
  | branch => "Branch"
  | sequence => "Sequence"
  | loop => "Loop"

def ofName? (name : String) : Option NodeType :=
  all.find? (·.name == name)

def description : NodeType → String
  | start => "Entry point, completes immediately"
  | dialogue => "Plays a dialogue sequence, optionally waiting for it to end"
  | delay => "Waits for a number of seconds"
  | waitForTrigger => "Blocks until a named trigger is signalled"
  | objective => "Activates or completes an objective"
  | subFlow => "Runs a nested graph to completion"
  | branch => "Follows the first option whose condition holds"
  | sequence => "Runs each step chain in order, resuming via the return stack"
  | loop => "Re-enters its body until the iteration limit is reached"

end NodeType

/-- What a node of each kind is given, with `γ` for the graphs of SubFlow nodes. -/
inductive NodeKind (γ : Type) where
  | start
  /-- Plays a sequence of dialogue, and waits for its end if `waits` is set. -/
  | dialogue (sequence : Option String) (waits : Bool)
  | delay (seconds : Float32)
  | waitForTrigger (trigger : String)
  | objective (objective : String) (action : ObjectiveAction)
  | subFlow (graph : Option γ)
  /-- Goes on at the target of the first condition that holds. -/
  | branch (conditions targets : List String)
  /-- Runs the chains of its steps one after the other. -/
  | sequence (steps : List String)
  /-- Runs its body again and again, `limit` times if that is not zero. -/
  | loop (body : Option String) (limit : UInt32)

structure Node (γ : Type) where
  id : String
  nextId : Option String
  kind : NodeKind γ

/-- An id, unless it is missing or empty. -/
def nonEmpty? (id : Option String) : Option String :=
  id.filter (· ≠ "")

namespace NodeKind

variable {γ : Type}

def type : NodeKind γ → NodeType
  | .start => .start
  | .dialogue .. => .dialogue
  | .delay _ => .delay
  | .waitForTrigger _ => .waitForTrigger
  | .objective .. => .objective
  | .subFlow _ => .subFlow
  | .branch .. => .branch
  | .sequence _ => .sequence
  | .loop .. => .loop

def nested? : NodeKind γ → Option γ
  | .subFlow graph => graph
  | _ => none

end NodeKind

inductive ReferenceField where
  | next
  | targets
  | steps
  | body
deriving DecidableEq

namespace ReferenceField

def name : ReferenceField → String
  | next => "next_id"
  | targets => "next_ids"
  | steps => "step_ids"
  | body => "body_id"

end ReferenceField

namespace Node

variable {γ : Type}

def ofKind (id : String) (kind : NodeKind γ) : Node γ :=
  { id, nextId := none, kind }

def start (id : String) : Node γ :=
  ofKind id .start

def dialogue (id sequence : String) (waits : Bool) : Node γ :=
  ofKind id (.dialogue (some sequence) waits)

def delay (id : String) (seconds : Float32) : Node γ :=
  ofKind id (.delay seconds)

def waitForTrigger (id trigger : String) : Node γ :=
  ofKind id (.waitForTrigger trigger)

def objective (id objective : String) (action : ObjectiveAction) : Node γ :=
  ofKind id (.objective objective action)

def subFlow (id : String) (graph : γ) : Node γ :=
  ofKind id (.subFlow (some graph))

/-- A Branch node with pairs of a condition and its target, in the order in which they are tried. -/
def branch (id : String) (options : List (String × String)) : Node γ :=
  ofKind id (.branch (options.map Prod.fst) (options.map Prod.snd))

def sequence (id : String) (steps : List String) : Node γ :=
  ofKind id (.sequence steps)

/-- A Loop node. A limit of zero means no limit. -/
def loop (id body : String) (limit : UInt32) : Node γ :=
  ofKind id (.loop (some body) limit)

def followedBy (node : Node γ) (next : String) : Node γ :=
  { node with nextId := some next }

def type (node : Node γ) : NodeType :=
  node.kind.type

def next? (node : Node γ) : Option String :=
  nonEmpty? node.nextId

def kindReferences : NodeKind γ → List (ReferenceField × String)
  | .branch _ targets => (targets.filter (· ≠ "")).map (.targets, ·)
  | .sequence steps => (steps.filter (· ≠ "")).map (.steps, ·)
  | .loop body _ => ((nonEmpty? body).toList).map (.body, ·)
  | _ => []

/-- Every id that a node refers to, with the field it stands in. -/
def references (node : Node γ) : List (ReferenceField × String) :=
  node.next?.toList.map (.next, ·) ++ kindReferences node.kind

end Node

/-! ## Actor slots -/

structure Coordinates where
  x : Float32
  y : Float32
  z : Float32

namespace Coordinates

def zero : Coordinates := ⟨0, 0, 0⟩

def same (left right : Coordinates) : Bool :=
  left.x == right.x && left.y == right.y && left.z == right.z

end Coordinates

/-- An actor that a scene can bind or spawn. A run takes no notice of it. -/
structure ActorSlot where
  id : String
  prefab : Option String
  position : Coordinates
  euler : Coordinates
  /-- Whether the actor is to be created when the flow starts. -/
  spawnsOnStart : Bool
  properties : Members OrderedDatum

namespace ActorSlot

def ofId (id : String) : ActorSlot :=
  { id, prefab := none, position := .zero, euler := .zero, spawnsOnStart := true,
    properties := .empty }

def withPrefab (slot : ActorSlot) (name : String) : ActorSlot :=
  { slot with prefab := some name }

def withPosition (slot : ActorSlot) (position : Coordinates) : ActorSlot :=
  { slot with position }

def withProperty (slot : ActorSlot) (name : String) (value : OrderedDatum) : ActorSlot :=
  { slot with properties := slot.properties.insert name value }

/-- The same slot, not to be created when the flow starts. -/
def spawnedByHand (slot : ActorSlot) : ActorSlot :=
  { slot with spawnsOnStart := false }

/-- Whether two slots agree; coordinates compare as binary32 numbers. -/
def same (left right : ActorSlot) : Bool :=
  left.id == right.id && left.prefab == right.prefab && left.position.same right.position &&
    left.euler.same right.euler && left.spawnsOnStart == right.spawnsOnStart &&
    left.properties.same OrderedDatum.same right.properties

end ActorSlot

/-! ## Graphs -/

structure Graph where
  id : String
  nodes : List (Node Graph)
  slots : List ActorSlot

/-- The last position at which an id stands in a list. -/
def lastPosition? (id : String) : List String → Option Nat
  | [] => none
  | head :: rest =>
      match lastPosition? id rest with
      | some position => some (position + 1)
      | none => if head = id then some 0 else none

namespace Graph

def empty : Graph := ⟨"", [], []⟩

def ofId (id : String) : Graph := ⟨id, [], []⟩

def withNode (graph : Graph) (node : Node Graph) : Graph :=
  { graph with nodes := graph.nodes ++ [node] }

def withSlot (graph : Graph) (slot : ActorSlot) : Graph :=
  { graph with slots := graph.slots ++ [slot] }

/-- The node a run begins with. -/
def start? (graph : Graph) : Option (Node Graph) :=
  graph.nodes.head?

/-- The position of the first node with an id; an empty id has none. -/
def position? (graph : Graph) (id : String) : Option Nat :=
  if id = "" then none else graph.nodes.findIdx? (·.id == id)

def node? (graph : Graph) (id : String) : Option (Node Graph) :=
  (graph.position? id).bind (graph.nodes[·]?)

def nodeIds (graph : Graph) : List String :=
  graph.nodes.map (·.id)

def autoSpawnSlots (graph : Graph) : List ActorSlot :=
  graph.slots.filter (·.spawnsOnStart)

/-! ### Resolution of ids

A run numbers the nodes that have an id, in their order, and finds the last one with a given id. -/

/-- The nodes that have an id. -/
def named (graph : Graph) : List (Node Graph) :=
  graph.nodes.filter (·.id ≠ "")

/-- The number of the node that an id stands for. -/
def index? (graph : Graph) (id : String) : Option Nat :=
  lastPosition? id (graph.named.map (·.id))

def startIndex? (graph : Graph) : Option Nat :=
  graph.start?.bind fun node => graph.index? node.id

/-- The graph of the SubFlow node with a given number. -/
def nestedAt? (graph : Graph) (index : Nat) : Option Graph :=
  graph.named[index]?.bind (·.kind.nested?)

/-! ### Nesting -/

mutual

/-- How many graphs are nested in one another inside of a graph: zero without SubFlow graphs. -/
def nesting : Graph → Nat
  | ⟨_, nodes, _⟩ => nestingOfNodes nodes

def nestingOfNodes : List (Node Graph) → Nat
  | [] => 0
  | node :: rest => max (nestingOfNode node) (nestingOfNodes rest)

def nestingOfNode : Node Graph → Nat
  | ⟨_, _, kind⟩ => nestingOfKind kind

def nestingOfKind : NodeKind Graph → Nat
  | .subFlow graph => nestingOfNested graph
  | _ => 0

def nestingOfNested : Option Graph → Nat
  | none => 0
  | some graph => nesting graph + 1

end

theorem nestingOfNode_le {node : Node Graph} {nodes : List (Node Graph)} (member : node ∈ nodes) :
    nestingOfNode node ≤ nestingOfNodes nodes := by
  induction member with
  | head rest => simp only [nestingOfNodes]; omega
  | tail other _ ih => simp only [nestingOfNodes]; omega

theorem nesting_lt_of_mem {graph inner : Graph} {node : Node Graph} (member : node ∈ graph.nodes)
    (holds : node.kind.nested? = some inner) : inner.nesting < graph.nesting := by
  have bound := nestingOfNode_le member
  rcases graph with ⟨id, nodes, slots⟩
  rcases node with ⟨nodeId, nextId, kind⟩
  cases kind <;> simp only [NodeKind.nested?, reduceCtorEq] at holds
  subst holds
  simp only [nestingOfNode, nestingOfKind, nestingOfNested] at bound
  simp only [nesting]
  omega

theorem mem_nodes_of_mem_named {graph : Graph} {node : Node Graph} (member : node ∈ graph.named) :
    node ∈ graph.nodes :=
  (List.mem_filter.mp member).1

theorem nesting_lt_of_nestedAt? {graph inner : Graph} {index : Nat}
    (found : graph.nestedAt? index = some inner) : inner.nesting < graph.nesting := by
  obtain ⟨node, atIndex, holds⟩ := Option.bind_eq_some_iff.mp found
  exact nesting_lt_of_mem (mem_nodes_of_mem_named (List.mem_of_getElem? atIndex)) holds

end Graph

end SceneFlow
