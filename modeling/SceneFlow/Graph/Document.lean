import SceneFlow.Graph.Basic
import SceneFlow.Json.Fields

/-!
# Graphs as documents

The document of a graph, read and written.

A graph and an actor slot may be given as an object or, field by field in order, as an array; a node
is always an object. The fields of a node's kind stand beside its id and its type. Fields that a
graph, a slot or a node's kind does not know are ignored, and most fields have a default.
-/

set_option autoImplicit false

namespace SceneFlow

/-! ## Reading -/

namespace Coordinates

def ofJson? : Json → Option Coordinates
  | .array [x, y, z] => do some ⟨← x.real?, ← y.real?, ← z.real?⟩
  | _ => none

end Coordinates

namespace ActorSlot

def fieldNames : List String :=
  ["id", "prefab", "local_position", "local_euler", "spawn_on_start", "properties"]

def propertiesOfJson? : Json → Option (Members OrderedDatum)
  | .object members =>
      (members.mapM fun (member : String × Json) =>
        (OrderedDatum.ofJson? member.2).map fun value => (member.1, value)).map Members.ofList
  | _ => none

def ofJson? (document : Json) : Option ActorSlot := do
  let fields ← document.record? fieldNames
  some
    { id := ← Json.required? "id" Json.text? fields
      prefab := ← Json.optional? "prefab" none Json.nullableText? fields
      position := ← Json.optional? "local_position" .zero Coordinates.ofJson? fields
      euler := ← Json.optional? "local_euler" .zero Coordinates.ofJson? fields
      spawnsOnStart := ← Json.optional? "spawn_on_start" true Json.flag? fields
      properties := ← Json.optional? "properties" .empty propertiesOfJson? fields }

def listOfJson? : Json → Option (List ActorSlot)
  | .array items => items.mapM ofJson?
  | _ => none

end ActorSlot

namespace NodeType

/-- The type of a node, by its name or by its position among the types. -/
def ofJson? : Json → Option NodeType
  | .string name => ofName? name
  | .number numeral => (numeral.number?.bind (·.below? all.length)).bind (all[·]?)
  | _ => none

end NodeType

namespace ObjectiveAction

/-- The action of an Objective node: its name, or an object with that name alone and nothing in
it. -/
def ofJson? : Json → Option ObjectiveAction
  | .string name => ofName? name
  | .object [(name, .null)] => ofName? name
  | .object [(name, .object [])] => ofName? name
  | _ => none

end ObjectiveAction

namespace NodeKind

def fieldNames : NodeType → List String
  | .start => []
  | .dialogue => ["sequence", "wait_for_completion"]
  | .delay => ["seconds"]
  | .waitForTrigger => ["trigger_id"]
  | .objective => ["objective_id", "action"]
  | .subFlow => ["graph"]
  | .branch => ["condition_ids", "next_ids"]
  | .sequence => ["step_ids"]
  | .loop => ["body_id", "iteration_limit"]

/-- What a node of a kind is given. The graph of a SubFlow node is read separately. -/
def ofMembers? {γ : Type} (type : NodeType) (nested : Option γ) (members : List (String × Json)) :
    Option (NodeKind γ) := do
  match type with
  | .start => some .start
  | .dialogue =>
      some (.dialogue (← Json.optional? "sequence" none Json.nullableText? members)
        (← Json.optional? "wait_for_completion" true Json.flag? members))
  | .delay => some (.delay (← Json.optional? "seconds" 1 Json.real? members))
  | .waitForTrigger => some (.waitForTrigger (← Json.optional? "trigger_id" "" Json.text? members))
  | .objective =>
      some (.objective (← Json.optional? "objective_id" "" Json.text? members)
        (← Json.optional? "action" .default ObjectiveAction.ofJson? members))
  | .subFlow => some (.subFlow nested)
  | .branch =>
      some (.branch (← Json.optional? "condition_ids" [] Json.texts? members)
        (← Json.optional? "next_ids" [] Json.texts? members))
  | .sequence => some (.sequence (← Json.optional? "step_ids" [] Json.texts? members))
  | .loop =>
      some (.loop (← Json.optional? "body_id" none Json.nullableText? members)
        (UInt32.ofNat (← Json.optional? "iteration_limit" 0 (Json.below? UInt32.size) members)))

end NodeKind

namespace Graph

def fieldNames : List String := ["id", "nodes", "actor_slots"]

def nodeFieldNames : List String := ["id", "next_id", "type"]

mutual

def ofJson? : Json → Option Graph
  | .object members =>
      if Json.once fieldNames members then do
        some
          { id := ← Json.required? "id" Json.text? members
            nodes := ← nodesAmong? members
            slots := ← Json.optional? "actor_slots" [] ActorSlot.listOfJson? members }
      else
        none
  | .array [id] => do some ⟨← id.text?, [], []⟩
  | .array [id, nodes] => do some ⟨← id.text?, ← nodesOfJson? nodes, []⟩
  | .array [id, nodes, slots] => do
      some ⟨← id.text?, ← nodesOfJson? nodes, ← ActorSlot.listOfJson? slots⟩
  | _ => none

def nodesAmong? : List (String × Json) → Option (List (Node Graph))
  | [] => some []
  | (name, value) :: rest => if name = "nodes" then nodesOfJson? value else nodesAmong? rest

def nodesOfJson? : Json → Option (List (Node Graph))
  | .array items => nodesOfItems? items
  | _ => none

def nodesOfItems? : List Json → Option (List (Node Graph))
  | [] => some []
  | item :: rest => do
      let node ← nodeOfJson? item
      let nodes ← nodesOfItems? rest
      some (node :: nodes)

def nodeOfJson? : Json → Option (Node Graph)
  | .object members => do
      let type ← Json.required? "type" NodeType.ofJson? members
      if Json.once nodeFieldNames members && Json.once (NodeKind.fieldNames type) members then do
        let nested ← if type = .subFlow then nestedAmong? members else some none
        some
          { id := ← Json.required? "id" Json.text? members
            nextId := ← Json.optional? "next_id" none Json.nullableText? members
            kind := ← NodeKind.ofMembers? type nested members }
      else
        none
  | _ => none

def nestedAmong? : List (String × Json) → Option (Option Graph)
  | [] => some none
  | (name, value) :: rest =>
      if name = "graph" then nestedOfJson? value else nestedAmong? rest

/-- The graph of a SubFlow node, which may be given as null. -/
def nestedOfJson? : Json → Option (Option Graph)
  | .null => some none
  | .object members => (ofJson? (.object members)).map some
  | .array items => (ofJson? (.array items)).map some
  | _ => none

end

/-- What is read of a graph's document: the fields of the graph and of its slots, and all of its
nodes, since the kind of a node decides which of its fields count. -/
def outline : Outline :=
  .fields [("id", .everything), ("nodes", .everything),
    ("actor_slots", .items (Json.recordOutline ActorSlot.fieldNames))]

def ofText? (text : String) : Option Graph :=
  (Json.ofText? outline text).bind ofJson?

end Graph

/-! ## Writing -/

namespace Coordinates

def toJson (point : Coordinates) : Json :=
  .array [.float32 point.x, .float32 point.y, .float32 point.z]

end Coordinates

namespace ActorSlot

def toJson (slot : ActorSlot) : Json :=
  .object
    [("id", .string slot.id),
     ("prefab", .string? slot.prefab),
     ("local_position", slot.position.toJson),
     ("local_euler", slot.euler.toJson),
     ("spawn_on_start", .bool slot.spawnsOnStart),
     ("properties", .object (slot.properties.mapValues OrderedDatum.toJson).entries)]

end ActorSlot

namespace Graph

mutual

def toJson : Graph → Json
  | ⟨id, nodes, slots⟩ =>
      .object
        [("id", .string id),
         ("nodes", .array (nodesToJson nodes)),
         ("actor_slots", .array (slots.map ActorSlot.toJson))]

def nodesToJson : List (Node Graph) → List Json
  | [] => []
  | node :: rest => nodeToJson node :: nodesToJson rest

/-- The document of a node. The node that follows it is left out where there is none. -/
def nodeToJson : Node Graph → Json
  | ⟨id, nextId, kind⟩ =>
      .object (("id", .string id) ::
        (nextId.toList.map fun next => ("next_id", .string next)) ++
        ("type", .string kind.type.name) :: kindMembers kind)

def kindMembers : NodeKind Graph → List (String × Json)
  | .start => []
  | .dialogue sequence waits =>
      [("sequence", .string? sequence), ("wait_for_completion", .bool waits)]
  | .delay seconds => [("seconds", .float32 seconds)]
  | .waitForTrigger trigger => [("trigger_id", .string trigger)]
  | .objective objective action =>
      [("objective_id", .string objective), ("action", .string action.name)]
  | .subFlow graph => [("graph", nestedToJson graph)]
  | .branch conditions targets =>
      [("condition_ids", .strings conditions), ("next_ids", .strings targets)]
  | .sequence steps => [("step_ids", .strings steps)]
  | .loop body limit => [("body_id", .string? body), ("iteration_limit", .nat limit.toNat)]

def nestedToJson : Option Graph → Json
  | none => .null
  | some graph => toJson graph

end

/-- The text of a graph, on many lines. -/
def toText (graph : Graph) : String :=
  graph.toJson.wideText

end Graph

end SceneFlow
