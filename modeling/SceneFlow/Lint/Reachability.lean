import SceneFlow.Graph.Basic

/-!
# Reachability

Which nodes of a graph control can come to from its first node along the ids that nodes refer to.
Only the node that an id stands for counts: a node whose id is given again later is not part of
this.
-/

set_option autoImplicit false

namespace SceneFlow

namespace Graph

/-- The nodes that ids stand for, in the order of the graph. -/
def winners (graph : Graph) : List (Node Graph) :=
  (graph.named.zipIdx.filter fun (node, index) => graph.index? node.id == some index).map Prod.fst

def resolve? (graph : Graph) (id : String) : Option (Node Graph) :=
  (graph.index? id).bind (graph.named[·]?)

def resolves (graph : Graph) (id : String) : Bool :=
  (graph.index? id).isSome

/-- The ids of the nodes that the node with an id refers to. -/
def successors (graph : Graph) (id : String) : List String :=
  match graph.resolve? id with
  | some node => (node.references.map Prod.snd).filter graph.resolves
  | none => []

/-- Everything that can be reached in at most `rounds` steps from the frontier or was seen before.
Each round goes one step further from what the round before it found. -/
def explore (graph : Graph) : (rounds : Nat) → (seen frontier : List String) → List String
  | 0, seen, _ => seen
  | rounds + 1, seen, frontier =>
      let found := (frontier.flatMap graph.successors).eraseDups.filter (!seen.contains ·)
      if found.isEmpty then seen else explore graph rounds (seen ++ found) found

/-- The ids that can be reached from an id, the id itself included. There are no more rounds than
nodes, since each finds a node that was not seen before. -/
def reachableFrom (graph : Graph) (id : String) : List String :=
  graph.explore graph.named.length [id] [id]

end Graph

end SceneFlow
