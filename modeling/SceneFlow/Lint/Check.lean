import SceneFlow.Lint.Basic
import SceneFlow.Lint.Reachability

/-!
# Linting

Finds the mistakes that authors of graphs make. A run never asks: it ends or loops the way the rules
of control say. The graphs of SubFlow nodes are linted where their nodes stand, unless the id of
such a node is given again later.
-/

set_option autoImplicit false

namespace SceneFlow

namespace Lint

def about (path : String) (node : Node Graph) (kind : IssueKind) : Issue :=
  { path, node := some node.id, kind }

/-- A first node that is no Start node. -/
def startIssues (path : String) (start : Node Graph) : List Issue :=
  if start.type = .start then [] else [about path start (.startNotStart start.type)]

/-- Nodes without an id, and the second node of every id that is given more than once. -/
def idIssues (path : String) (nodes : List (Node Graph)) : List Issue :=
  nodes.zipIdx.flatMap fun (node, position) =>
    let before := (nodes.take position).filter (·.id == node.id)
    if node.id = "" then [{ path, node := none, kind := .emptyNodeId position }]
    else if before.length = 1 then [about path node .duplicateId]
    else []

/-- References of a node to ids that no node has. -/
def referenceIssues (path : String) (graph : Graph) (node : Node Graph) : List Issue :=
  node.references.filterMap fun (field, target) =>
    if graph.resolves target then none
    else some (about path node (.unresolvedReference field target))

/-- What is odd about what a node is given, nested graphs aside. -/
def kindIssues (path : String) (node : Node Graph) : List Issue :=
  match node.kind with
  | .sequence _ => node.next?.toList.map fun next => about path node (.ignoredSequenceNext next)
  | .branch conditions targets =>
      if conditions.length = targets.length then []
      else [about path node (.mismatchedBranch conditions.length targets.length)]
  | .loop body _ =>
      if (nonEmpty? body).isNone then [about path node .loopWithoutBody] else []
  | .waitForTrigger trigger =>
      if trigger = "" then [about path node .missingTriggerId] else []
  | .dialogue sequence _ =>
      if (nonEmpty? sequence).isNone then [about path node .missingDialogue] else []
  | .subFlow none => [about path node .missingSubFlow]
  | .subFlow (some _) | .start | .delay _ | .objective .. => []

/-- Nodes that control cannot come to. Nothing is said where the first node has no id. -/
def reachabilityIssues (path : String) (graph : Graph) (start : Node Graph) : List Issue :=
  if graph.resolves start.id then
    let reachable := graph.reachableFrom start.id
    (graph.winners.filter fun node => !reachable.contains node.id).map (about path · .unreachable)
  else
    []

theorem mem_nodes_of_mem_winners {graph : Graph} {node : Node Graph}
    (member : node ∈ graph.winners) : node ∈ graph.nodes := by
  obtain ⟨pair, filtered, rfl⟩ := List.mem_map.mp member
  have inNamed := List.fst_mem_of_mem_zipIdx (List.mem_filter.mp filtered).1
  exact Graph.mem_nodes_of_mem_named inNamed

/-- The findings in a graph that lies at a path. -/
def issues (path : String) (graph : Graph) : List Issue :=
  match graph.start? with
  | none => [{ path, node := none, kind := .emptyGraph }]
  | some start =>
      startIssues path start ++ idIssues path graph.nodes ++
        (graph.winners.attach.flatMap fun ⟨node, _member⟩ =>
          referenceIssues path graph node ++ kindIssues path node ++
            match _holds : node.kind.nested? with
            | some nested => issues (path ++ "/" ++ node.id) nested
            | none => []) ++
        reachabilityIssues path graph start
termination_by graph.nesting
decreasing_by exact Graph.nesting_lt_of_mem (mem_nodes_of_mem_winners _member) _holds

end Lint

namespace Graph

/-- The name that the path of every finding in a graph begins with. -/
def lintRoot (graph : Graph) : String :=
  if graph.id = "" then "(unnamed)" else graph.id

def lint (graph : Graph) : LintReport :=
  ⟨Lint.issues graph.lintRoot graph⟩

end Graph

end SceneFlow
