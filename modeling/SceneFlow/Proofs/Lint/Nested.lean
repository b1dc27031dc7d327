import SceneFlow.Proofs.Lint.Reachability

/-!
# Nested graphs in a report

What a report says of a graph that is nested in another one stands in one piece, where the node that
holds the graph is linted. It is the report that the graph has by itself, except that paths begin
with the place of the node instead of the name of the graph. A graph that is nested in any other
node than a winning one is left alone.
-/

set_option autoImplicit false

namespace SceneFlow

/-- The same finding at two places: the path begins with `path` instead of `root`, and nothing else
differs. -/
structure Issue.Moved (root path : String) (before after : Issue) : Prop where
  severity : after.severity = before.severity
  node : after.node = before.node
  kind : after.kind = before.kind
  place : ∃ rest, before.path = root ++ rest ∧ after.path = path ++ rest

namespace Lint

variable {path innerPath : String} {graph inner : Graph}

/-! ## Places -/

/-- The finding, with its path going on from another one. -/
def within (root : String) (issue : Issue) : Issue :=
  { issue with path := root ++ issue.path }

section Within

variable (root rest : String)

theorem startIssues_within (start : Node Graph) :
    startIssues (root ++ rest) start = (startIssues rest start).map (within root) := by
  unfold startIssues
  split <;> rfl

theorem idIssues_within (nodes : List (Node Graph)) :
    idIssues (root ++ rest) nodes = (idIssues rest nodes).map (within root) := by
  unfold idIssues
  rw [List.map_flatMap]
  refine List.flatMap_congr fun entry _ => ?_
  obtain ⟨node, position⟩ := entry
  dsimp only
  split
  · rfl
  · split <;> rfl

theorem referenceIssues_within (graph : Graph) (node : Node Graph) :
    referenceIssues (root ++ rest) graph node =
      (referenceIssues rest graph node).map (within root) := by
  unfold referenceIssues
  rw [List.map_filterMap]
  refine List.filterMap_congr fun reference _ => ?_
  obtain ⟨field, target⟩ := reference
  dsimp only
  split <;> rfl

theorem kindIssues_within (node : Node Graph) :
    kindIssues (root ++ rest) node = (kindIssues rest node).map (within root) := by
  obtain ⟨id, nextId, kind⟩ := node
  cases kind with
  | sequence steps =>
      simp only [kindIssues, List.map_map]
      rfl
  | branch | loop | waitForTrigger | dialogue =>
      simp only [kindIssues]
      split <;> rfl
  | subFlow graph => cases graph <;> rfl
  | start | delay | objective => rfl

theorem reachabilityIssues_within (graph : Graph) (start : Node Graph) :
    reachabilityIssues (root ++ rest) graph start =
      (reachabilityIssues rest graph start).map (within root) := by
  unfold reachabilityIssues
  split
  · rw [List.map_map]
    rfl
  · rfl

end Within

/-- Where a graph lies decides about nothing but how the paths begin. -/
theorem issues_within (root rest : String) (graph : Graph) :
    issues (root ++ rest) graph = (issues rest graph).map (within root) := by
  have inside : ∀ node ∈ graph.winners,
      node.kind.nested?.toList.flatMap (issues (root ++ rest ++ "/" ++ node.id)) =
        (node.kind.nested?.toList.flatMap (issues (rest ++ "/" ++ node.id))).map
          (within root) := by
    intro node member
    cases holds : node.kind.nested? with
    | none => rfl
    | some nested =>
        have smaller := Graph.nesting_lt_of_mem (mem_nodes_of_mem_winners member) holds
        have below := issues_within root (rest ++ "/" ++ node.id) nested
        simpa only [String.append_assoc, Option.toList_some, List.flatMap_singleton] using below
  rw [issues_eq, issues_eq]
  cases graph.start? with
  | none => rfl
  | some start =>
      simp only [List.map_append, List.map_flatMap, startIssues_within, idIssues_within,
        reachabilityIssues_within]
      congr 2
      refine List.flatMap_congr fun node member => ?_
      rw [referenceIssues_within, kindIssues_within, inside node member, List.map_flatMap]
termination_by graph.nesting

theorem moved_within (root path : String) (issue : Issue) :
    (within root issue).Moved root path (within path issue) where
  severity := rfl
  node := rfl
  kind := rfl
  place := ⟨issue.path, rfl, rfl⟩

theorem moved_issues (root path : String) (graph : Graph) :
    List.Forall₂ (Issue.Moved root path) (issues root graph) (issues path graph) := by
  have atRoot := issues_within root "" graph
  have atPath := issues_within path "" graph
  rw [String.append_empty] at atRoot atPath
  rw [atRoot, atPath, List.forall₂_map_left_iff, List.forall₂_map_right_iff, List.forall₂_same]
  exact fun issue _ => moved_within root path issue

/-! ## The order of a report -/

/-- The findings in what a node is given. -/
def payloadIssues (path : String) (node : Node Graph) : List Issue :=
  kindIssues path node ++ node.kind.nested?.toList.flatMap (issues (path ++ "/" ++ node.id))

/-- The findings in a graph that come before those in what a winning node is given, `earlier` being
the winning nodes in front of it. -/
def issuesBefore (path : String) (graph : Graph) (earlier : List (Node Graph))
    (node : Node Graph) : List Issue :=
  graph.start?.toList.flatMap (startIssues path) ++ idIssues path graph.nodes ++
    earlier.flatMap (fun node => referenceIssues path graph node ++ payloadIssues path node) ++
    referenceIssues path graph node

theorem payloadIssues_of_nested {node : Node Graph} {nested : Graph}
    (holds : node.kind.nested? = some nested) (path : String) :
    payloadIssues path node = issues (path ++ "/" ++ node.id) nested := by
  obtain ⟨id, nextId, kind⟩ := node
  cases kind <;> cases holds
  exact List.flatMap_singleton ..

theorem exists_issues_eq {earlier later : List (Node Graph)} {node : Node Graph}
    (split : graph.winners = earlier ++ node :: later) (path : String) :
    ∃ after, issues path graph =
      issuesBefore path graph earlier node ++ payloadIssues path node ++ after := by
  have present : graph.winners ≠ [] := by simp [split]
  cases first : graph.start? with
  | none => exact absurd (winners_of_start?_none first) present
  | some start =>
      refine ⟨later.flatMap (fun node =>
        referenceIssues path graph node ++ payloadIssues path node) ++
          reachabilityIssues path graph start, ?_⟩
      rw [issues_eq, first, split]
      simp only [issuesBefore, payloadIssues, first, Option.toList_some, List.flatMap_append,
        List.flatMap_cons, List.flatMap_nil, List.append_nil, List.append_assoc]

/-- Linting a graph at a path comes to an inner graph, there or at a path that goes on from there,
when `before` is what has been found so far. -/
inductive ComesTo : String → Graph → List Issue → String → Graph → Prop where
  | self (path : String) (graph : Graph) : ComesTo path graph [] path graph
  | nested {path innerPath : String} {graph nested inner : Graph} {before : List Issue}
      {earlier later : List (Node Graph)} {node : Node Graph}
      (split : graph.winners = earlier ++ node :: later)
      (holds : node.kind.nested? = some nested)
      (inside : ComesTo (path ++ "/" ++ node.id) nested before innerPath inner) :
      ComesTo path graph (issuesBefore path graph earlier node ++ before) innerPath inner

theorem ComesTo.exists_issues_eq {before : List Issue}
    (comesTo : ComesTo path graph before innerPath inner) :
    ∃ after, issues path graph = before ++ issues innerPath inner ++ after := by
  induction comesTo with
  | self path graph => exact ⟨[], by simp⟩
  | @nested path innerPath graph nested inner before earlier later node split holds _ ih =>
      obtain ⟨after, outside⟩ := Lint.exists_issues_eq split path
      obtain ⟨behind, inside⟩ := ih
      rw [payloadIssues_of_nested holds, inside] at outside
      exact ⟨behind ++ after, by rw [outside]; simp only [List.append_assoc]⟩

end Lint

/-! ## Graphs that no linter comes to -/

namespace Graph

mutual

/-- The graph without the graphs that are nested in other nodes than winning ones, at any depth. -/
def pruned : Graph → Graph
  | ⟨id, nodes, slots⟩ => ⟨id, prunedNodes nodes, slots⟩

def prunedNodes : List (Node Graph) → List (Node Graph)
  | [] => []
  | node :: rest =>
      prunedNode (node.id ≠ "" ∧ ∀ other ∈ rest, node.id ≠ other.id) node :: prunedNodes rest

def prunedNode (wins : Bool) : Node Graph → Node Graph
  | ⟨id, nextId, kind⟩ => ⟨id, nextId, prunedKind wins kind⟩

def prunedKind (wins : Bool) : NodeKind Graph → NodeKind Graph
  | .subFlow graph => .subFlow (if wins then prunedNested graph else none)
  | .dialogue sequence waits => .dialogue sequence waits
  | .loop body limit => .loop body limit
  | .start => .start
  | .delay seconds => .delay seconds
  | .waitForTrigger trigger => .waitForTrigger trigger
  | .objective goal action => .objective goal action
  | .branch conditions targets => .branch conditions targets
  | .sequence steps => .sequence steps

def prunedNested : Option Graph → Option Graph
  | none => none
  | some graph => some (pruned graph)

end

/-! ### What is left of a node -/

section

variable (wins : Bool) (node : Node Graph)

@[simp] theorem id_prunedNode : (prunedNode wins node).id = node.id := by
  cases node
  rfl

theorem type_prunedNode : (prunedNode wins node).type = node.type := by
  obtain ⟨id, nextId, kind⟩ := node
  cases kind <;> rfl

theorem references_prunedNode : (prunedNode wins node).references = node.references := by
  obtain ⟨id, nextId, kind⟩ := node
  cases kind <;> rfl

theorem nested?_prunedNode :
    (prunedNode true node).kind.nested? = node.kind.nested?.map pruned := by
  obtain ⟨id, nextId, kind⟩ := node
  cases kind with
  | subFlow graph => cases graph <;> rfl
  | _ => rfl

end

theorem ids_prunedNodes (nodes : List (Node Graph)) :
    (prunedNodes nodes).map (·.id) = nodes.map (·.id) := by
  induction nodes with
  | nil => rfl
  | cons node rest ih => simp [prunedNodes, ih]

/-! ### What ids stand for -/

theorem ids_named_pruned (graph : Graph) :
    graph.pruned.named.map (·.id) = graph.named.map (·.id) := by
  have ids : ∀ nodes : List (Node Graph), (nodes.filter (·.id ≠ "")).map (·.id) =
      (nodes.map (·.id)).filter (· ≠ "") := by
    intro nodes
    rw [List.filter_map]
    rfl
  obtain ⟨id, nodes, slots⟩ := graph
  simp only [pruned, named, ids, ids_prunedNodes]

theorem index?_pruned (graph : Graph) (id : String) : graph.pruned.index? id = graph.index? id := by
  rw [index?, index?, ids_named_pruned]

theorem resolves_pruned (graph : Graph) (id : String) :
    graph.pruned.resolves id = graph.resolves id := by
  rw [resolves, resolves, index?_pruned]

/-- The last node of each id is the one that keeps its graph. -/
theorem winners_pruned (graph : Graph) :
    graph.pruned.winners = graph.winners.map (prunedNode true) := by
  obtain ⟨id, nodes, slots⟩ := graph
  rw [winners_eq, winners_eq]
  change ((prunedNodes nodes).filter (·.id ≠ "")).pwFilter _ =
    ((nodes.filter (·.id ≠ "")).pwFilter _).map (prunedNode true)
  induction nodes with
  | nil => rfl
  | cons node rest ih =>
      rw [prunedNodes, List.filter_cons, List.filter_cons, id_prunedNode]
      by_cases nameless : node.id = ""
      · rw [if_neg (by simp [nameless]), if_neg (by simp [nameless])]
        exact ih
      have last : (∀ other ∈
            (rest.filter (·.id ≠ "")).pwFilter (fun left right => left.id ≠ right.id),
          node.id ≠ other.id) ↔ ∀ other ∈ rest, node.id ≠ other.id := by
        rw [List.forall_mem_pwFilter (fun different => by grind) node]
        constructor
        · intro apart other member same
          exact apart other (List.mem_filter.mpr ⟨member, by simp [← same, nameless]⟩) same
        · intro apart other member
          exact apart other (List.mem_filter.mp member).1
      have lastPruned : (∀ other ∈ ((prunedNodes rest).filter (·.id ≠ "")).pwFilter
            (fun left right => left.id ≠ right.id),
          (prunedNode (node.id ≠ "" ∧ ∀ other ∈ rest, node.id ≠ other.id) node).id ≠ other.id) ↔
            ∀ other ∈ rest, node.id ≠ other.id := by
        rw [ih, List.forall_mem_map]
        simpa only [id_prunedNode] using last
      rw [if_pos (by simp [nameless]), if_pos (by simp [nameless])]
      by_cases wins : ∀ other ∈ rest, node.id ≠ other.id
      · have flag : decide (node.id ≠ "" ∧ ∀ other ∈ rest, node.id ≠ other.id) = true :=
          decide_eq_true ⟨nameless, wins⟩
        rw [List.pwFilter_cons_of_pos (last.mpr wins),
          List.pwFilter_cons_of_pos (lastPruned.mpr wins), ih, flag, List.map_cons]
      · rw [List.pwFilter_cons_of_neg (mt last.mp wins),
          List.pwFilter_cons_of_neg (mt lastPruned.mp wins), ih]

theorem resolve?_pruned (graph : Graph) (id : String) :
    graph.pruned.resolve? id = (graph.resolve? id).map (prunedNode true) := by
  refine Option.ext fun node => ?_
  simp only [Option.map_eq_some_iff, resolve?_iff_mem_winners, winners_pruned, List.mem_map]
  constructor
  · rintro ⟨⟨other, member, rfl⟩, named⟩
    exact ⟨other, ⟨member, (id_prunedNode true other).symm.trans named⟩, rfl⟩
  · rintro ⟨other, ⟨member, named⟩, rfl⟩
    exact ⟨⟨other, member, rfl⟩, (id_prunedNode true other).trans named⟩

theorem successors_pruned (graph : Graph) : graph.pruned.successors = graph.successors := by
  funext id
  unfold successors
  rw [resolve?_pruned]
  cases graph.resolve? id with
  | none => rfl
  | some node => simp only [Option.map_some, references_prunedNode, funext (resolves_pruned graph)]

theorem reachableFrom_pruned (graph : Graph) (id : String) :
    graph.pruned.reachableFrom id = graph.reachableFrom id := by
  have explored : ∀ (rounds : Nat) (seen frontier : List String),
      graph.pruned.explore rounds seen frontier = graph.explore rounds seen frontier := by
    intro rounds
    induction rounds with
    | zero => intros; rfl
    | succ rounds ih =>
        intro seen frontier
        simp only [explore, successors_pruned, ih]
  have size : graph.pruned.named.length = graph.named.length := by
    have ids := congrArg List.length (ids_named_pruned graph)
    rwa [List.length_map, List.length_map] at ids
  rw [reachableFrom, reachableFrom, explored, size]

theorem start?_pruned (graph : Graph) :
    ∃ wins, graph.pruned.start? = graph.start?.map (prunedNode wins) := by
  obtain ⟨id, nodes, slots⟩ := graph
  cases nodes with
  | nil => exact ⟨true, rfl⟩
  | cons node rest => exact ⟨_, rfl⟩

end Graph

/-! ### What is found -/

namespace Lint

open SceneFlow.Graph

section

variable (path : String) (wins : Bool) (node : Node Graph)

theorem about_prunedNode (kind : IssueKind) :
    about path (prunedNode wins node) kind = about path node kind := by
  rw [about, about, id_prunedNode]

theorem startIssues_prunedNode :
    startIssues path (prunedNode wins node) = startIssues path node := by
  simp only [startIssues, type_prunedNode, about_prunedNode]

theorem referenceIssues_pruned (graph : Graph) :
    referenceIssues path graph.pruned (prunedNode wins node) = referenceIssues path graph node := by
  simp only [referenceIssues, references_prunedNode, resolves_pruned, about_prunedNode]

theorem kindIssues_prunedNode : kindIssues path (prunedNode true node) = kindIssues path node := by
  obtain ⟨id, nextId, kind⟩ := node
  cases kind with
  | subFlow graph => cases graph <;> rfl
  | _ => rfl

/-- Nothing but the ids of nodes decides about the findings in their ids. -/
theorem idIssues_congr {nodes others : List (Node Graph)}
    (same : nodes.map (·.id) = others.map (·.id)) : idIssues path nodes = idIssues path others := by
  have byIds : ∀ nodes : List (Node Graph), idIssues path nodes =
      (nodes.map (·.id)).zipIdx.flatMap fun (given, position) =>
        if given = "" then [{ path, node := none, kind := .emptyNodeId position }]
        else if (((nodes.map (·.id)).take position).filter (· == given)).length = 1 then
          [{ path, node := some given, kind := .duplicateId }]
        else [] := by
    intro nodes
    rw [idIssues, List.zipIdx_map, List.flatMap_map]
    refine List.flatMap_congr fun entry _ => ?_
    simp only [Prod.map, ← List.map_take, List.filter_map, List.length_map]
    rfl
  rw [byIds, byIds, same]

theorem reachabilityIssues_pruned (graph : Graph) :
    reachabilityIssues path graph.pruned (prunedNode wins node) =
      reachabilityIssues path graph node := by
  simp only [reachabilityIssues, resolves_pruned, id_prunedNode, reachableFrom_pruned,
    winners_pruned, List.filter_map, List.map_map, Function.comp_def, about_prunedNode]

end

/-- A graph that is nested in a node that does not win has no part in the report. -/
theorem issues_pruned (path : String) (graph : Graph) :
    issues path graph.pruned = issues path graph := by
  have inside : ∀ node ∈ graph.winners,
      (prunedNode true node).kind.nested?.toList.flatMap (issues (path ++ "/" ++ node.id)) =
        node.kind.nested?.toList.flatMap (issues (path ++ "/" ++ node.id)) := by
    intro node member
    rw [nested?_prunedNode]
    cases holds : node.kind.nested? with
    | none => rfl
    | some nested =>
        have smaller := Graph.nesting_lt_of_mem (mem_nodes_of_mem_winners member) holds
        have below := issues_pruned (path ++ "/" ++ node.id) nested
        simpa only [Option.map_some, Option.toList_some, List.flatMap_singleton] using below
  have ids : idIssues path graph.pruned.nodes = idIssues path graph.nodes := by
    apply idIssues_congr
    cases graph
    exact ids_prunedNodes _
  obtain ⟨wins, first⟩ := start?_pruned graph
  rw [issues_eq, issues_eq, first]
  cases graph.start? with
  | none => rfl
  | some start =>
      simp only [Option.map_some, startIssues_prunedNode, ids, winners_pruned, List.flatMap_map,
        reachabilityIssues_pruned]
      congr 2
      refine List.flatMap_congr fun node member => ?_
      rw [referenceIssues_pruned, kindIssues_prunedNode, id_prunedNode, inside node member]
termination_by graph.nesting

end Lint

/-- Wherever linting comes to a graph with a winning node that holds a graph, what it finds in that
node stands in one piece and is the report that the nested graph has by itself, the name of which
is replaced by the place of the node at the beginning of each path. Graphs that are nested in other
nodes can be taken out without any effect on the report. -/
theorem Graph.lint_nested (graph : Graph) :
    (∀ {before : List Issue} {hostPath : String} {host : Graph},
      Lint.ComesTo graph.lintRoot graph before hostPath host →
      ∀ {earlier later : List (Node Graph)} {node : Node Graph} {nested : Graph},
        host.winners = earlier ++ node :: later → node.kind.nested? = some nested →
        (∃ after, graph.lint.issues =
          before ++ Lint.issuesBefore hostPath host earlier node ++
            Lint.payloadIssues hostPath node ++ after) ∧
        List.Forall₂ (Issue.Moved nested.lintRoot (hostPath ++ "/" ++ node.id))
          nested.lint.issues (Lint.payloadIssues hostPath node)) ∧
    graph.pruned.lint = graph.lint := by
  constructor
  · intro before hostPath host comesTo earlier later node nested split holds
    constructor
    · obtain ⟨outer, outside⟩ := comesTo.exists_issues_eq
      obtain ⟨inner, inside⟩ := Lint.exists_issues_eq split hostPath
      refine ⟨inner ++ outer, outside.trans ?_⟩
      rw [inside]
      simp only [List.append_assoc]
    · rw [Lint.payloadIssues_of_nested holds]
      exact Lint.moved_issues nested.lintRoot (hostPath ++ "/" ++ node.id) nested
  · have sameRoot : graph.pruned.lintRoot = graph.lintRoot := by
      cases graph
      rfl
    rw [lint, lint, sameRoot, Lint.issues_pruned]

end SceneFlow
