import Mathlib.Data.List.Perm.Basic
import SceneFlow.Lint.Check
import SceneFlow.Proofs.Graph.Resolution

/-!
# The graphs that a report covers

Linting a graph goes on into the graphs that its winning nodes hold, and from there further inwards.
What it finds in each of these graphs by itself, put together, is the whole report.
-/

set_option autoImplicit false

namespace SceneFlow

namespace Lint

variable {path : String} {graph : Graph}

/-- The findings in a graph, nested graphs aside. -/
def ownIssues (path : String) (graph : Graph) : List Issue :=
  match graph.start? with
  | none => [{ path, node := none, kind := .emptyGraph }]
  | some start =>
      startIssues path start ++ idIssues path graph.nodes ++
        (graph.winners.flatMap fun node =>
          referenceIssues path graph node ++ kindIssues path node) ++
        reachabilityIssues path graph start

/-- Linting a graph at a path comes to an inner graph, there or at a path that goes on from
there. -/
inductive Covers : String → Graph → String → Graph → Prop where
  | self (path : String) (graph : Graph) : Covers path graph path graph
  | nested {path innerPath : String} {graph nested inner : Graph} {node : Node Graph}
      (member : node ∈ graph.winners) (holds : node.kind.nested? = some nested)
      (within : Covers (path ++ "/" ++ node.id) nested innerPath inner) :
      Covers path graph innerPath inner

theorem Covers.trans {middlePath innerPath : String} {middle inner : Graph}
    (outside : Covers path graph middlePath middle)
    (inside : Covers middlePath middle innerPath inner) : Covers path graph innerPath inner := by
  induction outside with
  | self => exact inside
  | nested member holds _ ih => exact .nested member holds (ih inside)

/-- All graphs that linting a graph at a path comes to, each with its own path. Nested graphs stand
before the graph that they are nested in, as the linter is done with them first. -/
def levels (path : String) (graph : Graph) : List (String × Graph) :=
  (graph.winners.attach.flatMap fun ⟨node, _member⟩ =>
    match _holds : node.kind.nested? with
    | some nested => levels (path ++ "/" ++ node.id) nested
    | none => []) ++ [(path, graph)]
termination_by graph.nesting
decreasing_by exact Graph.nesting_lt_of_mem (mem_nodes_of_mem_winners _member) _holds

/-! ## Without proofs of membership

Both recursions carry along that a node is among the winning ones. What they compute does not depend
on that. -/

theorem flatMap_attach_eq {α β : Type} {list : List α} {change : α → List β}
    {changeMember : {entry // entry ∈ list} → List β}
    (same : ∀ entry, changeMember entry = change entry.1) :
    list.attach.flatMap changeMember = list.flatMap change := by
  rw [funext same, ← List.flatMap_map, List.attach_map_subtype_val]

theorem levels_eq (path : String) (graph : Graph) :
    levels path graph =
      (graph.winners.flatMap fun node =>
        node.kind.nested?.toList.flatMap (levels (path ++ "/" ++ node.id))) ++
        [(path, graph)] := by
  rw [levels]
  congr 1
  apply flatMap_attach_eq
  rintro ⟨node, member⟩
  dsimp only
  split
  next nested holds => simp [holds]
  next missing => simp [missing]

theorem issues_eq (path : String) (graph : Graph) :
    issues path graph =
      match graph.start? with
      | none => [{ path, node := none, kind := .emptyGraph }]
      | some start =>
          startIssues path start ++ idIssues path graph.nodes ++
            (graph.winners.flatMap fun node =>
              referenceIssues path graph node ++ kindIssues path node ++
                node.kind.nested?.toList.flatMap (issues (path ++ "/" ++ node.id))) ++
            reachabilityIssues path graph start := by
  rw [issues]
  cases graph.start? with
  | none => rfl
  | some start =>
      dsimp only
      congr 2
      apply flatMap_attach_eq
      rintro ⟨node, member⟩
      dsimp only
      congr 1
      split
      next nested holds => simp [holds]
      next missing => simp [missing]

/-! ## Reports as findings in covered graphs -/

theorem winners_of_start?_none (noNode : graph.start? = none) : graph.winners = [] := by
  have nothing : graph.nodes = [] := List.head?_eq_none_iff.mp noNode
  simp [Graph.winners, Graph.named, nothing]

/-- Up to their order, the findings of a report are those in the graphs that it covers. -/
theorem issues_perm (path : String) (graph : Graph) :
    (issues path graph).Perm
      ((levels path graph).flatMap fun level => ownIssues level.1 level.2) := by
  have inside : ∀ node ∈ graph.winners,
      (node.kind.nested?.toList.flatMap (issues (path ++ "/" ++ node.id))).Perm
        ((node.kind.nested?.toList.flatMap (levels (path ++ "/" ++ node.id))).flatMap
          fun level => ownIssues level.1 level.2) := by
    intro node member
    cases holds : node.kind.nested? with
    | none => exact .refl _
    | some nested =>
        have smaller := Graph.nesting_lt_of_mem (mem_nodes_of_mem_winners member) holds
        simpa using issues_perm (path ++ "/" ++ node.id) nested
  rw [issues_eq, levels_eq, List.flatMap_append, List.flatMap_singleton, ownIssues]
  cases first : graph.start? with
  | none =>
      rw [winners_of_start?_none first]
      exact .refl _
  | some start =>
      dsimp only
      rw [← List.append_assoc]
      apply List.Perm.append_right
      refine .trans (.append_left _ ((List.Perm.flatMap_left _ fun node member =>
        (inside node member).append_left _).trans (List.flatMap_append_perm _ _ _).symm)) ?_
      rw [List.flatMap_assoc, ← List.append_assoc]
      exact List.perm_append_comm
termination_by graph.nesting

theorem Covers.mem_levels {innerPath : String} {inner : Graph}
    (covers : Covers path graph innerPath inner) : (innerPath, inner) ∈ levels path graph := by
  induction covers with
  | self path graph =>
      rw [levels_eq]
      exact List.mem_append_right _ (List.mem_singleton_self _)
  | nested member holds _ ih =>
      rw [levels_eq]
      apply List.mem_append_left
      refine List.mem_flatMap.mpr ⟨_, member, ?_⟩
      simpa [holds] using ih

theorem covers_of_mem_levels (path : String) (graph : Graph) {innerPath : String} {inner : Graph}
    (listed : (innerPath, inner) ∈ levels path graph) : Covers path graph innerPath inner := by
  rw [levels_eq] at listed
  rcases List.mem_append.mp listed with inside | last
  · obtain ⟨node, member, inNested⟩ := List.mem_flatMap.mp inside
    cases holds : node.kind.nested? with
    | none => simp [holds] at inNested
    | some nested =>
        have smaller := Graph.nesting_lt_of_mem (mem_nodes_of_mem_winners member) holds
        rw [holds, Option.toList_some, List.flatMap_singleton] at inNested
        exact .nested member holds (covers_of_mem_levels _ nested inNested)
  · cases List.mem_singleton.mp last
    exact .self path graph
termination_by graph.nesting

theorem mem_levels_iff {innerPath : String} {inner : Graph} :
    (innerPath, inner) ∈ levels path graph ↔ Covers path graph innerPath inner :=
  ⟨covers_of_mem_levels path graph, Covers.mem_levels⟩

end Lint

end SceneFlow
