import Mathlib.Data.List.Basic
import Mathlib.Data.List.Pairwise
import Mathlib.Logic.Relation
import SceneFlow.Proofs.Lint.Errors

/-!
# What linting says of reachability

The linter explores a graph round by round until it finds nothing new. What it has seen then is just
what a path of references leads to, each from a winning node to a winning node. So the nodes that a
report calls unreachable are those that no such path leads to, in each graph that it covers.
-/

set_option autoImplicit false

namespace SceneFlow

namespace Graph

variable {graph : Graph} {id next : String}

/-- The winning node of an id refers to another id that stands for a node. -/
def Refers (graph : Graph) (id next : String) : Prop :=
  ∃ node ∈ graph.winners, node.id = id ∧ graph.resolves next = true ∧
    ∃ field, (field, next) ∈ node.references

/-- A path of references leads from the first node to the node of an id. -/
def Reaches (graph : Graph) (id : String) : Prop :=
  ∃ start, graph.start? = some start ∧ Relation.ReflTransGen graph.Refers start.id id

/-- An id stands for the winning node that has it. -/
theorem resolve?_iff_mem_winners {node : Node Graph} :
    graph.resolve? id = some node ↔ node ∈ graph.winners ∧ node.id = id := by
  constructor
  · intro resolved
    have same := id_of_resolve? resolved
    subst same
    obtain ⟨index, found, atIndex⟩ := resolve?_eq_some_iff.mp resolved
    exact ⟨mem_winners_iff.mpr ⟨index, atIndex, found⟩, rfl⟩
  · rintro ⟨member, rfl⟩
    obtain ⟨index, atIndex, found⟩ := mem_winners_iff.mp member
    exact resolve?_eq_some found atIndex

theorem mem_successors_iff : next ∈ graph.successors id ↔ graph.Refers id next := by
  unfold successors Refers
  cases resolved : graph.resolve? id with
  | none =>
      refine iff_of_false List.not_mem_nil ?_
      rintro ⟨node, member, same, _⟩
      rw [resolve?_iff_mem_winners.mpr ⟨member, same⟩] at resolved
      cases resolved
  | some node =>
      obtain ⟨member, same⟩ := resolve?_iff_mem_winners.mp resolved
      rw [List.mem_filter, List.mem_map]
      constructor
      · rintro ⟨⟨⟨field, target⟩, listed, rfl⟩, resolves⟩
        exact ⟨node, member, same, resolves, field, listed⟩
      · rintro ⟨other, otherMember, otherSame, resolves, field, listed⟩
        have winner := resolve?_iff_mem_winners.mpr ⟨otherMember, otherSame⟩
        rw [resolved, Option.some.injEq] at winner
        subst winner
        exact ⟨⟨(field, next), listed, rfl⟩, resolves⟩

/-- The ids of nodes that were not seen yet. -/
def unseen (graph : Graph) (seen : List String) : List String :=
  (graph.named.map (·.id)).filter (!seen.contains ·)

theorem mem_unseen_of_refers {seen : List String} (refers : graph.Refers id next)
    (new : next ∉ seen) : next ∈ graph.unseen seen := by
  obtain ⟨_, _, _, resolves, _⟩ := refers
  obtain ⟨node, member, same⟩ := resolves_iff.mp resolves
  refine List.mem_filter.mpr ⟨same ▸ List.mem_map_of_mem member, ?_⟩
  simpa using new

theorem unseen_append_lt {seen found : List String} (left : id ∈ graph.unseen seen)
    (now : id ∈ found) : (graph.unseen (seen ++ found)).length < (graph.unseen seen).length := by
  have fewer : graph.unseen (seen ++ found) =
      (graph.unseen seen).filter (!found.contains ·) := by
    simp [unseen, List.filter_filter, Bool.and_comm]
  rw [fewer, List.length_filter_lt_length_iff_exists]
  exact ⟨id, left, by simpa using now⟩

/-- One round finds what the frontier refers to and was not seen yet. -/
theorem mem_found_iff {seen frontier : List String} :
    next ∈ (frontier.flatMap graph.successors).eraseDups.filter (!seen.contains ·) ↔
      (∃ id ∈ frontier, graph.Refers id next) ∧ next ∉ seen := by
  simp [List.mem_filter, List.mem_eraseDups, List.mem_flatMap, mem_successors_iff]

theorem reaches_of_mem_explore {origin : String} {rounds : Nat} {seen frontier : List String}
    (known : ∀ id ∈ seen, Relation.ReflTransGen graph.Refers origin id)
    (inner : frontier ⊆ seen) (member : id ∈ graph.explore rounds seen frontier) :
    Relation.ReflTransGen graph.Refers origin id := by
  induction rounds generalizing seen frontier with
  | zero => exact known id member
  | succ rounds ih =>
      unfold explore at member
      dsimp only at member
      split at member
      · exact known id member
      · refine ih (fun next present => ?_) (List.subset_append_right _ _) member
        rcases List.mem_append.mp present with before | found
        · exact known next before
        · obtain ⟨⟨last, atFrontier, refers⟩, _⟩ := mem_found_iff.mp found
          exact (known last (inner atFrontier)).tail refers

/-- With a round for every id that was not seen yet, exploring stops where nothing new is found. -/
theorem explore_closed {rounds : Nat} {seen frontier : List String}
    (done : ∀ id ∈ seen, id ∉ frontier → ∀ next, graph.Refers id next → next ∈ seen)
    (enough : (graph.unseen seen).length ≤ rounds) :
    seen ⊆ graph.explore rounds seen frontier ∧
      ∀ id ∈ graph.explore rounds seen frontier, ∀ next, graph.Refers id next →
        next ∈ graph.explore rounds seen frontier := by
  induction rounds generalizing seen frontier with
  | zero =>
      have all := List.eq_nil_of_length_eq_zero (Nat.le_zero.mp enough)
      refine ⟨List.Subset.refl seen, fun id _ next refers => ?_⟩
      change next ∈ seen
      by_contra new
      have left := mem_unseen_of_refers refers new
      rw [all] at left
      cases left
  | succ rounds ih =>
      unfold explore
      dsimp only
      split
      next nothing =>
        refine ⟨List.Subset.refl seen, fun id member next refers => ?_⟩
        by_contra new
        by_cases atFrontier : id ∈ frontier
        · have found := mem_found_iff.mpr ⟨⟨id, atFrontier, refers⟩, new⟩
          rw [List.isEmpty_iff.mp nothing] at found
          cases found
        · exact new (done id member atFrontier next refers)
      next some =>
        obtain ⟨fresh, found⟩ := List.exists_mem_of_ne_nil _ (mt List.isEmpty_iff.mpr some)
        obtain ⟨⟨last, atFrontier, refers⟩, new⟩ := mem_found_iff.mp found
        have fewer := unseen_append_lt (mem_unseen_of_refers refers new) found
        refine (ih (fun id member behind next refers => ?_)
          (Nat.le_of_lt_succ (Nat.lt_of_lt_of_le fewer enough))).imp_left
          (List.Subset.trans (List.subset_append_left _ _))
        rcases List.mem_append.mp member with before | now
        · by_cases known : next ∈ seen
          · exact List.mem_append_left _ known
          · refine List.mem_append_right _ (mem_found_iff.mpr ⟨⟨id, ?_, refers⟩, known⟩)
            by_contra elsewhere
            exact known (done id before elsewhere next refers)
        · exact absurd now behind

/-- The linter's exploration finds just the ids that a path of references leads to. -/
theorem mem_reachableFrom_iff {origin : String} :
    id ∈ graph.reachableFrom origin ↔ Relation.ReflTransGen graph.Refers origin id := by
  have known : ∀ id ∈ [origin], Relation.ReflTransGen graph.Refers origin id := fun id member =>
    List.mem_singleton.mp member ▸ .refl
  have enough : (graph.unseen [origin]).length ≤ graph.named.length := by
    have shorter := List.length_filter_le (fun id => !([origin].contains id))
      (graph.named.map (·.id))
    rwa [List.length_map] at shorter
  have done : ∀ id ∈ [origin], id ∉ [origin] → ∀ next, graph.Refers id next → next ∈ [origin] :=
    fun id member behind => absurd member behind
  obtain ⟨kept, closed⟩ := graph.explore_closed done enough
  constructor
  · exact fun member => reaches_of_mem_explore known (List.Subset.refl _) member
  · intro path
    induction path with
    | refl => exact kept List.mem_cons_self
    | tail _ refers ih => exact closed _ ih _ refers

/-- What the linter calls unreachable: a winning node that no path leads to from the first node,
which has an id. -/
def IsLeftOut (graph : Graph) (node : Node Graph) : Prop :=
  node ∈ graph.winners ∧ graph.startIndex?.isSome = true ∧ ¬ graph.Reaches node.id

instance decidableReaches (graph : Graph) (id : String) : Decidable (graph.Reaches id) :=
  decidable_of_iff (∃ start ∈ graph.start?, id ∈ graph.reachableFrom start.id)
    (exists_congr fun _ => and_congr_right fun _ => mem_reachableFrom_iff)

/-- The nodes that the linter calls unreachable, in the order of the graph. -/
def leftOut (graph : Graph) : List (Node Graph) :=
  graph.winners.filter fun node => graph.startIndex?.isSome ∧ ¬ graph.Reaches node.id

theorem mem_leftOut_iff {node : Node Graph} : node ∈ graph.leftOut ↔ graph.IsLeftOut node := by
  rw [leftOut, List.mem_filter, decide_eq_true_iff]
  rfl

theorem startIndex?_isSome_iff :
    graph.startIndex?.isSome = true ↔ ∃ first, graph.start? = some first ∧ first.id ≠ "" := by
  rw [startIndex?]
  cases first : graph.start? with
  | none => simp
  | some start =>
      have member : start ∈ graph.nodes := List.mem_of_head? first
      have resolves : (graph.index? start.id).isSome = true ↔ start.id ≠ "" := by
        rw [← resolves, resolves_iff]
        constructor
        · rintro ⟨node, inNamed, same⟩
          exact same ▸ ne_empty_of_mem_named inNamed
        · intro named
          exact ⟨start, List.mem_filter.mpr ⟨member, decide_eq_true named⟩, rfl⟩
      simpa using resolves

end Graph

namespace Lint

variable {path : String} {graph : Graph} {issue : Issue}

/-! ## Nodes called unreachable -/

theorem reachabilityIssues_eq {start : Node Graph} (first : graph.start? = some start) :
    reachabilityIssues path graph start = graph.leftOut.map (about path · .unreachable) := by
  have numbered : graph.startIndex?.isSome = graph.resolves start.id := by
    rw [Graph.startIndex?, first]
    rfl
  have reaches : ∀ id, graph.Reaches id ↔ id ∈ graph.reachableFrom start.id := by
    intro id
    rw [Graph.Reaches, first, Graph.mem_reachableFrom_iff]
    simp
  unfold reachabilityIssues Graph.leftOut
  simp only [numbered, reaches]
  split
  next found => simp [found]
  next missing => simp [missing]

theorem filter_unreachable_of_ne {list : List Issue}
    (others : ∀ issue ∈ list, issue.kind ≠ .unreachable) :
    list.filter (·.kind = .unreachable) = [] :=
  List.filter_eq_nil_iff.mpr fun issue member => by simpa using others issue member

theorem ne_unreachable_of_error (error : issue.severity = .error) : issue.kind ≠ .unreachable := by
  intro unreachable
  rw [Issue.severity, unreachable] at error
  cases error

/-- A report calls just those nodes unreachable that are left out in a graph that it covers, each
where it stands. -/
theorem filter_unreachable_issues (path : String) (graph : Graph) :
    (issues path graph).filter (·.kind = .unreachable) =
      (levels path graph).flatMap fun level =>
        level.2.leftOut.map (about level.1 · .unreachable) := by
  rw [issues_eq, levels_eq, List.flatMap_append, List.flatMap_singleton, List.flatMap_assoc]
  cases first : graph.start? with
  | none =>
      rw [Graph.leftOut, winners_of_start?_none first]
      rfl
  | some start =>
      have starts : (startIssues path start).filter (·.kind = .unreachable) = [] :=
        filter_unreachable_of_ne fun _ found => (plain_of_mem_startIssues found).2
      have ids : (idIssues path graph.nodes).filter (·.kind = .unreachable) = [] :=
        filter_unreachable_of_ne fun _ found =>
          ne_unreachable_of_error (severity_of_mem_idIssues found)
      have references : ∀ node,
          (referenceIssues path graph node).filter (·.kind = .unreachable) = [] := fun node =>
        filter_unreachable_of_ne fun _ found =>
          ne_unreachable_of_error (severity_of_mem_referenceIssues found)
      have kinds : ∀ node, (kindIssues path node).filter (·.kind = .unreachable) = [] := fun node =>
        filter_unreachable_of_ne fun _ found => (plain_of_mem_kindIssues found).2
      have inside : ∀ node ∈ graph.winners,
          (node.kind.nested?.toList.flatMap fun nested =>
              (issues (path ++ "/" ++ node.id) nested).filter (·.kind = .unreachable)) =
            (node.kind.nested?.toList.flatMap (levels (path ++ "/" ++ node.id))).flatMap
              fun level => level.2.leftOut.map (about level.1 · .unreachable) := by
        intro node member
        cases holds : node.kind.nested? with
        | none => rfl
        | some nested =>
            have smaller := Graph.nesting_lt_of_mem (mem_nodes_of_mem_winners member) holds
            simpa using filter_unreachable_issues (path ++ "/" ++ node.id) nested
      have own : (reachabilityIssues path graph start).filter (·.kind = .unreachable) =
          graph.leftOut.map (about path · .unreachable) := by
        rw [reachabilityIssues_eq first, List.filter_eq_self]
        rintro _ found
        obtain ⟨node, _, rfl⟩ := List.mem_map.mp found
        rfl
      dsimp only
      simp only [List.filter_append, List.filter_flatMap, starts, ids, references, kinds, own,
        List.nil_append]
      rw [List.flatMap_congr inside]
termination_by graph.nesting

theorem unreachable_mem_issues_iff (unreachable : issue.kind = .unreachable) :
    issue ∈ issues path graph ↔ ∃ innerPath inner node, Covers path graph innerPath inner ∧
      inner.IsLeftOut node ∧ issue = about innerPath node .unreachable := by
  have filtered : issue ∈ issues path graph ↔
      issue ∈ (issues path graph).filter (·.kind = .unreachable) := by
    rw [List.mem_filter, decide_eq_true_iff, and_iff_left unreachable]
  rw [filtered, filter_unreachable_issues, List.mem_flatMap, Prod.exists]
  simp only [List.mem_map, mem_levels_iff, Graph.mem_leftOut_iff, exists_and_left, @eq_comm _ issue]

end Lint

/-- The nodes that a report calls unreachable are, in each graph that it covers, just those winning
nodes that no path of references leads to from the first node. Each is called so once, in the order
of the graph. Where the first node has no id, no node is. -/
theorem Graph.lint_unreachable_exact (graph : Graph) :
    graph.lint.issues.filter (·.kind = .unreachable) =
      (Lint.levels graph.lintRoot graph).flatMap (fun level =>
        level.2.leftOut.map (Lint.about level.1 · .unreachable)) ∧
    ∀ inner : Graph,
      (inner.winners = inner.named.pwFilter fun left right => left.id ≠ right.id) ∧
      inner.leftOut.Sublist inner.winners ∧
      ∀ node, node ∈ inner.leftOut ↔
        (∃ first, inner.start? = some first ∧ first.id ≠ "") ∧
          node ∈ inner.winners ∧ ¬ inner.Reaches node.id := by
  refine ⟨Lint.filter_unreachable_issues graph.lintRoot graph, fun inner => ?_⟩
  refine ⟨inner.winners_eq, List.filter_sublist, fun node => ?_⟩
  rw [mem_leftOut_iff, IsLeftOut, startIndex?_isSome_iff]
  exact and_left_comm

end SceneFlow
