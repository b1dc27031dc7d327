import Mathlib.Data.List.Pairwise
import SceneFlow.Lint.Reachability

/-!
# Resolution of ids

An id stands for the last node that has it. The number of a node wins if the node's own id stands
for it; only such nodes can be given control.
-/

set_option autoImplicit false

namespace SceneFlow

theorem ne_empty_of_nonEmpty? {given : Option String} {id : String}
    (some : nonEmpty? given = some id) : id ≠ "" := by
  simpa using (Option.filter_eq_some_iff.mp some).2

theorem lastPosition?_eq_some {id : String} {ids : List String} {position : Nat}
    (found : lastPosition? id ids = some position) : ids[position]? = some id := by
  induction ids generalizing position with
  | nil => cases found
  | cons head rest ih =>
      cases later : lastPosition? id rest with
      | some before =>
          have same : before + 1 = position := by simpa [lastPosition?, later] using found
          subst same
          simpa using ih later
      | none =>
          obtain ⟨same, first⟩ : head = id ∧ 0 = position := by
            simpa [lastPosition?, later] using found
          subst same first
          rfl

theorem lastPosition?_eq_none_iff {id : String} {ids : List String} :
    lastPosition? id ids = none ↔ id ∉ ids := by
  induction ids with
  | nil => simp [lastPosition?]
  | cons head rest ih =>
      cases later : lastPosition? id rest with
      | some before =>
          have member : id ∈ rest := List.mem_of_getElem? (lastPosition?_eq_some later)
          simp [lastPosition?, later, member]
      | none =>
          have absent : id ∉ rest := ih.mp later
          simp [lastPosition?, later, absent, eq_comm]

namespace Graph

variable {graph : Graph} {id : String} {index : Nat} {node : Node Graph}

theorem named_of_index? (found : graph.index? id = some index) :
    ∃ node, graph.named[index]? = some node ∧ node.id = id := by
  have atPosition := lastPosition?_eq_some found
  rw [List.getElem?_map, Option.map_eq_some_iff] at atPosition
  exact atPosition

theorem resolves_iff : graph.resolves id = true ↔ ∃ node ∈ graph.named, node.id = id := by
  have absent : graph.index? id = none ↔ id ∉ graph.named.map (·.id) := lastPosition?_eq_none_iff
  rw [resolves, Option.isSome_iff_ne_none, ne_eq, absent, Decidable.not_not, List.mem_map]

/-- The node with this number is the one that its id stands for. -/
def IsWinner (graph : Graph) (index : Nat) : Prop :=
  ∃ node, graph.named[index]? = some node ∧ graph.index? node.id = some index

theorem isWinner_of_index? (found : graph.index? id = some index) : graph.IsWinner index := by
  obtain ⟨node, atIndex, rfl⟩ := named_of_index? found
  exact ⟨node, atIndex, found⟩

theorem isWinner_of_startIndex? (found : graph.startIndex? = some index) :
    graph.IsWinner index := by
  obtain ⟨first, _, resolved⟩ := Option.bind_eq_some_iff.mp found
  exact isWinner_of_index? resolved

theorem lt_length_of_isWinner (wins : graph.IsWinner index) : index < graph.named.length := by
  obtain ⟨node, atIndex, _⟩ := wins
  exact (List.getElem?_eq_some_iff.mp atIndex).1

theorem mem_winners_iff : node ∈ graph.winners ↔
    ∃ index, graph.named[index]? = some node ∧ graph.index? node.id = some index := by
  simp only [winners, List.mem_map, List.mem_filter, beq_iff_eq, Prod.exists, exists_and_right,
    exists_eq_right, List.mk_mem_zipIdx_iff_getElem?]

/-- Taking the nodes at the last positions of their ids leaves the last node of each id. -/
theorem filter_lastPosition?_eq (nodes : List (Node Graph)) :
    (nodes.zipIdx.filter fun (node, index) =>
      lastPosition? node.id (nodes.map (·.id)) == some index).map Prod.fst =
      nodes.pwFilter fun left right => left.id ≠ right.id := by
  induction nodes with
  | nil => rfl
  | cons head rest ih =>
      have later : ∀ id index, lastPosition? id (head.id :: rest.map (·.id)) = some (index + 1) ↔
          lastPosition? id (rest.map (·.id)) = some index := by
        intro id index
        cases found : lastPosition? id (rest.map (·.id)) with
        | some before => simp [lastPosition?, found]
        | none => simp [lastPosition?, found]
      have atHead : lastPosition? head.id (head.id :: rest.map (·.id)) = some 0 ↔
          ∀ node ∈ rest, head.id ≠ node.id := by
        cases found : lastPosition? head.id (rest.map (·.id)) with
        | some before =>
            have member := List.mem_of_getElem? (lastPosition?_eq_some found)
            obtain ⟨node, inRest, same⟩ := List.mem_map.mp member
            refine iff_of_false (by simp [lastPosition?, found]) fun apart => ?_
            exact apart node inRest same.symm
        | none =>
            have absent := lastPosition?_eq_none_iff.mp found
            refine iff_of_true (by simp [lastPosition?, found]) fun node inRest same => ?_
            exact absent (same ▸ List.mem_map_of_mem inRest)
      have tail : ((rest.zipIdx 1).filter fun (node, index) =>
          lastPosition? node.id (head.id :: rest.map (·.id)) == some index).map Prod.fst =
          rest.pwFilter fun left right => left.id ≠ right.id := by
        rw [List.zipIdx_succ, List.filter_map, List.map_map, ← ih]
        have same : ∀ pair : Node Graph × Nat,
            (lastPosition? pair.1.id (head.id :: rest.map (·.id)) == some (pair.2 + 1)) =
              (lastPosition? pair.1.id (rest.map (·.id)) == some pair.2) := by
          intro pair
          rw [Bool.eq_iff_iff, beq_iff_eq, beq_iff_eq]
          exact later pair.1.id pair.2
        congr 1
        exact List.filter_congr fun pair _ => same pair
      have apart : (∀ node ∈ rest.pwFilter (fun left right => left.id ≠ right.id),
          head.id ≠ node.id) ↔ ∀ node ∈ rest, head.id ≠ node.id :=
        List.forall_mem_pwFilter (fun different => by grind) head rest
      rw [List.map_cons, List.zipIdx_cons, List.filter_cons]
      by_cases last : ∀ node ∈ rest, head.id ≠ node.id
      · rw [List.pwFilter_cons_of_pos (apart.mpr last), ← tail]
        simp [atHead.mpr last]
      · rw [List.pwFilter_cons_of_neg (mt apart.mp last), ← tail]
        simp [mt atHead.mp last]

/-- Of the nodes that have an id, the winners are the last ones of each id, in the order of the
graph. -/
theorem winners_eq (graph : Graph) :
    graph.winners = graph.named.pwFilter fun left right => left.id ≠ right.id :=
  filter_lastPosition?_eq graph.named

theorem IsWinner.mem_winners (wins : graph.IsWinner index)
    (atIndex : graph.named[index]? = some node) : node ∈ graph.winners := by
  obtain ⟨own, atOwn, resolved⟩ := wins
  have same : own = node := Option.some.inj (atOwn.symm.trans atIndex)
  exact mem_winners_iff.mpr ⟨index, atIndex, same ▸ resolved⟩

theorem resolve?_eq_some (found : graph.index? id = some index)
    (atIndex : graph.named[index]? = some node) : graph.resolve? id = some node := by
  rw [resolve?, found, Option.bind_some, atIndex]

theorem resolve?_eq_some_iff : graph.resolve? id = some node ↔
    ∃ index, graph.index? id = some index ∧ graph.named[index]? = some node :=
  Option.bind_eq_some_iff

theorem id_of_resolve? (found : graph.resolve? id = some node) : node.id = id := by
  obtain ⟨index, numbered, atIndex⟩ := resolve?_eq_some_iff.mp found
  obtain ⟨other, atSame, named⟩ := named_of_index? numbered
  rw [atIndex, Option.some.injEq] at atSame
  exact atSame ▸ named

theorem mem_nodes_of_resolve? (found : graph.resolve? id = some node) : node ∈ graph.nodes := by
  obtain ⟨index, _, atIndex⟩ := resolve?_eq_some_iff.mp found
  exact mem_nodes_of_mem_named (List.mem_of_getElem? atIndex)

theorem exists_resolve? (resolves : graph.resolves id = true) :
    ∃ node, graph.resolve? id = some node := by
  obtain ⟨index, numbered⟩ := Option.isSome_iff_exists.mp resolves
  obtain ⟨node, atIndex, _⟩ := named_of_index? numbered
  exact ⟨node, resolve?_eq_some numbered atIndex⟩

theorem ne_empty_of_mem_named (member : node ∈ graph.named) : node.id ≠ "" := by
  simpa using (List.mem_filter.mp member).2

theorem named_eq_nodes (named : ∀ node ∈ graph.nodes, node.id ≠ "") : graph.named = graph.nodes :=
  List.filter_eq_self.mpr fun node member => decide_eq_true (named node member)

/-- Where ids are given once, each stands for the node that has it. -/
theorem index?_of_nodup (distinct : (graph.named.map (·.id)).Nodup)
    (atIndex : graph.named[index]? = some node) : graph.index? node.id = some index := by
  have member : node.id ∈ graph.named.map (·.id) :=
    List.mem_map_of_mem (List.mem_of_getElem? atIndex)
  cases found : graph.index? node.id with
  | none => exact absurd member (lastPosition?_eq_none_iff.mp found)
  | some other =>
      have atOther : (graph.named.map (·.id))[other]? = some node.id :=
        lastPosition?_eq_some found
      have atOwn : (graph.named.map (·.id))[index]? = some node.id := by
        rw [List.getElem?_map, atIndex, Option.map_some]
      have bound := (List.getElem?_eq_some_iff.mp atOther).1
      rw [(List.getElem?_inj bound distinct).mp (atOther.trans atOwn.symm)]

theorem mem_winners_of_nodup (named : ∀ node ∈ graph.nodes, node.id ≠ "")
    (distinct : graph.nodeIds.Nodup) (member : node ∈ graph.nodes) : node ∈ graph.winners := by
  have all := named_eq_nodes named
  obtain ⟨index, atIndex⟩ := List.mem_iff_getElem?.mp member
  rw [← all] at atIndex
  have distinct : (graph.named.map (·.id)).Nodup := by
    rw [all]
    exact distinct
  exact mem_winners_iff.mpr ⟨index, atIndex, index?_of_nodup distinct atIndex⟩

theorem index?_empty : graph.index? "" = none := by
  rw [index?, lastPosition?_eq_none_iff, List.mem_map]
  rintro ⟨node, member, isEmpty⟩
  exact ne_empty_of_mem_named member isEmpty

end Graph

end SceneFlow
