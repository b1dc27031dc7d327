import Mathlib
import SceneFlow.Proofs.Graph.Resolution

/-!
# Ordinary edges and detours

Control can go along an ordinary edge as often as it comes to the node at its beginning. All other
ways to go on are detours: a Sequence goes to each of its steps once and is returned to once for
each, and a Loop with a limit goes to its body that many times. Where ordinary edges form no cycle,
every node has a height, the number of nodes that ordinary edges lead to from there, and the height
falls along each edge.
-/

set_option autoImplicit false

namespace SceneFlow

/-- Whether a Loop goes to its body as often as it is entered. -/
def isEndless (limit : UInt32) : Bool :=
  limit = 0 || limit = UInt32.ofNat (UInt32.size - 1)

namespace Node

/-- The ids that a node can lead to at each of its visits. -/
def ordinaryTargets (node : Node Graph) : List String :=
  match node.kind with
  | .sequence _ => []
  | .branch conditions targets =>
      (targets.take conditions.length).filter (· ≠ "") ++ node.next?.toList
  | .loop body limit =>
      (if isEndless limit then (nonEmpty? body).toList else []) ++ node.next?.toList
  | _ => node.next?.toList

/-- How many detours a node that was left some times is good for. -/
def detoursAfter (timesLeft : Nat) (node : Node Graph) : Nat :=
  match node.kind with
  | .sequence steps => 2 * (steps.length - timesLeft)
  | .loop _ limit => if isEndless limit then 0 else limit.toNat - timesLeft
  | _ => 0

theorem detoursAfter_anti (node : Node Graph) {earlier later : Nat} (order : earlier ≤ later) :
    node.detoursAfter later ≤ node.detoursAfter earlier := by
  unfold detoursAfter
  split
  · omega
  · split <;> omega
  · exact Nat.le_refl _

end Node

namespace Graph

/-- The number of ids that are given. -/
def idCount (graph : Graph) : Nat :=
  (graph.named.map (·.id)).toFinset.card

/-- Twice the number of all steps of Sequences, and the limits of all Loops that have one. -/
def detours (graph : Graph) : Nat :=
  (graph.nodes.map (·.detoursAfter 0)).sum

/-- A node can lead to another one at each of its visits. -/
def Ordinary (graph : Graph) (source target : Nat) : Prop :=
  ∃ node, graph.named[source]? = some node ∧
    ∃ id ∈ node.ordinaryTargets, graph.index? id = some target

/-- No way along ordinary edges leads back to where it began. -/
def Acyclic (graph : Graph) : Prop :=
  ∀ index, ¬ Relation.TransGen graph.Ordinary index index

variable {graph : Graph}

theorem Ordinary.isWinner {source target : Nat} (edge : graph.Ordinary source target) :
    graph.IsWinner target := by
  obtain ⟨_, _, _, _, leads⟩ := edge
  exact isWinner_of_index? leads

theorem isWinner_of_reached {source target : Nat} (wins : graph.IsWinner source)
    (reached : Relation.ReflTransGen graph.Ordinary source target) : graph.IsWinner target := by
  cases reached with
  | refl => exact wins
  | tail _ edge => exact edge.isWinner

open Classical in
/-- The nodes that ordinary edges lead to from a node, itself included. -/
noncomputable def ordinarilyReached (graph : Graph) (index : Nat) : Finset Nat :=
  (Finset.range graph.named.length).filter (Relation.ReflTransGen graph.Ordinary index)

/-- How many nodes ordinary edges lead to from a node, itself included. -/
noncomputable def height (graph : Graph) (index : Nat) : Nat :=
  (graph.ordinarilyReached index).card

theorem mem_ordinarilyReached {index other : Nat} :
    other ∈ graph.ordinarilyReached index ↔
      other < graph.named.length ∧ Relation.ReflTransGen graph.Ordinary index other := by
  simp [ordinarilyReached]

theorem height_pos {index : Nat} (wins : graph.IsWinner index) : 0 < graph.height index :=
  Finset.card_pos.mpr ⟨index, mem_ordinarilyReached.mpr ⟨lt_length_of_isWinner wins, .refl⟩⟩

/-- Nodes that ids stand for have ids of their own. -/
theorem height_le_idCount {index : Nat} (wins : graph.IsWinner index) :
    graph.height index ≤ graph.idCount := by
  let idOf := fun other : Nat => ((graph.named.map (·.id))[other]?).getD ""
  have numbered : ∀ other ∈ graph.ordinarilyReached index,
      ∃ node ∈ graph.named, idOf other = node.id ∧ graph.index? (idOf other) = some other := by
    intro other member
    obtain ⟨node, atOther, leads⟩ :=
      isWinner_of_reached wins (mem_ordinarilyReached.mp member).2
    have same : idOf other = node.id := by
      simp only [idOf, List.getElem?_map, atOther, Option.map_some, Option.getD_some]
    exact ⟨node, List.mem_of_getElem? atOther, same, same ▸ leads⟩
  refine Finset.card_le_card_of_injOn idOf ?_ ?_
  · intro other member
    obtain ⟨node, inNamed, same, _⟩ := numbered other member
    exact List.mem_toFinset.mpr (List.mem_map.mpr ⟨node, inNamed, same.symm⟩)
  · intro left leftMember right rightMember same
    obtain ⟨_, _, _, leftLeads⟩ := numbered left leftMember
    obtain ⟨_, _, _, rightLeads⟩ := numbered right rightMember
    rw [same, rightLeads, Option.some.injEq] at leftLeads
    exact leftLeads.symm

theorem height_lt (acyclic : graph.Acyclic) {source target : Nat} (wins : graph.IsWinner source)
    (edge : graph.Ordinary source target) : graph.height target < graph.height source := by
  refine Finset.card_lt_card (Finset.ssubset_iff_of_subset ?_ |>.mpr ⟨source, ?_, ?_⟩)
  · intro other member
    obtain ⟨bound, reached⟩ := mem_ordinarilyReached.mp member
    exact mem_ordinarilyReached.mpr ⟨bound, .head edge reached⟩
  · exact mem_ordinarilyReached.mpr ⟨lt_length_of_isWinner wins, .refl⟩
  · intro member
    exact acyclic source (.head' edge (mem_ordinarilyReached.mp member).2)

/-! ## The detours left -/

/-- How many detours the nodes of a graph are good for that were left some times. -/
def detoursLeft (graph : Graph) (timesLeft : Nat → Nat) : Nat :=
  ∑ index ∈ Finset.range graph.named.length,
    (graph.named[index]?.map (·.detoursAfter (timesLeft index))).getD 0

theorem sum_range_getElem? {α : Type} (items : List α) (value : α → Nat) :
    ∑ index ∈ Finset.range items.length, (items[index]?.map value).getD 0 =
      (items.map value).sum := by
  induction items with
  | nil => rfl
  | cons item rest ih =>
      rw [List.length_cons, Finset.sum_range_succ', List.map_cons, List.sum_cons, ← ih]
      simp [Nat.add_comm]

theorem detoursLeft_begin (graph : Graph) : graph.detoursLeft (fun _ => 0) ≤ graph.detours := by
  rw [detoursLeft, sum_range_getElem?]
  refine List.Sublist.sum_le_sum ?_ fun _ _ => Nat.zero_le _
  exact List.filter_sublist.map _

/-- What the nodes are good for falls with what the one is good for that is left once more. -/
theorem detoursLeft_leave {before after : Nat → Nat} {index : Nat} {node : Node Graph}
    (atIndex : graph.named[index]? = some node) (order : ∀ other, before other ≤ after other)
    {paid : Nat}
    (pays : node.detoursAfter (after index) + paid ≤ node.detoursAfter (before index)) :
    graph.detoursLeft after + paid ≤ graph.detoursLeft before := by
  have bound : index ∈ Finset.range graph.named.length :=
    Finset.mem_range.mpr (List.getElem?_eq_some_iff.mp atIndex).1
  have others : ∑ other ∈ (Finset.range graph.named.length).erase index,
        (graph.named[other]?.map (·.detoursAfter (after other))).getD 0 ≤
      ∑ other ∈ (Finset.range graph.named.length).erase index,
        (graph.named[other]?.map (·.detoursAfter (before other))).getD 0 := by
    refine Finset.sum_le_sum fun other _ => ?_
    cases graph.named[other]? with
    | none => exact Nat.le_refl _
    | some source => exact source.detoursAfter_anti (order other)
  rw [detoursLeft, detoursLeft, ← Finset.add_sum_erase _ _ bound, ← Finset.add_sum_erase _ _ bound,
    atIndex, Option.map_some, Option.getD_some, Option.map_some, Option.getD_some]
  omega

end Graph

end SceneFlow
