import Mathlib.Data.List.Nodup
import Mathlib.Data.List.Pairwise
import SceneFlow.Proofs.Graph.Resolution

/-!
# Expansions of structured graphs

A graph is structured if it is built of chains and Sequences alone and no two references lead to the
same node. What a run visits can then be read off the graph: the expansion of an id lists the nodes
of the chain that begins there, and a Sequence in it contributes itself once before its steps and
once after each of them. Every node that references lead to from the first node has an expansion.
-/

set_option autoImplicit false

namespace SceneFlow

/-- The ids that control follows from a node: the steps of a Sequence, else the node's successor. -/
def Node.followed (node : Node Graph) : List String :=
  match node.kind with
  | .sequence steps => steps.filter (· ≠ "")
  | _ => node.next?.toList

/-- What a node leads to, in the order in which it gets there: the steps of a Sequence, else the
node's successor. An empty id leads nowhere. -/
def Node.course (node : Node Graph) : List String :=
  match node.kind with
  | .sequence steps => steps
  | _ => [node.nextId.getD ""]

theorem Node.course_of_sequence {node : Node Graph} {steps : List String}
    (kind : node.kind = .sequence steps) : node.course = steps := by
  rw [Node.course, kind]

theorem Node.course_of_plain {node : Node Graph} (plain : node.type ≠ .sequence) :
    node.course = [node.nextId.getD ""] := by
  unfold Node.course
  split
  next steps kind =>
    rw [Node.type, kind] at plain
    exact absurd rfl plain
  · rfl

/-- The steps of a Sequence; other kinds have none. -/
def NodeKind.steps {γ : Type} : NodeKind γ → List String
  | .sequence steps => steps
  | _ => []

theorem NodeKind.type_of_steps {γ : Type} {kind : NodeKind γ} (some : 0 < kind.steps.length) :
    kind.type = .sequence := by
  cases kind with
  | sequence => rfl
  | _ => cases some

theorem Node.exists_steps {node : Node Graph} (sequence : node.type = .sequence) :
    ∃ steps, node.kind = .sequence steps := by
  cases kind : node.kind with
  | sequence steps => exact ⟨steps, rfl⟩
  | _ =>
      rw [Node.type, kind] at sequence
      cases sequence

theorem Node.followed_of_plain {node : Node Graph} (plain : node.type ≠ .sequence) :
    node.followed = node.next?.toList := by
  unfold Node.followed
  split
  next steps kind =>
    rw [Node.type, kind] at plain
    exact absurd rfl plain
  · rfl

theorem Node.next?_eq_some {node : Node Graph} (onwards : node.nextId.getD "" ≠ "") :
    node.next? = some (node.nextId.getD "") := by
  rw [Node.next?, nonEmpty?]
  cases given : node.nextId with
  | none =>
      rw [given] at onwards
      exact absurd rfl onwards
  | some id =>
      rw [given, Option.getD_some] at onwards
      simp [onwards]

theorem Node.followed_eq (node : Node Graph) : node.followed = node.course.filter (· ≠ "") := by
  by_cases sequence : node.type = .sequence
  · obtain ⟨steps, kind⟩ := Node.exists_steps sequence
    rw [Node.course_of_sequence kind, Node.followed, kind]
  · rw [Node.followed_of_plain sequence, Node.course_of_plain sequence]
    by_cases onwards : node.nextId.getD "" = ""
    · have missing : node.next? = none := by
        rw [Node.next?, nonEmpty?]
        cases given : node.nextId with
        | none => rfl
        | some id =>
            rw [given, Option.getD_some] at onwards
            simp [onwards]
      simp [missing, onwards]
    · simp [Node.next?_eq_some onwards, onwards]

namespace Graph

/-- The ids that control follows from any node. -/
def followed (graph : Graph) : List String :=
  graph.nodes.flatMap Node.followed

/-- The id of the first node; a graph without nodes has none. -/
def startId (graph : Graph) : String :=
  (graph.start?.map (·.id)).getD ""

/-- Ids are given once, there are no Branches and Loops, and every followed id leads to a node other
than the first one to which no other leads. -/
structure Structured (graph : Graph) : Prop where
  ids_ne_empty : ∀ node ∈ graph.nodes, node.id ≠ ""
  ids_distinct : graph.nodeIds.Nodup
  kinds : ∀ node ∈ graph.nodes, node.type ≠ .branch ∧ node.type ≠ .loop
  resolved : ∀ id ∈ graph.followed, graph.resolves id = true
  start_not_followed : ∀ node, graph.start? = some node → node.id ∉ graph.followed
  followed_once : graph.followed.Nodup

mutual

/-- The ids visited from an id to the end of its chain. An empty id is the end. -/
inductive Expansion (graph : Graph) : String → List String → Prop where
  | nothing : Expansion graph "" []
  | visit {id : String} {node : Node Graph} {rest : List String}
      (found : graph.resolve? id = some node) (plain : node.type ≠ .sequence)
      (onwards : Expansion graph (node.nextId.getD "") rest) :
      Expansion graph id (id :: rest)
  | sequence {id : String} {node : Node Graph} {steps rest : List String}
      (found : graph.resolve? id = some node) (kind : node.kind = .sequence steps)
      (expanded : StepsExpansion graph id steps rest) :
      Expansion graph id (id :: rest)

/-- The ids visited from some steps on, with the Sequence that owns them after each. -/
inductive StepsExpansion (graph : Graph) : String → List String → List String → Prop where
  | nothing {owner : String} : StepsExpansion graph owner [] []
  | step {owner step : String} {steps first rest : List String}
      (expanded : Expansion graph step first) (others : StepsExpansion graph owner steps rest) :
      StepsExpansion graph owner (step :: steps) (first ++ owner :: rest)

end

theorem Expansion.eq_nil {graph : Graph} {ids : List String} (expansion : graph.Expansion "" ids) :
    ids = [] := by
  have unresolved : graph.resolve? "" = none := by
    rw [resolve?, index?_empty, Option.bind_none]
  cases expansion with
  | nothing => rfl
  | visit found =>
      rw [unresolved] at found
      cases found
  | sequence found =>
      rw [unresolved] at found
      cases found

mutual

theorem Expansion.unique {graph : Graph} {id : String} {ids others : List String}
    (left : graph.Expansion id ids) (right : graph.Expansion id others) : ids = others :=
  match left with
  | .nothing => right.eq_nil.symm
  | .visit found plain onwards => by
      cases right with
      | nothing => exact (Expansion.visit found plain onwards).eq_nil
      | visit foundRight _ onwardsRight =>
          rw [found, Option.some.injEq] at foundRight
          subst foundRight
          rw [onwards.unique onwardsRight]
      | sequence foundRight kind =>
          rw [found, Option.some.injEq] at foundRight
          subst foundRight
          exact absurd (congrArg NodeKind.type kind) plain
  | .sequence found kind expanded => by
      cases right with
      | nothing => exact (Expansion.sequence found kind expanded).eq_nil
      | visit foundRight plain =>
          rw [found, Option.some.injEq] at foundRight
          subst foundRight
          exact absurd (congrArg NodeKind.type kind) plain
      | sequence foundRight kindRight expandedRight =>
          rw [found, Option.some.injEq] at foundRight
          subst foundRight
          rw [kind, NodeKind.sequence.injEq] at kindRight
          subst kindRight
          rw [expanded.unique expandedRight]
termination_by structural left

theorem StepsExpansion.unique {graph : Graph} {owner : String} {steps ids others : List String}
    (left : graph.StepsExpansion owner steps ids)
    (right : graph.StepsExpansion owner steps others) : ids = others :=
  match left with
  | .nothing => by
      cases right
      rfl
  | .step expanded later => by
      cases right with
      | step expandedRight laterRight =>
          rw [expanded.unique expandedRight, later.unique laterRight]
termination_by structural left

end

theorem exists_stepsExpansion {graph : Graph} (owner : String) {steps : List String}
    (each : ∀ step ∈ steps, ∃ ids, graph.Expansion step ids) :
    ∃ ids, graph.StepsExpansion owner steps ids := by
  induction steps with
  | nil => exact ⟨[], .nothing⟩
  | cons step steps ih =>
      obtain ⟨first, expanded⟩ := each step List.mem_cons_self
      obtain ⟨rest, others⟩ := ih fun other member => each other (List.mem_cons_of_mem _ member)
      exact ⟨_, .step expanded others⟩

namespace Structured

variable {graph : Graph}

theorem named_eq (structured : graph.Structured) : graph.named = graph.nodes :=
  named_eq_nodes structured.ids_ne_empty

theorem isWinner (structured : graph.Structured) {index : Nat} {node : Node Graph}
    (atIndex : graph.named[index]? = some node) : graph.index? node.id = some index := by
  apply index?_of_nodup _ atIndex
  rw [structured.named_eq]
  exact structured.ids_distinct

theorem mem_followed {node : Node Graph} {id : String} (member : node ∈ graph.nodes)
    (follows : id ∈ node.followed) : id ∈ graph.followed :=
  List.mem_flatMap.mpr ⟨node, member, follows⟩

/-- Only one node leads to an id. -/
theorem eq_of_followed (structured : graph.Structured) {left right : Node Graph} {id : String}
    (leftMember : left ∈ graph.nodes) (rightMember : right ∈ graph.nodes)
    (leftFollows : id ∈ left.followed) (rightFollows : id ∈ right.followed) : left = right := by
  have apart := (List.nodup_flatMap.mp structured.followed_once).2
  have : Std.Symm (Function.onFun List.Disjoint (Node.followed)) :=
    ⟨fun _ _ separate _ right left => separate left right⟩
  by_contra different
  exact apart.forall leftMember rightMember different leftFollows rightFollows

theorem followed_nodup (structured : graph.Structured) {node : Node Graph}
    (member : node ∈ graph.nodes) : node.followed.Nodup :=
  (List.nodup_flatMap.mp structured.followed_once).1 node member

end Structured

/-! ## Existence -/

/-- The ids on the way from the first node to a node along followed ids, the last one first. -/
inductive Way (graph : Graph) : List String → Prop where
  | start {node : Node Graph} (first : graph.start? = some node) : Way graph [node.id]
  | follow {id next : String} {back : List String} {node : Node Graph}
      (way : Way graph (id :: back)) (found : graph.resolve? id = some node)
      (follows : next ∈ node.followed) : Way graph (next :: id :: back)

namespace Way

variable {graph : Graph}

theorem exists_resolve? {id : String} {back : List String} (way : graph.Way (id :: back))
    (structured : graph.Structured) : ∃ node, graph.resolve? id = some node := by
  apply Graph.exists_resolve?
  cases way with
  | start first =>
      have member := List.mem_of_mem_head? first
      rw [resolves_iff, structured.named_eq]
      exact ⟨_, member, rfl⟩
  | follow _ found follows =>
      exact structured.resolved id (Structured.mem_followed (mem_nodes_of_resolve? found) follows)

/-- Every node on the way but the first was come to from a node further back. -/
theorem followed_from {id next : String} {back : List String} (way : graph.Way (id :: back))
    (structured : graph.Structured) (member : next ∈ id :: back)
    (follows : next ∈ graph.followed) :
    ∃ before ∈ back, ∃ node, graph.resolve? before = some node ∧ next ∈ node.followed := by
  generalize whole : id :: back = ids at way
  induction way generalizing id back with
  | start first =>
      cases whole
      rw [List.mem_singleton.mp member] at follows
      exact absurd follows (structured.start_not_followed _ first)
  | @follow before last further node way found leads ih =>
      cases whole
      rcases List.mem_cons.mp member with rfl | earlier
      · exact ⟨before, List.mem_cons_self, node, found, leads⟩
      · obtain ⟨source, inside, whence⟩ := ih earlier rfl
        exact ⟨source, List.mem_cons_of_mem _ inside, whence⟩

theorem nodup {ids : List String} (way : graph.Way ids) (structured : graph.Structured) :
    ids.Nodup := by
  induction way with
  | start => exact List.nodup_singleton _
  | @follow id next back node way found follows ih =>
      refine List.nodup_cons.mpr ⟨fun again => ?_, ih⟩
      have led := Structured.mem_followed (mem_nodes_of_resolve? found) follows
      obtain ⟨before, inside, source, foundSource, leads⟩ := way.followed_from structured again led
      -- The node that led here led here before, so it stands twice on the way already.
      have same : source = node := structured.eq_of_followed (mem_nodes_of_resolve? foundSource)
        (mem_nodes_of_resolve? found) leads follows
      have sameId : before = id := by
        rw [← id_of_resolve? foundSource, ← id_of_resolve? found, same]
      exact (List.nodup_cons.mp ih).1 (sameId ▸ inside)

theorem subset_nodeIds {ids : List String} (way : graph.Way ids) (structured : graph.Structured) :
    ids ⊆ graph.nodeIds := by
  have last : ∀ {id back}, graph.Way (id :: back) → id ∈ graph.nodeIds := by
    intro id back way
    obtain ⟨node, found⟩ := way.exists_resolve? structured
    exact id_of_resolve? found ▸ List.mem_map_of_mem (mem_nodes_of_resolve? found)
  induction way with
  | start first => exact List.cons_subset.mpr ⟨last (.start first), List.nil_subset _⟩
  | follow way found follows ih =>
      exact List.cons_subset.mpr ⟨last (.follow way found follows), ih⟩

/-- Ways are no longer than there are nodes, so following ids comes to an end. -/
theorem exists_expansion (structured : graph.Structured) (left : Nat) {id : String}
    {back : List String} (way : graph.Way (id :: back))
    (short : graph.nodes.length ≤ back.length + left) : ∃ ids, graph.Expansion id ids := by
  induction left generalizing id back with
  | zero =>
      have bound := List.Nodup.length_le_of_subset (way.nodup structured)
        (way.subset_nodeIds structured)
      simp only [List.length_cons, nodeIds, List.length_map] at bound
      omega
  | succ left ih =>
      obtain ⟨node, found⟩ := way.exists_resolve? structured
      have onwards : ∀ next ∈ node.followed, ∃ ids, graph.Expansion next ids := by
        intro next follows
        refine ih (way.follow found follows) ?_
        rw [List.length_cons]
        omega
      by_cases sequence : node.type = .sequence
      · obtain ⟨steps, kind⟩ := Node.exists_steps sequence
        have each : ∀ step ∈ steps, ∃ ids, graph.Expansion step ids := by
          intro step member
          by_cases empty : step = ""
          · subst empty
            exact ⟨[], .nothing⟩
          · refine onwards step ?_
            rw [Node.followed, kind]
            exact List.mem_filter.mpr ⟨member, decide_eq_true empty⟩
        obtain ⟨ids, expanded⟩ := exists_stepsExpansion id each
        exact ⟨_, .sequence found kind expanded⟩
      · have successor : ∃ ids, graph.Expansion (node.nextId.getD "") ids := by
          by_cases empty : node.nextId.getD "" = ""
          · rw [empty]
            exact ⟨[], .nothing⟩
          · refine onwards _ ?_
            rw [Node.followed_of_plain sequence, Node.next?_eq_some empty]
            exact List.mem_singleton_self _
        obtain ⟨ids, expanded⟩ := successor
        exact ⟨_, .visit found sequence expanded⟩

end Way

theorem Structured.exists_expansion {graph : Graph} (structured : graph.Structured) :
    ∃ ids, graph.Expansion graph.startId ids := by
  cases start : graph.start? with
  | none =>
      refine ⟨[], ?_⟩
      rw [startId, start]
      exact .nothing
  | some first =>
      rw [startId, start]
      exact Way.exists_expansion structured graph.nodes.length (.start start)
        (Nat.le_add_left _ _)

end Graph

end SceneFlow
