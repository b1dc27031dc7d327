import SceneFlow.Proofs.Graph.Expansion

/-!
# What remains of an expansion

While a structured graph is run, the rest of its expansion is made of pieces: what comes after the
node that has control, and for each node that is to be returned to the node itself and what comes
after it. How often a node was left says which of its steps are still to come.
-/

set_option autoImplicit false

namespace SceneFlow

namespace Graph

/-- The ids visited after a node that was left some times before, up to the end of its chain. -/
inductive Remaining (graph : Graph) (node : Node Graph) : Nat → List String → Prop where
  | plain {ids : List String} (plain : node.type ≠ .sequence)
      (onwards : graph.Expansion (node.nextId.getD "") ids) : Remaining graph node 0 ids
  | sequence {timesLeft : Nat} {steps ids : List String} (kind : node.kind = .sequence steps)
      (expanded : graph.StepsExpansion node.id (steps.drop timesLeft) ids) :
      Remaining graph node timesLeft ids

/-- The ids visited once the nodes on a stack take over one after the other. -/
inductive Unwinds (graph : Graph) (timesLeft : Nat → Nat) : List Nat → List String → Prop where
  | nothing : Unwinds graph timesLeft [] []
  | resume {index : Nat} {stack : List Nat} {node : Node Graph} {own later : List String}
      (atIndex : graph.named[index]? = some node)
      (remaining : graph.Remaining node (timesLeft index) own)
      (others : Unwinds graph timesLeft stack later) :
      Unwinds graph timesLeft (index :: stack) (node.id :: own ++ later)

/-- The ids visited after the node that has control. -/
inductive Pending (graph : Graph) (timesLeft : Nat → Nat) :
    Option Nat → List Nat → List String → Prop where
  | finished {stack : List Nat} : Pending graph timesLeft none stack []
  | running {index : Nat} {stack : List Nat} {node : Node Graph} {own later : List String}
      (atIndex : graph.named[index]? = some node)
      (remaining : graph.Remaining node (timesLeft index) own)
      (others : graph.Unwinds timesLeft stack later) :
      Pending graph timesLeft (some index) stack (own ++ later)

variable {graph : Graph}

theorem Unwinds.congr {before after : Nat → Nat} {stack : List Nat} {ids : List String}
    (unwinds : graph.Unwinds before stack ids)
    (same : ∀ index ∈ stack, before index = after index) :
    graph.Unwinds after stack ids := by
  induction unwinds with
  | nothing => exact .nothing
  | resume atIndex remaining _ ih =>
      rw [List.forall_mem_cons] at same
      exact .resume atIndex (same.1 ▸ remaining) (ih same.2)

/-- A node that an id leads to for the first time contributes itself and all that remains of it. -/
theorem Expansion.entered {id : String} {ids : List String} {next : Nat}
    (expansion : graph.Expansion id ids) (leads : graph.index? id = some next) :
    ∃ node own, graph.named[next]? = some node ∧ ids = node.id :: own ∧
      graph.Remaining node 0 own := by
  cases expansion with
  | nothing =>
      rw [index?_empty] at leads
      cases leads
  | visit found plain onwards =>
      have sameId := id_of_resolve? found
      rw [resolve?, leads, Option.bind_some] at found
      exact ⟨_, _, found, by rw [sameId], .plain plain onwards⟩
  | sequence found kind expanded =>
      have sameId := id_of_resolve? found
      rw [resolve?, leads, Option.bind_some] at found
      exact ⟨_, _, found, by rw [sameId], .sequence kind (sameId ▸ expanded)⟩

/-- What remains of a node begins with the chain that it leads to next. After that comes the node
itself again, if the chain was a step. -/
theorem Remaining.leave {node : Node Graph} {timesLeft : Nat} {own : List String}
    (remaining : graph.Remaining node timesLeft own) :
    ∃ first rest, own = first ++ rest ∧
      graph.Expansion (node.course[timesLeft]?.getD "") first ∧
      if timesLeft < node.kind.steps.length then
        ∃ others, rest = node.id :: others ∧ graph.Remaining node (timesLeft + 1) others
      else rest = [] := by
  cases remaining with
  | plain plain onwards =>
      have none : node.kind.steps = [] := by
        cases kind : node.kind with
        | sequence steps =>
            rw [Node.type, kind] at plain
            exact absurd rfl plain
        | _ => rfl
      refine ⟨own, [], (List.append_nil own).symm, ?_, ?_⟩
      · rw [Node.course_of_plain plain]
        exact onwards
      · rw [none, List.length_nil, if_neg (Nat.lt_irrefl 0)]
  | @sequence _ steps _ kind expanded =>
      have sameSteps : node.kind.steps = steps := by rw [kind]; rfl
      rw [Node.course_of_sequence kind, sameSteps]
      by_cases inRange : timesLeft < steps.length
      · rw [List.drop_eq_getElem_cons inRange] at expanded
        cases expanded with
        | @step _ _ _ first others expandedStep expandedRest =>
            refine ⟨first, node.id :: others, rfl, ?_, ?_⟩
            · rw [List.getElem?_eq_getElem inRange]
              exact expandedStep
            · rw [if_pos inRange]
              exact ⟨others, rfl, .sequence kind expandedRest⟩
      · have beyond := Nat.le_of_not_lt inRange
        rw [List.drop_eq_nil_iff.mpr beyond] at expanded
        cases expanded
        refine ⟨[], [], rfl, ?_, ?_⟩
        · rw [List.getElem?_eq_none_iff.mpr beyond]
          exact .nothing
        · rw [if_neg inRange]

theorem named_eq_of_index? {id other : String} {index : Nat} (leads : graph.index? id = some index)
    (alsoLeads : graph.index? other = some index) : id = other := by
  obtain ⟨node, atIndex, named⟩ := named_of_index? leads
  obtain ⟨same, atSame, alsoNamed⟩ := named_of_index? alsoLeads
  rw [atIndex, Option.some.injEq] at atSame
  rw [← named, ← alsoNamed, atSame]

/-- Two places that lead to one node are the same place of the same node. -/
theorem Structured.not_leads_again (structured : graph.Structured) {index other place next : Nat}
    {node source : Node Graph} {id again : String}
    (atIndex : graph.named[index]? = some node) (atOther : graph.named[other]? = some source)
    (here : node.course[place]? = some id) (leads : graph.index? id = some next)
    (alsoLeads : graph.index? again = some next) :
    again ∉ source.course.drop (if index = other then place + 1 else 0) := by
  intro member
  have same : again = id := named_eq_of_index? alsoLeads leads
  subst same
  have onwards : again ≠ "" := by
    rintro rfl
    rw [index?_empty] at leads
    cases leads
  have nodeMember := mem_nodes_of_mem_named (List.mem_of_getElem? atIndex)
  have sourceMember := mem_nodes_of_mem_named (List.mem_of_getElem? atOther)
  have nodeFollows : again ∈ node.followed := by
    rw [Node.followed_eq]
    exact List.mem_filter.mpr ⟨List.mem_of_getElem? here, decide_eq_true onwards⟩
  have sourceFollows : again ∈ source.followed := by
    rw [Node.followed_eq]
    exact List.mem_filter.mpr ⟨List.mem_of_mem_drop member, decide_eq_true onwards⟩
  have sameNode : node = source :=
    structured.eq_of_followed nodeMember sourceMember nodeFollows sourceFollows
  subst sameNode
  have sameIndex : index = other :=
    Option.some.inj ((structured.isWinner atIndex).symm.trans (structured.isWinner atOther))
  rw [if_pos sameIndex] at member
  -- The id stands at this place and after it, so it is followed twice.
  have bound := (List.getElem?_eq_some_iff.mp here).1
  have split : node.course.drop place = again :: node.course.drop (place + 1) := by
    rw [List.drop_eq_getElem_cons bound, (List.getElem?_eq_some_iff.mp here).2]
  have distinct : ((node.course.drop place).filter (· ≠ "")).Nodup := by
    refine List.Nodup.sublist ((List.drop_sublist _ _).filter _) ?_
    rw [← Node.followed_eq]
    exact structured.followed_nodup nodeMember
  rw [split, List.filter_cons, if_pos (decide_eq_true onwards)] at distinct
  exact (List.nodup_cons.mp distinct).1
    (List.mem_filter.mpr ⟨member, decide_eq_true onwards⟩)

end Graph

end SceneFlow
