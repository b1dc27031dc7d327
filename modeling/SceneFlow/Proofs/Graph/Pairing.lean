import SceneFlow.Proofs.Graph.Resolution

/-!
# Graphs that resolve ids alike

What an id stands for is the last node that has it, wherever that node is found in the graph. Two
graphs in which ids stand for the same nodes may number these nodes differently. Numbers that belong
to the same id make a pair, and in each graph a number has one partner at most.
-/

set_option autoImplicit false

namespace SceneFlow

namespace Graph

/-- The last node that has an id. -/
def last? (graph : Graph) (id : String) : Option (Node Graph) :=
  graph.nodes.findRev? (·.id == id)

private theorem bind_lastPosition? {id : String} (named : id ≠ "") (nodes : List (Node Graph)) :
    (lastPosition? id ((nodes.filter (·.id ≠ "")).map (·.id))).bind
        ((nodes.filter (·.id ≠ ""))[·]?) =
      nodes.findRev? (·.id == id) := by
  induction nodes with
  | nil => rfl
  | cons node rest ih =>
      rw [List.findRev?, ← ih]
      by_cases anonymous : node.id = ""
      · have other : (node.id == id) = false := by
          rw [anonymous]
          exact beq_false_of_ne named.symm
        rw [List.filter_cons_of_neg (by simp [anonymous]), other]
        cases (lastPosition? id ((rest.filter (·.id ≠ "")).map (·.id))).bind _ <;> rfl
      · rw [List.filter_cons_of_pos (by simp [anonymous]), List.map_cons, lastPosition?]
        cases later : lastPosition? id ((rest.filter (·.id ≠ "")).map (·.id)) with
        | some position =>
            have atPosition := lastPosition?_eq_some later
            rw [List.getElem?_map, Option.map_eq_some_iff] at atPosition
            obtain ⟨found, atPosition, _⟩ := atPosition
            simp only [Option.bind_some, List.getElem?_cons_succ, atPosition]
        | none => by_cases same : node.id = id <;> simp [same]

/-- An id that is not empty stands for the last node that has it. -/
theorem resolve?_eq_last? (graph : Graph) {id : String} (named : id ≠ "") :
    graph.resolve? id = graph.last? id :=
  bind_lastPosition? named graph.nodes

/-- The graphs have the same id and begin with nodes of the same id, and the last node with an id is
the same in both. Nothing is said of other nodes, of the order of nodes, and of slots. -/
structure SameResolution (first second : Graph) : Prop where
  id : first.id = second.id
  last? : ∀ id, id ≠ "" → first.last? id = second.last? id
  start : first.start?.map (·.id) = second.start?.map (·.id)

/-- Numbers of the two graphs that an id stands for. -/
def Paired (first second : Graph) (index other : Nat) : Prop :=
  ∃ id, first.index? id = some index ∧ second.index? id = some other

section SameResolution

variable {first second : Graph}

theorem SameResolution.symm (same : first.SameResolution second) : second.SameResolution first where
  id := same.id.symm
  last? id named := (same.last? id named).symm
  start := same.start.symm

theorem SameResolution.resolve?_eq (same : first.SameResolution second) (id : String) :
    first.resolve? id = second.resolve? id := by
  by_cases named : id = ""
  · rw [named, resolve?, resolve?, index?_empty, index?_empty]
    rfl
  · rw [resolve?_eq_last? first named, resolve?_eq_last? second named, same.last? id named]

theorem SameResolution.exists_paired (same : first.SameResolution second) {id : String}
    {index : Nat} (found : first.index? id = some index) :
    ∃ other, second.index? id = some other ∧ first.Paired second index other := by
  obtain ⟨node, atIndex, _⟩ := named_of_index? found
  have resolved := same.resolve?_eq id
  rw [resolve?_eq_some found atIndex] at resolved
  obtain ⟨other, foundOther, _⟩ := Option.bind_eq_some_iff.mp resolved.symm
  exact ⟨other, foundOther, id, found, foundOther⟩

theorem SameResolution.index?_none (same : first.SameResolution second) {id : String}
    (missing : first.index? id = none) : second.index? id = none := by
  cases found : second.index? id with
  | none => rfl
  | some other =>
      obtain ⟨index, foundIndex, _⟩ := same.symm.exists_paired found
      exact absurd (missing.symm.trans foundIndex) nofun

theorem SameResolution.startIndex? (same : first.SameResolution second) :
    Option.Rel (first.Paired second) first.startIndex? second.startIndex? := by
  have starts := same.start
  unfold Graph.startIndex?
  cases begins : first.start? with
  | none =>
      rw [begins, Option.map_none] at starts
      rw [Option.map_eq_none_iff.mp starts.symm]
      exact .none
  | some node =>
      rw [begins, Option.map_some] at starts
      obtain ⟨other, begins', sameId⟩ := Option.map_eq_some_iff.mp starts.symm
      rw [begins', Option.bind_some, Option.bind_some, sameId]
      cases found : first.index? node.id with
      | none =>
          rw [same.index?_none found]
          exact .none
      | some index =>
          obtain ⟨partner, foundPartner, paired⟩ := same.exists_paired found
          rw [foundPartner]
          exact .some paired

end SameResolution

namespace Paired

variable {first second : Graph} {index index' other other' : Nat}

theorem isWinner_left (paired : first.Paired second index other) : first.IsWinner index := by
  obtain ⟨id, found, _⟩ := paired
  exact isWinner_of_index? found

theorem isWinner_right (paired : first.Paired second index other) : second.IsWinner other := by
  obtain ⟨id, _, found⟩ := paired
  exact isWinner_of_index? found

/-- Numbers that make a pair are those of the same node. -/
theorem named_eq (paired : first.Paired second index other)
    (same : first.SameResolution second) : first.named[index]? = second.named[other]? := by
  obtain ⟨id, found, foundOther⟩ := paired
  obtain ⟨node, atIndex, _⟩ := named_of_index? found
  obtain ⟨partner, atOther, _⟩ := named_of_index? foundOther
  have resolved := same.resolve?_eq id
  rw [resolve?_eq_some found atIndex, resolve?_eq_some foundOther atOther] at resolved
  rw [atIndex, atOther, resolved]

theorem nestedAt?_eq (paired : first.Paired second index other)
    (same : first.SameResolution second) :
    first.nestedAt? index = second.nestedAt? other := by
  rw [nestedAt?, nestedAt?, paired.named_eq same]

private theorem id_eq_of_index? {graph : Graph} {id id' : String}
    (found : graph.index? id = some index) (found' : graph.index? id' = some index) : id = id' := by
  obtain ⟨node, atIndex, sameId⟩ := named_of_index? found
  obtain ⟨node', atIndex', sameId'⟩ := named_of_index? found'
  have sameNode : node = node' := Option.some.inj (atIndex.symm.trans atIndex')
  rw [← sameId, ← sameId', sameNode]

/-- A number has one partner at most, on either side. -/
theorem eq_iff (paired : first.Paired second index other)
    (paired' : first.Paired second index' other') : index = index' ↔ other = other' := by
  obtain ⟨id, found, foundOther⟩ := paired
  obtain ⟨id', found', foundOther'⟩ := paired'
  constructor
  · intro same
    subst same
    rw [id_eq_of_index? found found', foundOther'] at foundOther
    exact (Option.some.inj foundOther).symm
  · intro same
    subst same
    rw [id_eq_of_index? foundOther foundOther', found'] at found
    exact (Option.some.inj found).symm

end Paired

end Graph

end SceneFlow
