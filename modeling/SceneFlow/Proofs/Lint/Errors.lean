import Mathlib.Data.List.Dedup
import Mathlib.Data.List.Induction
import SceneFlow.Proofs.Lint.Levels

/-!
# The errors that linting finds

Errors are about ids alone: nodes without one, ids that several nodes have, and references to ids
that no node has. In each graph that a report covers, each of these is reported once, and nothing
else is an error. Nodes that are not the winning ones of their ids are not looked into, nor are the
graphs that they hold. A graph without errors has no such nodes, though, so it is free of errors at
any depth.
-/

set_option autoImplicit false

namespace SceneFlow

namespace Graph

/-- The positions of the nodes that have no id. -/
def namelessPositions (graph : Graph) : List Nat :=
  (List.range graph.nodes.length).filter fun position => graph.nodeIds[position]? = some ""

/-- The ids that more than one node has, each of them once. -/
def sharedIds (graph : Graph) : List String :=
  graph.nodeIds.dedup.filter fun id => id ≠ "" ∧ 2 ≤ graph.nodeIds.count id

/-- What a node refers to although no node has that id, as often as it does. -/
def dangling (graph : Graph) (node : Node Graph) : List (ReferenceField × String) :=
  node.references.filter fun (_, target) => target ∉ graph.nodeIds

/-- Every node has an id of its own, and every reference leads to a node. -/
structure IdsFit (graph : Graph) : Prop where
  named : ∀ node ∈ graph.nodes, node.id ≠ ""
  distinct : graph.nodeIds.Nodup
  resolved : ∀ node ∈ graph.nodes, ∀ field target, (field, target) ∈ node.references →
    target ∈ graph.nodeIds

/-- A graph contains itself and what is contained in the graphs of its nodes, whether ids stand for
these nodes or not. -/
inductive Contains : Graph → Graph → Prop where
  | self (graph : Graph) : Contains graph graph
  | nested {graph nested inner : Graph} {node : Node Graph} (member : node ∈ graph.nodes)
      (holds : node.kind.nested? = some nested) (within : Contains nested inner) :
      Contains graph inner

end Graph

namespace Lint

variable {path : String} {graph : Graph} {issue : Issue}

/-- The errors that are to be found in a graph, nested graphs aside. -/
def errorsOf (path : String) (graph : Graph) : List Issue :=
  graph.namelessPositions.map (fun position => ⟨path, none, .emptyNodeId position⟩) ++
    graph.sharedIds.map (fun id => ⟨path, some id, .duplicateId⟩) ++
    graph.winners.flatMap fun node =>
      (graph.dangling node).map fun (field, target) =>
        about path node (.unresolvedReference field target)

/-! ## Findings about ids -/

theorem idIssues_append_singleton (path : String) (nodes : List (Node Graph)) (last : Node Graph) :
    idIssues path (nodes ++ [last]) =
      idIssues path nodes ++
        if last.id = "" then [{ path, node := none, kind := .emptyNodeId nodes.length }]
        else if (nodes.map (·.id)).count last.id = 1 then [about path last .duplicateId]
        else [] := by
  have counted : (nodes.filter (·.id == last.id)).length = (nodes.map (·.id)).count last.id := by
    rw [← List.countP_eq_length_filter, List.count, List.countP_map]
    rfl
  unfold idIssues
  rw [List.zipIdx_append, List.flatMap_append, Nat.zero_add, List.zipIdx_singleton,
    List.flatMap_singleton]
  congr 1
  · apply List.flatMap_congr
    rintro ⟨node, position⟩ member
    have bound := (List.getElem?_eq_some_iff.mp (List.mk_mem_zipIdx_iff_getElem?.mp member)).1
    simp only [List.take_append_of_le_length (Nat.le_of_lt bound)]
  · simp only [List.take_left, counted]

private theorem getElem?_concat_eq_some_iff {ids : List String} {last id : String}
    {position : Nat} : (ids ++ [last])[position]? = some id ↔
      ids[position]? = some id ∨ position = ids.length ∧ last = id := by
  rcases Nat.lt_trichotomy position ids.length with inside | rfl | beyond
  · simp [List.getElem?_append_left inside, Nat.ne_of_lt inside]
  · simp
  · have outside : (ids ++ [last]).length ≤ position := by
      rw [List.length_append]
      exact beyond
    simp [List.getElem?_eq_none outside, List.getElem?_eq_none (Nat.le_of_lt beyond),
      Nat.ne_of_gt beyond]

private theorem two_le_count_concat_iff {ids : List String} {last id : String} :
    2 ≤ (ids ++ [last]).count id ↔ 2 ≤ ids.count id ∨ last = id ∧ ids.count last = 1 := by
  rw [List.count_append, List.count_singleton]
  by_cases same : last = id
  · subst same
    simp only [beq_self_eq_true, if_true, true_and]
    omega
  · simp [same]

/-- Each node without an id is found, and each id that several nodes have. -/
theorem mem_idIssues_iff {nodes : List (Node Graph)} : issue ∈ idIssues path nodes ↔
    (∃ position, (nodes.map (·.id))[position]? = some "" ∧
      issue = ⟨path, none, .emptyNodeId position⟩) ∨
    ∃ id, id ≠ "" ∧ 2 ≤ (nodes.map (·.id)).count id ∧ issue = ⟨path, some id, .duplicateId⟩ := by
  induction nodes using List.reverseRecOn with
  | nil => simp [idIssues]
  | append_singleton nodes last ih =>
      rw [idIssues_append_singleton, List.mem_append, ih]
      simp only [List.map_append, List.map_cons, List.map_nil, getElem?_concat_eq_some_iff,
        two_le_count_concat_iff, List.length_map]
      constructor
      · rintro ((⟨position, nameless, rfl⟩ | ⟨id, named, shared, rfl⟩) | now)
        · exact .inl ⟨position, .inl nameless, rfl⟩
        · exact .inr ⟨id, named, .inl shared, rfl⟩
        · split at now
          next nameless =>
            exact .inl ⟨_, .inr ⟨rfl, nameless⟩, List.mem_singleton.mp now⟩
          next named =>
            split at now
            next second => exact .inr ⟨_, named, .inr ⟨rfl, second⟩, List.mem_singleton.mp now⟩
            next => cases now
      · rintro (⟨position, nameless | ⟨rfl, nameless⟩, rfl⟩ |
          ⟨id, named, shared | ⟨rfl, second⟩, rfl⟩)
        · exact .inl (.inl ⟨position, nameless, rfl⟩)
        · exact .inr (by simp [nameless])
        · exact .inl (.inr ⟨id, named, shared, rfl⟩)
        · exact .inr (by simp [named, second, about])

theorem nodup_idIssues (path : String) (nodes : List (Node Graph)) :
    (idIssues path nodes).Nodup := by
  induction nodes using List.reverseRecOn with
  | nil => exact List.nodup_nil
  | append_singleton nodes last ih =>
      rw [idIssues_append_singleton]
      split
      next nameless =>
        refine ih.append (List.nodup_singleton _) (List.disjoint_singleton.mpr fun earlier => ?_)
        obtain ⟨position, found, same⟩ | ⟨_, _, _, other⟩ := mem_idIssues_iff.mp earlier
        · cases same
          have bound := (List.getElem?_eq_some_iff.mp found).1
          simp at bound
        · cases other
      next named =>
        split
        next second =>
          refine ih.append (List.nodup_singleton _) (List.disjoint_singleton.mpr fun earlier => ?_)
          obtain ⟨_, _, other⟩ | ⟨id, _, shared, same⟩ := mem_idIssues_iff.mp earlier
          · cases other
          · cases same
            omega
        next => simpa using ih

theorem mem_namelessPositions_iff {position : Nat} :
    position ∈ graph.namelessPositions ↔ graph.nodeIds[position]? = some "" := by
  rw [Graph.namelessPositions, List.mem_filter, List.mem_range, decide_eq_true_iff]
  refine and_iff_right_of_imp fun nameless => ?_
  simpa [Graph.nodeIds] using (List.getElem?_eq_some_iff.mp nameless).1

theorem mem_sharedIds_iff {id : String} :
    id ∈ graph.sharedIds ↔ id ≠ "" ∧ 2 ≤ graph.nodeIds.count id := by
  rw [Graph.sharedIds, List.mem_filter, List.mem_dedup, decide_eq_true_iff]
  refine and_iff_right_of_imp fun shared => ?_
  exact List.count_pos_iff.mp (Nat.lt_of_lt_of_le Nat.zero_lt_two shared.2)

/-- What is found about ids is one issue for each node without an id and one for each shared id. -/
theorem idIssues_perm (path : String) (graph : Graph) :
    (idIssues path graph.nodes).Perm
      (graph.namelessPositions.map (fun position => ⟨path, none, .emptyNodeId position⟩) ++
        graph.sharedIds.map (fun id => ⟨path, some id, .duplicateId⟩)) := by
  have positions : graph.namelessPositions.Nodup := List.nodup_range.filter _
  have shared : graph.sharedIds.Nodup := (List.nodup_dedup _).filter _
  apply (List.perm_ext_iff_of_nodup (nodup_idIssues path graph.nodes) ?_).mpr
  · intro issue
    simp only [mem_idIssues_iff, List.mem_append, List.mem_map, mem_namelessPositions_iff,
      mem_sharedIds_iff, Graph.nodeIds, and_assoc, @eq_comm _ issue]
  · refine List.Nodup.append (positions.map ?_) (shared.map ?_) ?_
    · intro left right same
      cases same
      rfl
    · intro left right same
      cases same
      rfl
    · intro issue nameless duplicate
      obtain ⟨_, _, rfl⟩ := List.mem_map.mp nameless
      obtain ⟨_, _, other⟩ := List.mem_map.mp duplicate
      cases other

/-! ## Findings about references -/

theorem ne_empty_of_mem_references {node : Node Graph} {field : ReferenceField} {target : String}
    (listed : (field, target) ∈ node.references) : target ≠ "" := by
  have ofOption : ∀ {id : Option String}, target ∈ (nonEmpty? id).toList → target ≠ "" :=
    fun member => ne_empty_of_nonEmpty? (Option.mem_toList.mp member)
  have ofList : ∀ {ids : List String}, target ∈ ids.filter (· ≠ "") → target ≠ "" :=
    fun member => by simpa using (List.mem_filter.mp member).2
  rcases List.mem_append.mp listed with next | kind
  · obtain ⟨_, member, same⟩ := List.mem_map.mp next
    cases same
    exact ofOption member
  · unfold Node.kindReferences at kind
    split at kind
    · obtain ⟨_, member, same⟩ := List.mem_map.mp kind
      cases same
      exact ofList member
    · obtain ⟨_, member, same⟩ := List.mem_map.mp kind
      cases same
      exact ofList member
    · obtain ⟨_, member, same⟩ := List.mem_map.mp kind
      cases same
      exact ofOption member
    · cases kind

theorem resolves_iff_mem_nodeIds {id : String} (named : id ≠ "") :
    graph.resolves id = true ↔ id ∈ graph.nodeIds := by
  rw [Graph.resolves_iff, Graph.nodeIds, List.mem_map]
  constructor
  · rintro ⟨node, member, rfl⟩
    exact ⟨node, Graph.mem_nodes_of_mem_named member, rfl⟩
  · rintro ⟨node, member, rfl⟩
    exact ⟨node, List.mem_filter.mpr ⟨member, decide_eq_true named⟩, rfl⟩

theorem referenceIssues_eq (path : String) (graph : Graph) (node : Node Graph) :
    referenceIssues path graph node =
      (graph.dangling node).map fun (field, target) =>
        about path node (.unresolvedReference field target) := by
  unfold referenceIssues Graph.dangling
  rw [← List.filterMap_eq_map, List.filterMap_filter]
  apply List.filterMap_congr
  rintro ⟨field, target⟩ listed
  have resolves : graph.resolves target = true ↔ target ∈ graph.nodeIds :=
    resolves_iff_mem_nodeIds (ne_empty_of_mem_references listed)
  simp [resolves, ite_not]

/-! ## Errors of a report -/

theorem plain_of_mem_startIssues {start : Node Graph} (found : issue ∈ startIssues path start) :
    issue.severity = .warning ∧ issue.kind ≠ .unreachable := by
  unfold startIssues at found
  split at found
  · cases found
  · rw [List.mem_singleton.mp found]
    exact ⟨rfl, nofun⟩

theorem plain_of_mem_kindIssues {node : Node Graph} (found : issue ∈ kindIssues path node) :
    issue.severity = .warning ∧ issue.kind ≠ .unreachable := by
  have single : ∀ {condition : Prop} [Decidable condition] {kind : IssueKind},
      (issue ∈ if condition then [about path node kind] else []) →
        issue = about path node kind := by
    intro condition _ kind found
    split at found
    · exact List.mem_singleton.mp found
    · cases found
  unfold kindIssues at found
  split at found
  · obtain ⟨next, _, rfl⟩ := List.mem_map.mp found
    exact ⟨rfl, nofun⟩
  · rw [← ite_not] at found
    rw [single found]
    exact ⟨rfl, nofun⟩
  · rw [single found]
    exact ⟨rfl, nofun⟩
  · rw [single found]
    exact ⟨rfl, nofun⟩
  · rw [single found]
    exact ⟨rfl, nofun⟩
  · rw [List.mem_singleton.mp found]
    exact ⟨rfl, nofun⟩
  all_goals cases found

theorem eq_about_of_mem_reachabilityIssues {start : Node Graph}
    (found : issue ∈ reachabilityIssues path graph start) :
    ∃ node, issue = about path node .unreachable := by
  unfold reachabilityIssues at found
  split at found
  · obtain ⟨node, _, rfl⟩ := List.mem_map.mp found
    exact ⟨node, rfl⟩
  · cases found

theorem severity_of_mem_idIssues {nodes : List (Node Graph)} (found : issue ∈ idIssues path nodes) :
    issue.severity = .error := by
  obtain ⟨_, _, rfl⟩ | ⟨_, _, _, rfl⟩ := mem_idIssues_iff.mp found <;> rfl

theorem severity_of_mem_referenceIssues {node : Node Graph}
    (found : issue ∈ referenceIssues path graph node) : issue.severity = .error := by
  rw [referenceIssues_eq] at found
  obtain ⟨_, _, rfl⟩ := List.mem_map.mp found
  rfl

/-- A part of a report in which every finding is a warning, or every finding is an error. -/
theorem filter_errors_of_severity {list : List Issue} (severity : Severity)
    (all : ∀ issue ∈ list, issue.severity = severity) :
    list.filter (·.severity == .error) = if severity = .error then list else [] := by
  cases severity with
  | error => exact List.filter_eq_self.mpr fun issue member => by rw [all issue member]; rfl
  | warning => exact List.filter_eq_nil_iff.mpr fun issue member => by rw [all issue member]; nofun

/-- The errors in a graph are the findings about its ids and about the references of its winning
nodes. -/
theorem filter_errors_ownIssues (path : String) (graph : Graph) :
    (ownIssues path graph).filter (·.severity == .error) =
      idIssues path graph.nodes ++ graph.winners.flatMap (referenceIssues path graph) := by
  have starts : ∀ start, (startIssues path start).filter (·.severity == .error) = [] := fun start =>
    filter_errors_of_severity .warning fun _ found => (plain_of_mem_startIssues found).1
  have ids : (idIssues path graph.nodes).filter (·.severity == .error) =
      idIssues path graph.nodes :=
    filter_errors_of_severity .error fun _ found => severity_of_mem_idIssues found
  have references : ∀ node, (referenceIssues path graph node).filter (·.severity == .error) =
      referenceIssues path graph node := fun node =>
    filter_errors_of_severity .error fun _ found => severity_of_mem_referenceIssues found
  have kinds : ∀ node, (kindIssues path node).filter (·.severity == .error) = [] := fun node =>
    filter_errors_of_severity .warning fun _ found => (plain_of_mem_kindIssues found).1
  have reachability : ∀ start,
      (reachabilityIssues path graph start).filter (·.severity == .error) = [] := by
    intro start
    refine filter_errors_of_severity .warning fun issue found => ?_
    obtain ⟨node, rfl⟩ := eq_about_of_mem_reachabilityIssues found
    rfl
  unfold ownIssues
  cases first : graph.start? with
  | none =>
      rw [winners_of_start?_none first, List.head?_eq_none_iff.mp first]
      rfl
  | some start =>
      simp only [List.filter_append, List.filter_flatMap, starts, ids, references, kinds,
        reachability, List.nil_append, List.append_nil]

/-- The errors in a graph are just those that are to be found there. -/
theorem ownErrors_perm (path : String) (graph : Graph) :
    ((ownIssues path graph).filter (·.severity == .error)).Perm (errorsOf path graph) := by
  rw [filter_errors_ownIssues, funext (referenceIssues_eq path graph)]
  exact (idIssues_perm path graph).append_right _

theorem errors_perm (path : String) (graph : Graph) :
    ((issues path graph).filter (·.severity == .error)).Perm
      ((levels path graph).flatMap fun level => errorsOf level.1 level.2) := by
  refine ((issues_perm path graph).filter _).trans ?_
  rw [List.filter_flatMap]
  exact List.Perm.flatMap_left _ fun level _ => ownErrors_perm level.1 level.2

/-! ## Graphs without errors -/

theorem errorsOf_eq_nil_of_idsFit (path : String) (fit : graph.IdsFit) :
    errorsOf path graph = [] := by
  have nameless : graph.namelessPositions = [] := by
    refine List.eq_nil_iff_forall_not_mem.mpr fun position member => ?_
    have member := List.mem_of_getElem? (mem_namelessPositions_iff.mp member)
    obtain ⟨node, inNodes, isEmpty⟩ := List.mem_map.mp member
    exact fit.named node inNodes isEmpty
  have shared : graph.sharedIds = [] := by
    refine List.eq_nil_iff_forall_not_mem.mpr fun id member => ?_
    have several := (mem_sharedIds_iff.mp member).2
    have once := List.nodup_iff_count_le_one.mp fit.distinct id
    omega
  have dangling : ∀ node ∈ graph.winners, graph.dangling node = [] := by
    intro node member
    refine List.filter_eq_nil_iff.mpr ?_
    rintro ⟨field, target⟩ listed
    have known := fit.resolved node (mem_nodes_of_mem_winners member) field target listed
    simpa using known
  rw [errorsOf, nameless, shared]
  refine List.flatMap_eq_nil_iff.mpr fun node member => ?_
  rw [dangling node member, List.map_nil]

theorem idsFit_of_errorsOf_eq_nil (none : errorsOf path graph = []) : graph.IdsFit := by
  obtain ⟨aboutIds, aboutReferences⟩ := List.append_eq_nil_iff.mp none
  obtain ⟨noneNameless, noneShared⟩ := List.append_eq_nil_iff.mp aboutIds
  rw [List.map_eq_nil_iff] at noneNameless noneShared
  have named : ∀ node ∈ graph.nodes, node.id ≠ "" := by
    intro node member isEmpty
    obtain ⟨position, atPosition⟩ := List.mem_iff_getElem?.mp member
    have nameless : position ∈ graph.namelessPositions := by
      rw [mem_namelessPositions_iff, Graph.nodeIds, List.getElem?_map, atPosition, ← isEmpty]
      rfl
    rw [noneNameless] at nameless
    cases nameless
  have distinct : graph.nodeIds.Nodup := by
    refine List.nodup_iff_count_le_one.mpr fun id => ?_
    by_contra several
    have present : id ∈ graph.nodeIds := List.count_pos_iff.mp (by omega)
    obtain ⟨node, member, rfl⟩ := List.mem_map.mp present
    have shared : node.id ∈ graph.sharedIds :=
      mem_sharedIds_iff.mpr ⟨named node member, by omega⟩
    rw [noneShared] at shared
    cases shared
  refine ⟨named, distinct, fun node member field target listed => ?_⟩
  have winner := Graph.mem_winners_of_nodup named distinct member
  have noneDangling := List.flatMap_eq_nil_iff.mp aboutReferences node winner
  rw [List.map_eq_nil_iff, Graph.dangling, List.filter_eq_nil_iff] at noneDangling
  simpa using noneDangling (field, target) listed

theorem errorsOf_eq_nil_iff : errorsOf path graph = [] ↔ graph.IdsFit :=
  ⟨idsFit_of_errorsOf_eq_nil, errorsOf_eq_nil_of_idsFit path⟩

theorem Covers.contains {innerPath : String} {inner : Graph}
    (covers : Covers path graph innerPath inner) : graph.Contains inner := by
  induction covers with
  | self path graph => exact .self graph
  | nested member holds _ ih => exact .nested (mem_nodes_of_mem_winners member) holds ih

/-- Nothing is hidden from a report in which no graph has an error. -/
theorem covers_of_contains {inner : Graph} (contains : graph.Contains inner)
    (fit : ∀ innerPath inner, Covers path graph innerPath inner → inner.IdsFit) :
    ∃ innerPath, Covers path graph innerPath inner := by
  induction contains generalizing path with
  | self graph => exact ⟨path, .self path graph⟩
  | nested member holds _ ih =>
      have own := fit path _ (.self path _)
      have winner := Graph.mem_winners_of_nodup own.named own.distinct member
      obtain ⟨innerPath, covers⟩ := ih fun innerPath inner covers =>
        fit innerPath inner (.nested winner holds covers)
      exact ⟨innerPath, .nested winner holds covers⟩

theorem errors_eq_nil_iff (path : String) (graph : Graph) :
    (issues path graph).filter (·.severity == .error) = [] ↔
      ∀ inner, graph.Contains inner → inner.IdsFit := by
  have covered : (issues path graph).filter (·.severity == .error) = [] ↔
      ∀ innerPath inner, Covers path graph innerPath inner → inner.IdsFit := by
    rw [← List.perm_nil, (errors_perm path graph).congr_left, List.perm_nil,
      List.flatMap_eq_nil_iff, Prod.forall]
    simp only [mem_levels_iff, errorsOf_eq_nil_iff]
  rw [covered]
  constructor
  · intro fit inner contains
    obtain ⟨innerPath, covers⟩ := covers_of_contains contains fit
    exact fit innerPath inner covers
  · exact fun fit innerPath inner covers => fit inner covers.contains

end Lint

/-- The errors of a report are just those to be found in the graphs that it covers, each reported
once. A graph passes if and only if in each graph that it contains, at any depth, every node has an
id of its own and every reference leads to a node. -/
theorem Graph.lint_errors_exact (graph : Graph) :
    graph.lint.errors.Perm
      ((Lint.levels graph.lintRoot graph).flatMap fun level => Lint.errorsOf level.1 level.2) ∧
    (graph.lint.ensureValid = .ok () ↔ ∀ inner, graph.Contains inner → inner.IdsFit) := by
  refine ⟨Lint.errors_perm graph.lintRoot graph, ?_⟩
  rw [← Lint.errors_eq_nil_iff graph.lintRoot graph]
  unfold LintReport.ensureValid LintReport.hasErrors
  cases found : graph.lint.errors with
  | nil => exact iff_of_true rfl found
  | cons issue issues =>
      refine iff_of_false nofun fun none => ?_
      rw [LintReport.errors, lint, none] at found
      cases found

end SceneFlow
