import SceneFlow.Proofs.Lint.Errors
import SceneFlow.Proofs.Run.Chain
import SceneFlow.Proofs.Run.Visits

/-!
# What linting promises of resolution

A graph in which linting finds no error gives every node an id, and whatever a node that can be
given control refers to, some node has that id. The same holds of the graphs nested there. A run
asks for ids in another way than the linter: for the one that the node's activity names at the time.
Since that one is always among those the node refers to, no run of the graph ever misses a node.
-/

set_option autoImplicit false

namespace SceneFlow

theorem LintReport.hasErrors_eq_false_iff {report : LintReport} :
    report.hasErrors = false ↔ ∀ issue ∈ report.issues, issue.severity ≠ .error := by
  simp [hasErrors, errors, List.filter_eq_nil_iff]

namespace Graph

/-- Linting finds no error in the graph, wherever it lies. -/
def IsValid (graph : Graph) : Prop :=
  ∃ path, ∀ issue ∈ Lint.issues path graph, issue.severity ≠ .error

variable {graph : Graph}

theorem isValid_of_lint (valid : graph.lint.hasErrors = false) : graph.IsValid :=
  ⟨graph.lintRoot, LintReport.hasErrors_eq_false_iff.mp valid⟩

theorem isValid_iff : graph.IsValid ↔ ∀ inner, graph.Contains inner → inner.IdsFit := by
  have clean : ∀ path, (∀ issue ∈ Lint.issues path graph, issue.severity ≠ .error) ↔
      ∀ inner, graph.Contains inner → inner.IdsFit := by
    intro path
    rw [← Lint.errors_eq_nil_iff path graph, List.filter_eq_nil_iff]
    simp
  simp only [IsValid, clean, exists_const]

theorem IsValid.nested (valid : graph.IsValid) {node : Node Graph} {nested : Graph}
    (member : node ∈ graph.winners) (holds : node.kind.nested? = some nested) :
    nested.IsValid := by
  refine isValid_iff.mpr fun inner contains => ?_
  exact isValid_iff.mp valid inner (.nested (Lint.mem_nodes_of_mem_winners member) holds contains)

theorem IsValid.idsFit (valid : graph.IsValid) : graph.IdsFit :=
  isValid_iff.mp valid graph (.self graph)

theorem IsValid.resolves (valid : graph.IsValid) {node : Node Graph}
    (member : node ∈ graph.winners) {reference : ReferenceField × String}
    (refers : reference ∈ node.references) : graph.resolves reference.2 = true := by
  obtain ⟨field, target⟩ := reference
  have known :=
    valid.idsFit.resolved node (Lint.mem_nodes_of_mem_winners member) field target refers
  exact (Lint.resolves_iff_mem_nodeIds (Lint.ne_empty_of_mem_references refers)).mpr known

theorem IsValid.startIndex?_isSome (valid : graph.IsValid) (some : graph.nodes ≠ []) :
    graph.startIndex?.isSome = true := by
  obtain ⟨first, rest, nodes⟩ := List.exists_cons_of_ne_nil some
  have member : first ∈ graph.nodes := nodes ▸ List.mem_cons_self
  have named : first ∈ graph.named :=
    List.mem_filter.mpr ⟨member, decide_eq_true (valid.idsFit.named first member)⟩
  have start : graph.start? = Option.some first := by rw [start?, nodes, List.head?_cons]
  rw [startIndex?, start, Option.bind_some]
  exact resolves_iff.mpr ⟨first, named, rfl⟩

end Graph

/-! ## What a node asks for -/

theorem mem_of_nonEmpty?_getElem? {ids : List String} {position : Option Nat} {id : String}
    (found : nonEmpty? (position.bind (ids[·]?)) = some id) : id ∈ ids.filter (· ≠ "") := by
  obtain ⟨atPosition, notEmpty⟩ := Option.filter_eq_some_iff.mp found
  obtain ⟨index, _, atIndex⟩ := Option.bind_eq_some_iff.mp atPosition
  exact List.mem_filter.mpr ⟨List.mem_of_getElem? atIndex, notEmpty⟩

theorem Activity.exists_reference {activity : Activity} {id : String}
    (goes : activity.target? = some id) :
    ∃ field, (field, id) ∈ Node.kindReferences activity.kind := by
  cases activity with
  | branch conditions targets chosen =>
      exact ⟨.targets, List.mem_map_of_mem (mem_of_nonEmpty?_getElem? goes)⟩
  | sequence steps step =>
      exact ⟨.steps, List.mem_map_of_mem (mem_of_nonEmpty?_getElem? goes)⟩
  | loop body limit iteration finished =>
      cases finished with
      | true => cases goes
      | false =>
          refine ⟨.body, List.mem_map_of_mem ?_⟩
          exact Option.mem_toList.mpr goes
  | _ => cases goes

/-- Where a node sends control is among the ids it refers to. -/
theorem Instance.exists_reference {inst : Instance} {id : String}
    (goes : inst.successor? = some id) : ∃ field, (field, id) ∈ inst.node.references := by
  rcases Option.or_eq_some_iff.mp goes with target | ⟨_, onwards⟩
  · obtain ⟨field, listed⟩ := Activity.exists_reference target
    exact ⟨field, List.mem_append_right _ listed⟩
  · split at onwards
    · refine ⟨.next, List.mem_append_left _ (List.mem_map_of_mem ?_)⟩
      exact Option.mem_toList.mpr onwards
    · cases onwards

namespace Level

variable {σ : Type} [World σ] {level : Level}

/-- In a valid graph, control goes on from a node that can have it or the chain ends there. -/
theorem Sound.destination_ne_unresolved (sound : level.Sound) (valid : level.graph.IsValid)
    {index : Nat} (wins : level.graph.IsWinner index) (id : String) :
    level.destination index ≠ .unresolved id := by
  intro goes
  obtain ⟨inst, found⟩ := sound.instance_of_isWinner wins
  rw [sound.destination_eq] at goes
  split at goes
  next leading asked =>
    rw [successor?, found, Option.bind_some] at asked
    obtain ⟨field, refers⟩ := Instance.exists_reference asked
    have winner := wins.mem_winners (sound.named_of_instance found)
    have resolves := valid.resolves winner refers
    rw [Graph.resolves, Option.isSome_iff_exists] at resolves
    obtain ⟨next, leads⟩ := resolves
    simp only [leads] at goes
    cases goes
  · split at goes <;> cases goes

/-- A level with a first node has entered one. -/
theorem History.enters_pos {id : RunId} {graph : Graph} {departures : List Departure}
    (history : History σ id graph departures level) (start : graph.startIndex?.isSome = true) :
    0 < level.enters := by
  obtain ⟨index, found⟩ := Option.isSome_iff_exists.mp start
  rw [history.enters_eq, Graph.trail, found]
  exact Nat.succ_pos _

theorem Sound.deadEnd_of_ending (sound : level.Sound) {index : Nat}
    (goes : level.destination index = .ending) :
    level.successor? index = none ∧ level.returns.entries = [] := by
  refine ⟨?_, sound.entries_of_ending goes⟩
  rw [sound.destination_eq] at goes
  split at goes
  · split at goes <;> cases goes
  next asked => exact asked

end Level

/-- A run of a graph without errors, nested runs included, never asks for an id that no node has,
and each of its levels begins with a first node if there is any. So a level that ends does so where
a node has no successor and there is no node to return to, or it never had a node. -/
theorem Session.resolves_of_lint {graph : Graph} (valid : graph.lint.hasErrors = false)
    {σ : Type} [World σ] (world : Option σ) (id : RunId) (operations : List (Operation σ))
    (nested : Run) (member : nested ∈ (Session.after world id graph operations).run.chain) :
    let level := nested.level
    (level.graph.nodes ≠ [] → level.graph.startIndex?.isSome = true ∧ 0 < level.enters) ∧
    (∀ (seconds : Float32) (now : Option σ) (departure : Departure) (missing : String),
      nested.departure? seconds now = some departure →
        departure.destination ≠ .unresolved missing) ∧
    ∀ (seconds : Float32) (now : Option σ), nested.isFinished = false →
      (nested.advance seconds now).1.isFinished = true →
        ∃ departure, nested.departure? seconds now = some departure ∧
          let left := level.left seconds now departure.index
          left.successor? departure.index = none ∧ left.returns.entries = [] := by
  have whole := Session.sound world id graph operations
  have sound := whole.of_mem_chain member
  have clean : nested.level.graph.IsValid := by
    refine whole.graph_of_mem_chain ?_ ?_ member
    · intro outer index inner valid wins hosted
      obtain ⟨node, atIndex, holds⟩ := Option.bind_eq_some_iff.mp hosted
      exact valid.nested (wins.mem_winners atIndex) holds
    · rw [Session.graph_eq]
      exact Graph.isValid_of_lint valid
  obtain ⟨departures, history⟩ := Session.historic_of_mem_chain world id graph operations member
  have resolved : ∀ (seconds : Float32) (now : Option σ) (departure : Departure)
      (missing : String), nested.departure? seconds now = some departure →
        departure.destination ≠ .unresolved missing := by
    intro seconds now departure missing departed
    obtain ⟨index, current, rfl⟩ := Run.departure_of_departure? departed
    have left := sound.level.left current seconds now
    have sameGraph := Level.graph_left seconds now index nested.level
    refine left.destination_ne_unresolved ?_ ?_ missing
    · rw [sameGraph]
      exact clean
    · rw [sameGraph]
      exact sound.level.current index current
  refine ⟨fun some => ?_, resolved, fun seconds now running isOver => ?_⟩
  · have start := clean.startIndex?_isSome some
    exact ⟨start, history.enters_pos start⟩
  · have wasRunning : nested.level.current ≠ none := by
      intro none
      rw [Run.isFinished, Level.isFinished, none] at running
      cases running
    obtain ⟨departure, departed, nowhere⟩ := (sound.tickStep seconds now).departed_of_over
      wasRunning (Option.isNone_iff_eq_none.mp isOver)
    refine ⟨departure, departed, ?_⟩
    obtain ⟨index, current, rfl⟩ := Run.departure_of_departure? departed
    have left := sound.level.left current seconds now
    refine left.deadEnd_of_ending ?_
    cases goes : (nested.level.departure seconds now index).destination with
    | successor next =>
        rw [goes] at nowhere
        cases nowhere
    | resumption next returns =>
        rw [goes] at nowhere
        cases nowhere
    | ending => exact goes
    | unresolved missing => exact absurd goes (resolved seconds now _ missing departed)

/-- A graph that hosts another one, which waits at once. -/
def Graph.gated : Graph :=
  ⟨"outer",
    [(Node.start "open").followedBy "gate",
      Node.subFlow "gate" ⟨"inner", [Node.waitForTrigger "lock" "unlock"], []⟩], []⟩

theorem Session.resolves_gated : Graph.gated.lint.hasErrors = false ∧
    ∃ nested ∈ (Session.after (some EmptyWorld.empty) (.outermost 0) Graph.gated
        [.tick 0]).run.chain,
      nested.level.graph.id = "inner" ∧ nested.level.graph.startIndex?.isSome = true ∧
        0 < nested.level.enters := by
  have valid : Graph.gated.lint.hasErrors = false := by decide +kernel
  have nestedRun : ((Session.after (some EmptyWorld.empty) (.outermost 0) Graph.gated
      [.tick 0]).run.chain[1]?.map fun nested =>
        (nested.level.graph.id, nested.level.graph.nodes.length)) = some ("inner", 1) := by
    decide +kernel
  obtain ⟨nested, atOne, same⟩ := Option.map_eq_some_iff.mp nestedRun
  obtain ⟨sameId, oneNode⟩ := Prod.mk.inj same
  have member := List.mem_of_getElem? atOne
  refine ⟨valid, nested, member, sameId, ?_⟩
  refine (Session.resolves_of_lint valid _ _ _ nested member).1 ?_
  exact List.ne_nil_of_length_pos (oneNode ▸ Nat.one_pos)

end SceneFlow
