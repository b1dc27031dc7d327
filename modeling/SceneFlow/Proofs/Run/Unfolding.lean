import SceneFlow.Proofs.Graph.Remaining
import SceneFlow.Proofs.Run.Visits

/-!
# Runs of structured graphs

A run of a structured graph enters the nodes of the first node's expansion, in their order, and does
not end before it has entered them all. What is left of the expansion can be read off the level at
any time: it begins with what comes after the node that has control, and the return stack holds the
Sequences that go on after that. No node is come to by a reference twice, so each Sequence begins
with its first step.
-/

set_option autoImplicit false

namespace SceneFlow

theorem nonEmpty?_getD (id : Option String) : (nonEmpty? id).getD "" = id.getD "" := by
  cases id with
  | none => rfl
  | some id => by_cases empty : id = "" <;> simp [nonEmpty?, Option.filter, empty]

/-- A node without Branches and Loops goes through what it leads to, one id after each visit. -/
theorem Instance.successor?_eq {inst : Instance} {timesLeft : Nat}
    (follows : inst.activity.Follows (timesLeft + 1))
    (kinds : inst.node.type ≠ .branch ∧ inst.node.type ≠ .loop)
    (once : inst.node.type ≠ .sequence → timesLeft = 0) :
    inst.successor? = nonEmpty? inst.node.course[timesLeft]? := by
  rcases inst with ⟨id, nextId, activity⟩
  cases activity with
  | sequence steps step => exact Instance.successor?_of_sequence rfl follows
  | branch conditions targets chosen => exact absurd rfl kinds.1
  | loop body limit iteration finished => exact absurd rfl kinds.2
  | _ =>
      have first : timesLeft = 0 := once nofun
      subst first
      cases nextId <;> rfl

namespace Level

variable {σ : Type} [World σ]

/-- What has happened in a run of a structured graph, and what is left to happen. -/
structure Unfolding (graph : Graph) (departures : List Departure) (level : Level)
    (rest : List String) : Prop where
  /-- What a node has yet to lead to was not entered. -/
  fresh : ∀ (index : Nat) (node : Node Graph) (id : String) (next : Nat),
    graph.named[index]? = some node → id ∈ node.course.drop (timesLeft departures index) →
    graph.index? id = some next → next ∉ graph.trail departures
  once : ∀ (index : Nat) (node : Node Graph), graph.named[index]? = some node →
    node.type ≠ .sequence → graph.visits departures index ≤ 1
  pending : graph.Pending (timesLeft departures) level.current level.returns.entries rest

section Unfolding

variable {id : RunId} {graph : Graph} {departures : List Departure} {level : Level}
variable {rest : List String} {index : Nat} {node : Node Graph}

/-- What is needed of one more visit, that of the node control goes to. -/
theorem Unfolding.append {after : Level} {later : List String}
    (unfolding : Unfolding graph departures level rest) (departure : Departure)
    (apart : ∀ next, departure.destination.entered? = some next →
      ∀ (other : Nat) (source : Node Graph) (again : String), graph.named[other]? = some source →
        again ∈ source.course.drop (timesLeft (departures ++ [departure]) other) →
        graph.index? again ≠ some next)
    (newOrSequence : ∀ next, departure.destination.entered? = some next →
      graph.visits departures next = 0 ∨
        ∀ target, graph.named[next]? = some target → target.type = .sequence)
    (pending : graph.Pending (timesLeft (departures ++ [departure])) after.current
      after.returns.entries later) :
    Unfolding graph (departures ++ [departure]) after later where
  fresh := by
    intro other source again next atOther member leads
    rw [Graph.trail_append_singleton, List.mem_append, not_or]
    constructor
    · refine unfolding.fresh other source again next atOther ?_ leads
      exact List.drop_subset_drop_left _ (timesLeft_le_append departures departure other) member
    · intro entered
      exact apart next (Option.mem_toList.mp entered) other source again atOther member leads
  once := by
    intro other target atOther plain
    have before := unfolding.once other target atOther plain
    rw [Graph.visits_append_singleton]
    by_cases entered : departure.destination.entered? = some other
    · rw [if_pos entered]
      rcases newOrSequence other entered with new | sequence
      · omega
      · exact absurd (sequence target atOther) plain
    · rw [if_neg entered]
      exact before
  pending := pending

variable (unfolding : Unfolding graph departures level rest)
  (history : History σ id graph departures level) (current : level.current = some index)
  (atIndex : graph.named[index]? = some node)

include unfolding history current atIndex

theorem Unfolding.successor?_left (structured : graph.Structured) (seconds : Float32)
    (world : Option σ) :
    (level.left seconds world index).successor? index =
      nonEmpty? node.course[timesLeft departures index]? := by
  have visited := history.visits_of_current current
  obtain ⟨inst, found, atSame, follows, _⟩ := history.exists_left current seconds world
  rw [atIndex, Option.some.injEq] at atSame
  subst atSame
  rw [successor?, found, Option.bind_some]
  refine Instance.successor?_eq follows ?_ ?_
  · exact structured.kinds _ (Graph.mem_nodes_of_mem_named (List.mem_of_getElem? atIndex))
  · intro plain
    have bound := unfolding.once index _ atIndex plain
    omega

/-- What is left splits into the chain that the node leads to and what its stack holds after. -/
theorem Unfolding.pending_left (seconds : Float32) (world : Option σ) :
    ∃ first later, rest = first ++ later ∧
      graph.Expansion (node.course[timesLeft departures index]?.getD "") first ∧
      graph.Unwinds (timesLeft (departures ++ [level.departure seconds world index]))
        (level.left seconds world index).returns.entries later := by
  have pending := unfolding.pending
  rw [current] at pending
  have kept := history.stackKept
  obtain ⟨inst, _, atSame, follows, entries⟩ := history.exists_left current seconds world
  rw [atIndex, Option.some.injEq] at atSame
  have waiting := follows.hasStep_iff
  have elsewhere : ∀ other ∈ level.returns.entries, timesLeft departures other =
      timesLeft (departures ++ [level.departure seconds world index]) other := by
    intro other member
    have different : index ≠ other := fun same => kept.absent index current (same ▸ member)
    rw [timesLeft_append_singleton, departure, if_neg different, Nat.add_zero]
  have here := timesLeft_append_departure departures seconds world index level
  cases pending with
  | @running _ _ other own later atOther remaining others =>
      rw [atIndex, Option.some.injEq] at atOther
      subst atOther
      obtain ⟨first, others', rfl, expanded, goesOn⟩ := remaining.leave
      refine ⟨first, others' ++ later, List.append_assoc _ _ _, expanded, ?_⟩
      by_cases inRange : timesLeft departures index < node.kind.steps.length
      · rw [if_pos inRange] at goesOn
        obtain ⟨own, rfl, remains⟩ := goesOn
        rw [atSame] at inRange
        rw [if_pos (waiting.mpr ⟨Nat.succ_pos _, inRange⟩)] at entries
        rw [entries]
        exact .resume atIndex (here ▸ remains) (others.congr elsewhere)
      · rw [if_neg inRange] at goesOn
        rw [atSame] at inRange
        have idle : ¬ inst.activity.hasStep = true := fun hasStep =>
          inRange (waiting.mp hasStep).2
        rw [if_neg idle] at entries
        rw [entries, goesOn]
        exact others.congr elsewhere

omit unfolding atIndex in
/-- A node that was never entered was not left and does not stand on the stack. -/
theorem History.untouched_of_visits (seconds : Float32) (world : Option σ) {next : Nat}
    {target : Node Graph} (atNext : graph.named[next]? = some target)
    (new : graph.visits departures next = 0) :
    timesLeft (departures ++ [level.departure seconds world index]) next = 0 ∧
      next ∉ (level.left seconds world index).returns.entries := by
  have stacked := history.stackKept.left history.sound current seconds world
  have visited := history.visits_eq next
  rw [current] at visited
  have sameLeft : (level.departure seconds world index).index = index := rfl
  constructor
  · rw [timesLeft_append_singleton, sameLeft]
    simp only [Option.some.injEq] at visited
    omega
  · intro member
    have waiting := stacked.hasStep next member
    rw [hasStepAt_left, history.hasStepAt_iff atNext] at waiting
    omega

/-- A reference leads to a node that was not entered before. -/
theorem Unfolding.moved_of_successor (structured : graph.Structured) (seconds : Float32)
    (world : Option σ) {next : Nat} {leading : String} {departure : Departure}
    (departed : departure = level.departure seconds world index)
    (here : node.course[timesLeft departures index]? = some leading)
    (leads : graph.index? leading = some next) (goes : departure.destination = .successor next) :
    ∃ later, rest = graph.idsAt [next] ++ later ∧
      Unfolding graph (departures ++ [departure])
        ((level.left seconds world index).follow world departure.destination) later := by
  obtain ⟨first, later, rfl, expanded, unwinds⟩ :=
    unfolding.pending_left history current atIndex seconds world
  rw [here, Option.getD_some] at expanded
  obtain ⟨target, own, atNext, rfl, remaining⟩ := expanded.entered leads
  have bound := (List.getElem?_eq_some_iff.mp here).1
  have listed : leading ∈ node.course.drop (timesLeft departures index) := by
    rw [List.drop_eq_getElem_cons bound, (List.getElem?_eq_some_iff.mp here).2]
    exact List.mem_cons_self
  have new : graph.visits departures next = 0 :=
    List.count_eq_zero.mpr (unfolding.fresh index node leading next atIndex listed leads)
  obtain ⟨never, absent⟩ := history.untouched_of_visits current seconds world atNext new
  rw [← departed] at unwinds never
  have sound := history.sound.left current seconds world
  have wins : (level.left seconds world index).graph.IsWinner next := by
    rw [history.graph_left]
    exact Graph.isWinner_of_index? leads
  refine ⟨own ++ later, ?_, unfolding.append departure ?_ ?_ ?_⟩
  · rw [Session.idsAt_singleton atNext]
    rfl
  · rw [goes]
    intro entered same other source again atOther member alsoLeads
    cases same
    refine structured.not_leads_again atIndex atOther here leads alsoLeads ?_
    have sameLeft : departure.index = index := by rw [departed]; rfl
    rw [timesLeft_append_singleton, sameLeft] at member
    refine List.drop_subset_drop_left _ ?_ member
    split
    next same =>
      subst same
      exact Nat.le_refl _
    · exact Nat.zero_le _
  · rw [goes]
    intro entered same
    cases same
    exact .inl new
  · rw [goes, follow, current_enter, entries_enter_of_not_mem sound wins absent]
    exact .running atNext (never ▸ remaining) unwinds

/-- A chain that ends leads back to a Sequence that was entered before. -/
theorem Unfolding.moved_of_resumption (seconds : Float32) (world : Option σ) {next : Nat}
    {stack : List Nat} {departure : Departure}
    (departed : departure = level.departure seconds world index)
    (deadEnd : nonEmpty? node.course[timesLeft departures index]? = none)
    (goes : departure.destination = .resumption next ⟨stack⟩) :
    ∃ later, rest = graph.idsAt [next] ++ later ∧
      Unfolding graph (departures ++ [departure])
        ((level.left seconds world index).follow world departure.destination) later := by
  obtain ⟨first, later, rfl, expanded, unwinds⟩ :=
    unfolding.pending_left history current atIndex seconds world
  rw [← nonEmpty?_getD, deadEnd, Option.getD_none] at expanded
  have nothing := expanded.eq_nil
  subst nothing
  have sound := history.sound.left current seconds world
  have stacked := history.stackKept.left history.sound current seconds world
  have atDestination : (level.left seconds world index).destination index =
      .resumption next ⟨stack⟩ := by
    rw [← goes, departed]
    rfl
  have top := sound.entries_of_resumption atDestination
  have member : next ∈ (level.left seconds world index).returns.entries :=
    top ▸ List.mem_cons_self
  have absent : next ∉ stack := by
    have nodup := stacked.nodup
    rw [top] at nodup
    exact (List.nodup_cons.mp nodup).1
  rw [← departed, top] at unwinds
  cases unwinds with
  | @resume _ _ target own others atNext remaining unwinds =>
      have waiting := stacked.hasStep next member
      rw [hasStepAt_left, history.hasStepAt_iff atNext] at waiting
      have before : next ∈ graph.trail departures := List.count_pos_iff.mp waiting.1
      refine ⟨own ++ others, ?_, unfolding.append departure ?_ ?_ ?_⟩
      · rw [Session.idsAt_singleton atNext]
        rfl
      · rw [goes]
        intro entered same other source again atOther listed leads
        cases same
        refine unfolding.fresh other source again next atOther ?_ leads before
        exact List.drop_subset_drop_left _ (timesLeft_le_append departures departure other) listed
      · rw [goes]
        intro entered same
        cases same
        refine .inr fun again atAgain => ?_
        rw [atNext, Option.some.injEq] at atAgain
        subst atAgain
        exact NodeKind.type_of_steps (Nat.lt_of_lt_of_le waiting.1 waiting.2)
      · rw [goes, follow, current_enter]
        rw [entries_enter_of_not_mem (sound.withReturns
          (sound.returns_subset_of_resumption atDestination))
          (sound.returns next member) absent]
        exact .running atNext remaining unwinds

/-- Where nothing is to be returned to, nothing is left. -/
theorem Unfolding.moved_of_ending (seconds : Float32) (world : Option σ) {departure : Departure}
    (departed : departure = level.departure seconds world index)
    (deadEnd : nonEmpty? node.course[timesLeft departures index]? = none)
    (goes : departure.destination = .ending) :
    rest = [] ∧ Unfolding graph (departures ++ [departure])
      ((level.left seconds world index).follow world departure.destination) [] := by
  obtain ⟨first, later, rfl, expanded, unwinds⟩ :=
    unfolding.pending_left history current atIndex seconds world
  rw [← nonEmpty?_getD, deadEnd, Option.getD_none] at expanded
  have sound := history.sound.left current seconds world
  have atDestination : (level.left seconds world index).destination index = .ending := by
    rw [← goes, departed]
    rfl
  rw [sound.entries_of_ending atDestination] at unwinds
  cases unwinds
  refine ⟨by rw [expanded.eq_nil]; rfl, unfolding.append departure ?_ ?_ ?_⟩
  · rw [goes]
    nofun
  · rw [goes]
    nofun
  · rw [goes]
    exact .finished

theorem Unfolding.moved (structured : graph.Structured) (seconds : Float32) (world : Option σ)
    {departure : Departure} (departed : departure = level.departure seconds world index) :
    ∃ later, rest = graph.idsAt departure.destination.entered?.toList ++ later ∧
      Unfolding graph (departures ++ [departure])
        ((level.left seconds world index).follow world departure.destination) later := by
  have sameGraph := history.graph_left seconds world index
  have goes := (history.sound.left current seconds world).destination_eq index
  rw [unfolding.successor?_left history current atIndex structured, sameGraph] at goes
  have atDestination : (level.left seconds world index).destination index =
      departure.destination := by
    rw [departed]
    rfl
  rw [atDestination] at goes
  cases onwards : nonEmpty? node.course[timesLeft departures index]? with
  | some leading =>
      obtain ⟨here, notEmpty⟩ := Option.filter_eq_some_iff.mp onwards
      have follows : leading ∈ graph.followed := by
        refine Graph.Structured.mem_followed
          (Graph.mem_nodes_of_mem_named (List.mem_of_getElem? atIndex)) ?_
        rw [Node.followed_eq]
        exact List.mem_filter.mpr ⟨List.mem_of_getElem? here, notEmpty⟩
      obtain ⟨next, leads⟩ := Option.isSome_iff_exists.mp (structured.resolved leading follows)
      simp only [onwards, leads] at goes
      obtain ⟨later, split, after⟩ := unfolding.moved_of_successor history current atIndex
        structured seconds world departed here leads goes
      refine ⟨later, ?_, after⟩
      rw [goes]
      exact split
  | none =>
      cases entries : (level.left seconds world index).returns.entries with
      | cons next stack =>
          simp only [onwards, entries] at goes
          obtain ⟨later, split, after⟩ := unfolding.moved_of_resumption history current atIndex
            seconds world departed onwards goes
          refine ⟨later, ?_, after⟩
          rw [goes]
          exact split
      | nil =>
          simp only [onwards, entries] at goes
          obtain ⟨nothing, after⟩ := unfolding.moved_of_ending history current atIndex
            seconds world departed onwards goes
          refine ⟨[], ?_, after⟩
          rw [goes]
          exact nothing

end Unfolding

theorem unfolding_begin {graph : Graph} (structured : graph.Structured) {ids : List String}
    (expansion : graph.Expansion graph.startId ids) (world : Option σ) (id : RunId) :
    ∃ rest, graph.idsAt (graph.trail []) ++ rest = ids ∧
      Unfolding graph [] (Level.begin world id graph) rest := by
  have current := current_begin world id graph
  have sound := sound_ofGraph id graph
  cases start : graph.start? with
  | none =>
      have notFound : graph.startIndex? = none := by rw [Graph.startIndex?, start, Option.bind_none]
      have nowhere : graph.trail [] = [] := by rw [Graph.trail, notFound]; rfl
      rw [Graph.startId, start] at expansion
      refine ⟨[], ?_, { fresh := ?_, once := ?_, pending := ?_ }⟩
      · rw [expansion.eq_nil, nowhere]
        rfl
      · simp [nowhere]
      · simp [Graph.visits, nowhere]
      · rw [current, notFound]
        exact .finished
  | some first =>
      have atStart : graph.named[0]? = some first := by
        rw [structured.named_eq, ← List.head?_eq_getElem?]
        exact start
      have leads := structured.isWinner atStart
      have found : graph.startIndex? = some 0 := by
        rw [Graph.startIndex?, start, Option.bind_some, leads]
      have only : graph.trail [] = [0] := by rw [Graph.trail, found]; rfl
      rw [Graph.startId, start] at expansion
      obtain ⟨node, own, atIndex, rfl, remaining⟩ := expansion.entered leads
      refine ⟨own ++ [], ?_, { fresh := ?_, once := ?_, pending := ?_ }⟩
      · simp [Graph.idsAt, only, atIndex]
      · intro other source again next atOther member alsoLeads
        rw [only, List.mem_singleton]
        rintro rfl
        have same := Graph.named_eq_of_index? alsoLeads leads
        subst same
        refine structured.start_not_followed first start
          (Graph.Structured.mem_followed (Graph.mem_nodes_of_mem_named
            (List.mem_of_getElem? atOther)) ?_)
        rw [Node.followed_eq]
        refine List.mem_filter.mpr ⟨List.mem_of_mem_drop member, decide_eq_true ?_⟩
        exact structured.ids_ne_empty first (List.mem_of_mem_head? start)
      · intro other source atOther plain
        rw [Graph.visits, only, List.count_singleton]
        split <;> omega
      · have wins : graph.IsWinner 0 := Graph.isWinner_of_index? leads
        have entries : (Level.begin world id graph).returns.entries = [] := by
          unfold Level.begin
          simp only [found]
          exact entries_enter_of_not_mem sound wins (List.not_mem_nil) world
        rw [current, found, entries]
        exact .running atIndex remaining .nothing

theorem History.unfolding {id : RunId} {graph : Graph} {departures : List Departure}
    {level : Level} (structured : graph.Structured) {ids : List String}
    (expansion : graph.Expansion graph.startId ids)
    (history : History σ id graph departures level) :
    ∃ rest, graph.idsAt (graph.trail departures) ++ rest = ids ∧
      Unfolding graph departures level rest := by
  induction history with
  | begin world => exact unfolding_begin structured expansion world id
  | @tick world departures level after departure before step ih =>
      obtain ⟨rest, whole, unfolding⟩ := ih
      cases step with
      | idle => exact ⟨rest, by rwa [Option.toList_none, List.append_nil],
          by rwa [Option.toList_none, List.append_nil]⟩
      | stay =>
          rw [Option.toList_none, List.append_nil]
          exact ⟨rest, whole, { unfolding with }⟩
      | @move seconds index inst current found done =>
          have atIndex := before.sound.named_of_instance found
          rw [before.graph_eq] at atIndex
          obtain ⟨later, split, moved⟩ :=
            unfolding.moved before current atIndex structured seconds world rfl
          refine ⟨later, ?_, moved⟩
          rw [Option.toList_some, Graph.trail_append_singleton, Session.idsAt_append,
            List.append_assoc, ← split, whole]
  | signal trigger _ ih =>
      obtain ⟨rest, whole, unfolding⟩ := ih
      refine ⟨rest, whole, { unfolding with pending := ?_ }⟩
      rw [current_signal, returns_signal]
      exact unfolding.pending

end Level

/-- A structured graph has one expansion. Every run of it has entered the nodes of a part of that,
from its beginning and in order, and all of them when it is over. -/
theorem Session.entered_follows_expansion {graph : Graph} (structured : graph.Structured) :
    ∃ ids, (∀ others, graph.Expansion graph.startId others ↔ others = ids) ∧
      ∀ {σ : Type} [World σ] (world : Option σ) (id : RunId) (operations : List (Operation σ)),
        let session := Session.after world id graph operations
        session.entered <+: ids ∧ (session.run.isFinished = true → session.entered = ids) := by
  obtain ⟨ids, expansion⟩ := structured.exists_expansion
  have only : ∀ others, graph.Expansion graph.startId others ↔ others = ids := fun others =>
    ⟨fun other => other.unique expansion, fun same => same ▸ expansion⟩
  refine ⟨ids, only, fun {σ} _ world id operations => ?_⟩
  have history := Session.history world id graph operations
  obtain ⟨rest, whole, unfolding⟩ := history.unfolding structured expansion
  rw [← Session.entered_eq] at whole
  refine ⟨⟨rest, whole⟩, fun finished => ?_⟩
  have pending := unfolding.pending
  have isOver : (Session.after world id graph operations).run.level.current = none :=
    Option.isNone_iff_eq_none.mp finished
  rw [isOver] at pending
  cases pending
  rw [← whole, List.append_nil]

/-- A graph in which a Sequence is a step of another one, after a step without an id. -/
def Graph.twoActs : Graph :=
  ⟨"twoActs",
    [(Node.start "open").followedBy "acts", Node.sequence "acts" ["first", "", "second"],
      Node.start "first", Node.sequence "second" ["last"], Node.start "last"], []⟩

theorem Graph.structured_twoActs : twoActs.Structured where
  ids_ne_empty := by decide
  ids_distinct := by decide
  kinds := by decide
  resolved := by decide
  start_not_followed := by
    intro node start
    cases start
    decide
  followed_once := by decide

theorem Graph.expansion_twoActs : twoActs.Expansion twoActs.startId
    ["open", "acts", "first", "acts", "acts", "second", "last", "second", "acts"] := by
  have first : twoActs.Expansion "first" ["first"] := .visit rfl nofun .nothing
  have last : twoActs.Expansion "last" ["last"] := .visit rfl nofun .nothing
  have second : twoActs.Expansion "second" ["second", "last", "second"] :=
    .sequence rfl rfl (.step last .nothing)
  have acts : twoActs.Expansion "acts"
      ["acts", "first", "acts", "acts", "second", "last", "second", "acts"] :=
    .sequence rfl rfl (.step first (.step .nothing (.step second .nothing)))
  exact .visit rfl nofun acts

theorem Session.entered_twoActs : Graph.twoActs.Structured ∧
    (Session.after (some EmptyWorld.empty) (.outermost 0) Graph.twoActs
      [.tick 0, .signal "go", .tick 0]).entered <+:
        ["open", "acts", "first", "acts", "acts", "second", "last", "second", "acts"] := by
  obtain ⟨ids, only, runs⟩ := Session.entered_follows_expansion Graph.structured_twoActs
  rw [(only _).mp Graph.expansion_twoActs]
  exact ⟨Graph.structured_twoActs, (runs _ _ _).1⟩

end SceneFlow
