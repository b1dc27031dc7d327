import SceneFlow.Proofs.Lint.Reachability
import SceneFlow.Proofs.Lint.Resolution
import SceneFlow.Proofs.Run.Chain

/-!
# Where control comes to

Control goes on to a node that the one before refers to, or back to a node that had it before. So it
only ever comes to nodes that references lead to from the first one, and the linter calls none of
these unreachable. Nor is any other node reported to be entered: the entering of a node is reported
of a run under way, by the operation that gives control to the node.
-/

set_option autoImplicit false

namespace SceneFlow

/-- A path of references leads from the first node to the node of a number. -/
def Graph.ReachesAt (graph : Graph) (index : Nat) : Prop :=
  ∃ node, graph.named[index]? = some node ∧ graph.Reaches node.id

theorem Graph.Reaches.refer {graph : Graph} {id next : String} (reaches : graph.Reaches id)
    (refers : graph.Refers id next) : graph.Reaches next := by
  obtain ⟨start, first, path⟩ := reaches
  exact ⟨start, first, path.tail refers⟩

theorem Graph.reachesAt_of_index? {graph : Graph} {id : String} {index : Nat}
    (reaches : graph.Reaches id) (found : graph.index? id = some index) :
    graph.ReachesAt index := by
  obtain ⟨node, atIndex, rfl⟩ := named_of_index? found
  exact ⟨node, atIndex, reaches⟩

namespace Level

variable {σ : Type} [World σ] {level : Level}

/-- References lead to the node that has control and to all nodes that are to get it back. -/
structure Reached (level : Level) : Prop where
  current : ∀ index, level.current = some index → level.graph.ReachesAt index
  returns : ∀ index ∈ level.returns.entries, level.graph.ReachesAt index

theorem reached_ofGraph (id : RunId) (graph : Graph) : (ofGraph id graph).Reached where
  current _ current := nomatch current
  returns _ member := nomatch member

theorem Reached.enter (reached : level.Reached) (sound : level.Sound) {next : Nat}
    (wins : level.graph.IsWinner next) (reaches : level.graph.ReachesAt next) (world : Option σ) :
    (level.enter world next).Reached where
  current index current := by
    rw [current_enter, Option.some.injEq] at current
    rw [graph_enter]
    exact current ▸ reaches
  returns index member := by
    obtain ⟨inst, found⟩ := sound.instance_of_isWinner wins
    rw [returns_enter found] at member
    rw [graph_enter]
    exact reached.returns index (entries_returnsOnEntry_subset _ _ _ member)

theorem Reached.begin (world : Option σ) (id : RunId) (graph : Graph) :
    (Level.begin world id graph).Reached := by
  unfold Level.begin
  split
  · exact reached_ofGraph id graph
  next index found =>
    obtain ⟨start, first, resolved⟩ := Option.bind_eq_some_iff.mp found
    have reaches : graph.Reaches start.id := ⟨start, first, .refl⟩
    exact (reached_ofGraph id graph).enter (sound_ofGraph id graph)
      (Graph.isWinner_of_index? resolved) (Graph.reachesAt_of_index? reaches resolved) world

theorem Reached.leave (reached : level.Reached) (sound : level.Sound) {index : Nat}
    (current : level.current = some index) : (level.leave index).Reached where
  current other leaving := by
    obtain ⟨_, _, whole⟩ := leave_eq index level
    rw [whole] at leaving
    rw [graph_leave]
    exact reached.current other leaving
  returns other member := by
    obtain ⟨inst, found⟩ := sound.instance_of_current current
    rw [returns_leave found, entries_returnsOnExit] at member
    rw [graph_leave]
    split at member
    · rcases List.mem_cons.mp member with rfl | older
      · exact reached.current other current
      · exact reached.returns other older
    · exact reached.returns other member

/-- The next node is one that the node refers to. -/
theorem Sound.reachesAt_successor (sound : level.Sound) {index next : Nat}
    (wins : level.graph.IsWinner index) (reaches : level.graph.ReachesAt index)
    (goes : level.destination index = .successor next) : level.graph.ReachesAt next := by
  obtain ⟨node, atIndex, path⟩ := reaches
  obtain ⟨id, asked, leads⟩ := sound.successor?_of_successor goes
  obtain ⟨inst, found, rfl⟩ := sound.instance_of_named atIndex
  rw [successor?, found, Option.bind_some] at asked
  refine Graph.reachesAt_of_index? (path.refer ?_) leads
  refine ⟨inst.node, wins.mem_winners atIndex, rfl, ?_, Instance.exists_reference asked⟩
  rw [Graph.resolves, leads]
  rfl

theorem Reached.follow (reached : level.Reached) (sound : level.Sound) {index : Nat}
    (current : level.current = some index) (world : Option σ) :
    (level.follow world (level.destination index)).Reached := by
  have wins : ∀ next, (level.destination index).entered? = some next →
      level.graph.IsWinner next := fun _ goes => sound.isWinner_of_entered goes
  cases goes : level.destination index with
  | successor next =>
      exact reached.enter sound (wins next (by rw [goes]; rfl))
        (sound.reachesAt_successor (sound.current index current) (reached.current index current)
          goes) world
  | resumption next returns =>
      have fewer := sound.returns_subset_of_resumption goes
      have top : next ∈ level.returns.entries :=
        sound.entries_of_resumption goes ▸ List.mem_cons_self
      have shorter : ({ level with returns } : Level).Reached :=
        ⟨reached.current, fun index member => reached.returns index (fewer member)⟩
      exact shorter.enter (sound.withReturns fewer) (wins next (by rw [goes]; rfl))
        (reached.returns next top) world
  | ending =>
      exact { current := fun _ current => (nomatch current)
              returns := fun _ member => (nomatch member) }
  | unresolved id =>
      exact { current := fun _ current => (nomatch current), returns := reached.returns }

theorem current_left (seconds : Float32) (world : Option σ) (index : Nat) (level : Level) :
    (level.left seconds world index).current = level.current := by
  obtain ⟨_, _, whole⟩ := leave_eq index (level.worked seconds world index)
  rw [left, whole]
  rfl

theorem TickStep.reached {world : Option σ} {after : Level} {departure : Option Departure}
    (step : TickStep world level departure after) (sound : level.Sound)
    (reached : level.Reached) : after.Reached := by
  cases step with
  | idle => exact reached
  | stay => exact ⟨reached.current, reached.returns⟩
  | @move seconds index inst current =>
      have worked : (level.worked seconds world index).Reached := ⟨reached.current, reached.returns⟩
      have left := worked.leave (sound.worked seconds world index) current
      exact left.follow (sound.left current seconds world)
        ((current_left seconds world index level).trans current) world

theorem History.reached {id : RunId} {graph : Graph} {departures : List Departure}
    (history : History σ id graph departures level) : level.Reached := by
  induction history with
  | begin world => exact .begin world id graph
  | tick before step ih => exact step.reached before.sound ih
  | signal trigger _ ih => exact ⟨by simpa using ih.current, by simpa using ih.returns⟩

end Level

/-! ## Reports of entered nodes -/

namespace Run

variable {σ : Type} [World σ]

/-- The run, or one nested in it, has control at the node whose entry the event reports. -/
def ShowsEntry (run : Run) (event : Event) : Prop :=
  ∃ nested ∈ run.chain, nested.level.id = event.run ∧
    ∃ inst, nested.level.current? = some inst ∧ event.enteredNode? = some inst.id

theorem ShowsEntry.hosting {inner : Run} {event : Event} (shows : inner.ShowsEntry event)
    (level : Level) : (Run.hosting level inner).ShowsEntry event := by
  obtain ⟨nested, member, inside⟩ := shows
  exact ⟨nested, List.mem_cons_of_mem _ member, inside⟩

/-- A run that is over shows no entry. -/
theorem Sound.not_showsEntry {run : Run} (sound : run.Sound) (isOver : run.isFinished = true)
    (event : Event) : ¬ run.ShowsEntry event := by
  rintro ⟨nested, member, _, inst, current, _⟩
  have noControl : run.level.current = none := Option.isNone_iff_eq_none.mp isOver
  cases sound with
  | alone =>
      rw [List.mem_singleton.mp member, Level.current?, noControl] at current
      cases current
  | hosting _ goesOn => cases goesOn.symm.trans noControl

theorem showsEntry_of_mem_enteredReport {run : Run} {index : Nat} {event : Event}
    (current : run.level.current = some index)
    (member : event ∈ run.level.enteredReport index) : run.ShowsEntry event := by
  unfold Level.enteredReport at member
  split at member
  · cases member
  next inst found =>
    rw [List.mem_singleton.mp member]
    exact ⟨run, mem_chain_self run, rfl, inst, Level.current?_of_found current found, rfl⟩

mutual

theorem showsEntry_of_mem_start (world : Option σ) (id : RunId) (graph : Graph) (event : Event)
    (member : event ∈ (start world id graph).2) (entry : event.enteredNode?.isSome = true) :
    (start world id graph).1.ShowsEntry event := by
  match found : graph.startIndex? with
  | none =>
      rw [start_of_none found] at member
      rcases List.mem_cons.mp member with rfl | member
      · cases entry
      · rw [List.mem_singleton.mp member] at entry
        cases entry
  | some index =>
      rw [start_of_some found] at member ⊢
      rcases List.mem_cons.mp member with rfl | member
      · cases entry
      · exact showsEntry_of_mem_enter world index (Level.ofGraph id graph) event member entry
termination_by 2 * graph.nesting + 1
decreasing_by
  simp only [Level.ofGraph]
  omega

theorem showsEntry_of_mem_enter (world : Option σ) (index : Nat) (level : Level) (event : Event)
    (member : event ∈ (enter world index level).2) (entry : event.enteredNode?.isSome = true) :
    (enter world index level).1.ShowsEntry event := by
  match hosted : level.graph.nestedAt? index with
  | none =>
      rw [enter_of_none hosted] at member ⊢
      exact showsEntry_of_mem_enteredReport (Level.current_enter world index level) member
  | some graph =>
      rw [enter_hosting hosted] at member ⊢
      rcases List.mem_append.mp member with inside | own
      · exact (showsEntry_of_mem_start world (level.id.nested (level.enters + 1)) graph event inside
          entry).hosting _
      · exact showsEntry_of_mem_enteredReport (Level.current_enter world index level) own
termination_by 2 * level.graph.nesting
decreasing_by
  have := Graph.nesting_lt_of_nestedAt? hosted
  omega

end

theorem showsEntry_of_mem_arrive {world : Option σ} {level : Level} {destination : Destination}
    {event : Event} (member : event ∈ (arrive world level destination).2)
    (entry : event.enteredNode?.isSome = true) :
    (arrive world level destination).1.ShowsEntry event := by
  cases destination with
  | successor next => exact showsEntry_of_mem_enter world next level event member entry
  | resumption next returns =>
      exact showsEntry_of_mem_enter world next { level with returns } event member entry
  | ending | unresolved =>
      rw [List.mem_singleton.mp member] at entry
      cases entry

theorem showsEntry_of_mem_moveOn {world : Option σ} {index : Nat} {level : Level} {event : Event}
    (member : event ∈ (moveOn world index level).2) (entry : event.enteredNode?.isSome = true) :
    (moveOn world index level).1.ShowsEntry event := by
  rw [moveOn_eq] at member ⊢
  rcases List.mem_append.mp member with exited | arrived
  · obtain ⟨inst, rfl⟩ := Level.eq_of_mem_exitedReport exited
    cases entry
  · exact showsEntry_of_mem_arrive arrived entry

/-- The nodes that a tick reports to be entered have control after it. -/
theorem Sound.showsEntry_of_mem_advance {run : Run} (sound : run.Sound) {seconds : Float32}
    {world : Option σ} {event : Event} (member : event ∈ (run.advance seconds world).2)
    (entry : event.enteredNode?.isSome = true) :
    (run.advance seconds world).1.ShowsEntry event := by
  induction sound with
  | @alone level sound free =>
      cases current : level.current with
      | none =>
          have isOver : (Run.alone level).level.current = none := current
          rw [advance_of_current_none isOver] at member
          cases member
      | some index =>
          obtain ⟨inst, found⟩ := sound.instance_of_current current
          rw [advance_alone current found] at member ⊢
          split at member
          next done =>
            rw [if_pos done]
            exact showsEntry_of_mem_moveOn member entry
          · cases member
  | @hosting level inner index sound current hosted identity within ih =>
      rw [advance_hosting sound current hosted] at member ⊢
      split at member
      next isOver =>
        rw [if_pos isOver]
        rcases List.mem_append.mp member with inside | moved
        · exact absurd (ih inside) ((within.advance seconds world).not_showsEntry isOver event)
        · exact showsEntry_of_mem_moveOn moved entry
      next running =>
        rw [if_neg running]
        exact (ih member).hosting _

end Run

namespace Session

variable {σ : Type} [World σ] (world : Option σ) (id : RunId) (graph : Graph)

/-- Each entry is reported by an operation after which the node has control. -/
theorem exists_showsEntry (operations : List (Operation σ)) {event : Event}
    (member : event ∈ (after world id graph operations).events)
    (entry : event.enteredNode?.isSome = true) :
    ∃ earlier, earlier <+: operations ∧
      (after world id graph earlier).run.ShowsEntry event := by
  induction operations using List.reverseRecOn with
  | nil =>
      exact ⟨[], List.prefix_rfl, Run.showsEntry_of_mem_start world id graph event member entry⟩
  | append_singleton operations operation ih =>
      have sound := sound world id graph operations
      have past : event ∈ (after world id graph operations).events →
          ∃ earlier, earlier <+: operations ++ [operation] ∧
            (after world id graph earlier).run.ShowsEntry event := by
        intro before
        obtain ⟨earlier, front, shown⟩ := ih before
        exact ⟨earlier, front.trans (List.prefix_append _ _), shown⟩
      rw [after_append] at member
      cases operation with
      | tick seconds =>
          rcases List.mem_append.mp member with before | ticked
          · exact past before
          · refine ⟨operations ++ [.tick seconds], List.prefix_rfl, ?_⟩
            rw [after_append]
            exact sound.showsEntry_of_mem_advance ticked entry
      | signal trigger =>
          rcases List.mem_append.mp member with before | signalled
          · exact past before
          · rw [List.mem_singleton.mp signalled] at entry
            cases entry
      | change become => exact past member

/-- The report on a graph covers the graph of every run that is under way. -/
theorem exists_covers (operations : List (Operation σ)) {nested : Run}
    (member : nested ∈ (after world id graph operations).run.chain) :
    ∃ path, Lint.Covers graph.lintRoot graph path nested.level.graph := by
  have sound := sound world id graph operations
  have handsDown : ∀ outer index inner, (∃ path, Lint.Covers graph.lintRoot graph path outer) →
      outer.IsWinner index → outer.nestedAt? index = some inner →
        ∃ path, Lint.Covers graph.lintRoot graph path inner := by
    rintro outer index inner ⟨path, covers⟩ wins hosted
    obtain ⟨node, atIndex, holds⟩ := Option.bind_eq_some_iff.mp hosted
    exact ⟨path ++ "/" ++ node.id,
      covers.trans (.nested (wins.mem_winners atIndex) holds (.self _ inner))⟩
  refine sound.graph_of_mem_chain handsDown ?_ member
  rw [graph_eq]
  exact ⟨_, .self _ graph⟩

/-- References lead to every node that has control. -/
theorem reaches_of_current (operations : List (Operation σ)) {nested : Run}
    (member : nested ∈ (after world id graph operations).run.chain) {inst : Instance}
    (current : nested.level.current? = some inst) :
    inst.node ∈ nested.level.graph.winners ∧ nested.level.graph.Reaches inst.id := by
  obtain ⟨departures, history⟩ := historic_of_mem_chain world id graph operations member
  obtain ⟨index, atNode, found⟩ := Option.bind_eq_some_iff.mp current
  obtain ⟨node, atIndex, reaches⟩ := history.reached.current index atNode
  have same := history.sound.named_of_instance found
  rw [atIndex, Option.some.injEq] at same
  subst same
  exact ⟨(history.sound.current index atNode).mem_winners atIndex, reaches⟩

/-- The nodes that linting a graph calls unreachable are, in each graph that the report covers, the
winning nodes that no references lead to from the first one. A run of the graph and all runs nested
in it are runs of graphs that the report covers. They only ever have control at winning nodes that
references lead to, and report to enter no other ones: each entry is reported by an operation after
which a run of its identity has control at that node. -/
theorem unreachable_never_entered (operations : List (Operation σ)) :
    (∀ issue : Issue, issue.kind = .unreachable → (issue ∈ graph.lint.issues ↔
      ∃ path inner node, Lint.Covers graph.lintRoot graph path inner ∧ inner.IsLeftOut node ∧
        issue = Lint.about path node .unreachable)) ∧
    (∀ nested ∈ (after world id graph operations).run.chain,
      (∃ path, Lint.Covers graph.lintRoot graph path nested.level.graph) ∧
      ∀ inst, nested.level.current? = some inst →
        inst.node ∈ nested.level.graph.winners ∧ nested.level.graph.Reaches inst.id ∧
        ¬ nested.level.graph.IsLeftOut inst.node) ∧
    ∀ event ∈ (after world id graph operations).events, ∀ name,
      event.enteredNode? = some name →
        ∃ earlier, earlier <+: operations ∧
          ∃ nested ∈ (after world id graph earlier).run.chain, nested.level.id = event.run ∧
            ∃ inst, nested.level.current? = some inst ∧ inst.id = name ∧
              ¬ nested.level.graph.IsLeftOut inst.node := by
  refine ⟨fun issue unreachable => Lint.unreachable_mem_issues_iff unreachable, ?_, ?_⟩
  · intro nested member
    refine ⟨exists_covers world id graph operations member, fun inst current => ?_⟩
    obtain ⟨winner, reaches⟩ := reaches_of_current world id graph operations member current
    exact ⟨winner, reaches, fun leftOut => leftOut.2.2 reaches⟩
  · intro event member name entered
    obtain ⟨earlier, front, nested, underWay, sameId, inst, current, same⟩ :=
      exists_showsEntry world id graph operations member (Option.isSome_of_eq_some entered)
    have reaches := (reaches_of_current world id graph earlier underWay current).2
    refine ⟨earlier, front, nested, underWay, sameId, inst, current, ?_,
      fun leftOut => leftOut.2.2 reaches⟩
    exact Option.some.inj (same.symm.trans entered)

end Session

end SceneFlow
