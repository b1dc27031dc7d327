import SceneFlow.Proofs.Run.Brackets

/-!
# One step at a time

In one tick a run enters one node at most, and so does each run that is nested in it, whether it has
been there before the tick or is started by it. A tick that ends a run enters nothing at all, so the
run around it can go on without a second entry at any depth. Each entry but the first costs a tick.
-/

set_option autoImplicit false

namespace SceneFlow

theorem RunId.IsWithin.depth_le {inner outer : RunId} (within : inner.IsWithin outer) :
    outer.depth ≤ inner.depth :=
  within.2.length_le

theorem RunId.IsWithin.depth_lt {inner outer : RunId} {visit : Nat}
    (within : inner.IsWithin (outer.nested visit)) : outer.depth < inner.depth := by
  have deeper := within.depth_le
  rw [RunId.depth_nested] at deeper
  exact deeper

namespace Run

variable {σ : Type} [World σ]

/-- The entries that runs at a depth report. -/
def entriesAt (depth : Nat) (events : List Event) : List Event :=
  events.filter fun event => event.report.isEntry && event.depth = depth

section EntriesAt

variable {depth : Nat} {events new : List Event}

theorem entriesAt_append (depth : Nat) (before after : List Event) :
    entriesAt depth (before ++ after) = entriesAt depth before ++ entriesAt depth after :=
  List.filter_append ..

theorem entriesAt_of_forall_ne (elsewhere : ∀ event ∈ events, event.depth ≠ depth) :
    entriesAt depth events = [] := by
  refine List.filter_eq_nil_iff.mpr fun event member => ?_
  simp [elsewhere event member]

theorem entriesAt_of_no_entry (silent : ∀ event ∈ events, event.report.isEntry = false) :
    entriesAt depth events = [] := by
  refine List.filter_eq_nil_iff.mpr fun event member => ?_
  simp [silent event member]

/-- What a run adds to the entries of the runs in it lies at a depth of its own. -/
theorem length_entriesAt_append_le {outer : Nat}
    (inside : ∀ event ∈ events, outer < event.depth) (mine : ∀ event ∈ new, event.depth = outer)
    (once : ∀ depth, (entriesAt depth events).length ≤ 1) (atMostOne : new.length ≤ 1)
    (depth : Nat) : (entriesAt depth (events ++ new)).length ≤ 1 := by
  rw [entriesAt_append]
  by_cases same : outer = depth
  · have nothing : entriesAt depth events = [] :=
      entriesAt_of_forall_ne fun event member => by
        have := inside event member
        omega
    rw [nothing, List.nil_append]
    exact Nat.le_trans (List.length_filter_le _ _) atMostOne
  · have nothing : entriesAt depth new = [] :=
      entriesAt_of_forall_ne fun event member deep => same ((mine event member).symm.trans deep)
    rw [nothing, List.append_nil]
    exact once depth

end EntriesAt

theorem length_enteredReport_le (index : Nat) (level : Level) :
    (level.enteredReport index).length ≤ 1 := by
  unfold Level.enteredReport
  split
  · exact Nat.zero_le 1
  · exact Nat.le_refl 1

theorem isEntry_of_mem_exitedReport {level : Level} {index : Nat} {event : Event}
    (member : event ∈ level.exitedReport index) : event.report.isEntry = false := by
  obtain ⟨inst, rfl⟩ := Level.eq_of_mem_exitedReport member
  rfl

/-! ## Entering -/

mutual

theorem entriesAt_start_le (world : Option σ) (id : RunId) (graph : Graph) (depth : Nat) :
    (entriesAt depth (start world id graph).2).length ≤ 1 := by
  match found : graph.startIndex? with
  | none =>
      rw [start_of_none found]
      exact Nat.zero_le 1
  | some index =>
      rw [start_of_some found]
      exact entriesAt_enter_le world index (Level.ofGraph id graph) depth
termination_by 2 * graph.nesting + 1
decreasing_by
  simp only [Level.ofGraph]
  omega

theorem entriesAt_enter_le (world : Option σ) (index : Nat) (level : Level) (depth : Nat) :
    (entriesAt depth (enter world index level).2).length ≤ 1 := by
  have reported := length_enteredReport_le index (level.enter world index)
  match hosted : level.graph.nestedAt? index with
  | none =>
      rw [enter_of_none hosted]
      exact Nat.le_trans (List.length_filter_le _ _) reported
  | some graph =>
      have inside := isWithin_of_mem_start world (level.id.nested (level.enters + 1)) graph
      rw [enter_hosting hosted]
      -- All that the run inside reports lies deeper than the entry of the node that hosts it.
      refine length_entriesAt_append_le (fun event member => (inside event member).depth_lt) ?_
        (entriesAt_start_le world (level.id.nested (level.enters + 1)) graph) reported depth
      intro event member
      rw [Event.depth, Level.run_of_mem_enteredReport member, Level.id_enter]
termination_by 2 * level.graph.nesting
decreasing_by
  have := Graph.nesting_lt_of_nestedAt? hosted
  omega

end

theorem isFinished_enter (world : Option σ) (index : Nat) (level : Level) :
    (enter world index level).1.isFinished = false := by
  rw [isFinished, level_enter]
  exact Level.isFinished_of_current (Level.current_enter world index level)

/-! ## Ticks -/

/-- Where entries are concerned, events are those of one step of a run: one entry at most at each
depth, and none at all once the run is over. -/
structure EntersOnce (after : Run) (events : List Event) : Prop where
  once : ∀ depth, (entriesAt depth events).length ≤ 1
  noneAtEnd : after.isFinished = true → ∀ depth, entriesAt depth events = []

theorem EntersOnce.of_no_entry {after : Run} {events : List Event}
    (silent : ∀ event ∈ events, event.report.isEntry = false) : EntersOnce after events where
  once depth := by
    rw [entriesAt_of_no_entry silent]
    exact Nat.zero_le 1
  noneAtEnd _ _ := entriesAt_of_no_entry silent

theorem EntersOnce.append {after : Run} {before events : List Event}
    (entersOnce : EntersOnce after events) (silent : ∀ depth, entriesAt depth before = []) :
    EntersOnce after (before ++ events) where
  once depth := by
    rw [entriesAt_append, silent, List.nil_append]
    exact entersOnce.once depth
  noneAtEnd isOver depth := by
    rw [entriesAt_append, silent, List.nil_append]
    exact entersOnce.noneAtEnd isOver depth

theorem entersOnce_enter (world : Option σ) (index : Nat) (level : Level) :
    EntersOnce (enter world index level).1 (enter world index level).2 where
  once := entriesAt_enter_le world index level
  noneAtEnd isOver := by
    rw [isFinished_enter] at isOver
    cases isOver

theorem entersOnce_arrive (world : Option σ) (level : Level) (destination : Destination) :
    EntersOnce (arrive world level destination).1 (arrive world level destination).2 := by
  cases destination with
  | successor next => exact entersOnce_enter world next level
  | resumption next returns => exact entersOnce_enter world next { level with returns }
  | ending | unresolved =>
      refine .of_no_entry fun event member => ?_
      rw [List.mem_singleton.mp member]
      rfl

theorem entersOnce_moveOn (world : Option σ) (index : Nat) (level : Level) :
    EntersOnce (moveOn world index level).1 (moveOn world index level).2 := by
  rw [moveOn_eq]
  refine (entersOnce_arrive world _ _).append fun depth => ?_
  exact entriesAt_of_no_entry fun event member => isEntry_of_mem_exitedReport member

theorem Advances.entersOnce {seconds : Float32} {world : Option σ} {run after : Run}
    {departure : Option Departure} {events : List Event}
    (step : Advances seconds world run departure after events) : EntersOnce after events := by
  induction step with
  | idle | stay => exact .of_no_entry nofun
  | move => exact entersOnce_moveOn world _ _
  | @inside level inner after departure events index inst sound current found hosted identity step
      running ih =>
      refine ⟨ih.once, fun isOver => ?_⟩
      exact absurd ((Level.isFinished_of_current current).symm.trans isOver) nofun
  | outside sound current found hosted identity step isOver ih =>
      -- The run inside has entered nothing as it ended, so the level may enter its next node.
      exact (entersOnce_moveOn world _ _).append (ih.noneAtEnd isOver)

end Run

/-! ## Counting -/

/-- Each visit that ended took a tick at least. -/
theorem Contiguous.length_le {visits : List Visit} {tick : Nat}
    (contiguous : Contiguous visits tick) : visits.length ≤ tick := by
  induction contiguous with
  | nil => exact Nat.le_refl 0
  | append before node type lasts ih =>
      rw [List.length_append, List.length_singleton]
      omega

theorem Level.Chronicle.enters_le {level : Level} {reports : List Report}
    (chronicle : level.Chronicle reports) : level.enters ≤ level.ticks + 1 := by
  cases chronicle with
  | running contiguous past current found counted =>
      have ended := contiguous.length_le
      omega
  | finished contiguous isOver counted =>
      have ended := contiguous.length_le
      omega

namespace Session

variable {σ : Type} [World σ]

/-- As it starts, a run enters one node at most at each depth. So it does in each tick, and so does
every run that is nested in it; and in the tick in which a run ends, neither it nor any run in it
enters a node. No run has entered more nodes than it has had ticks, its first node aside. -/
theorem one_entry_per_tick (world : Option σ) (id : RunId) (graph : Graph)
    (operations : List (Operation σ)) :
    (∀ depth, (Run.entriesAt depth (begin world id graph).events).length ≤ 1) ∧
    ∀ nested ∈ (after world id graph operations).run.chain,
      nested.level.enters ≤ nested.level.ticks + 1 ∧
      ∀ (seconds : Float32) (now : Option σ),
        let ticked := nested.tick seconds now
        (∀ depth, (Run.entriesAt depth ticked.events).length ≤ 1) ∧
        (ticked.run.isFinished = true → ∀ depth, Run.entriesAt depth ticked.events = []) := by
  refine ⟨Run.entriesAt_start_le world id graph, ?_⟩
  intro nested member
  have recorded := Run.recorded_of_mem_chain (recorded world id graph operations) member
  have sound := (sound world id graph operations).of_mem_chain member
  refine ⟨recorded.chronicle.enters_le, fun seconds now => ?_⟩
  have step := (sound.advances seconds (nested.tick seconds now).world).entersOnce
  exact ⟨step.once, step.noneAtEnd⟩

end Session

end SceneFlow
