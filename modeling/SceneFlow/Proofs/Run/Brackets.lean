import SceneFlow.Proofs.Run.Records

/-!
# Visits and the runs they host

A SubFlow node hosts a run for the length of one visit. The host reports the visit once the hosted
run has started, and its end once the hosted run is over. So what a run reports as it starts comes
just before the entry of the visit that hosts it, and all its other reports come between the entry
and the exit.
-/

set_option autoImplicit false

namespace SceneFlow

namespace Report

def isEntry : Report → Bool
  | .nodeEntered .. => true
  | _ => false

def isExit : Report → Bool
  | .nodeExited .. => true
  | _ => false

/-- Made as a run starts. Only a graph without a first node is finished then. -/
def isOpening : Report → Bool
  | .runStarted _ | .nodeEntered _ _ 0 | .runFinished _ 0 => true
  | _ => false

end Report

namespace Run

def entries (id : RunId) (events : List Event) : List Report :=
  (reports id events).filter (·.isEntry)

def exits (id : RunId) (events : List Event) : List Report :=
  (reports id events).filter (·.isExit)

/-- The visit of a run with the given number, counted from one, is reported entered, and it is one
of a SubFlow node. -/
def Hosts (events : List Event) (id : RunId) (visit : Nat) : Prop :=
  ∃ before after node tick,
    entries id events = before ++ .nodeEntered node .subFlow tick :: after ∧
      before.length + 1 = visit

/-- An event that a visit's run reports belongs into the visit, but for the opening of that run,
which belongs right before it. -/
structure Placed (events before : List Event) (event : Event) (id : RunId) (visit : Nat) :
    Prop where
  hosted : Hosts events id visit
  notEnded : (exits id before).length + 1 = visit
  begun : (entries id before).length + (if event.report.isOpening then 1 else 0) = visit

/-- Within a run, all events of hosted runs stand in the visits that host them. Some events came
earlier. -/
def Bracketed (id : RunId) (earlier events : List Event) : Prop :=
  ∀ before event after, events = before ++ event :: after → ∀ (outer : RunId) (visit : Nat),
    outer.IsWithin id → event.run = outer.nested visit →
      Placed (earlier ++ events) (earlier ++ before) event outer visit

/-- Within a run, all events of hosted runs come between the entry and the exit of the visit that
hosts them. -/
def Enclosed (id : RunId) (events : List Event) : Prop :=
  ∀ before event after, events = before ++ event :: after → ∀ (outer : RunId) (visit : Nat),
    outer.IsWithin id → event.run = outer.nested visit →
      (entries outer before).length = visit ∧ (exits outer before).length + 1 = visit

variable {id : RunId} {events new earlier : List Event} {visit : Nat}

theorem entries_append (id : RunId) (before after : List Event) :
    entries id (before ++ after) = entries id before ++ entries id after := by
  simp only [entries, reports_append, List.filter_append]

theorem entries_append_of_own_eq_nil (silent : own id new = []) :
    entries id (events ++ new) = entries id events :=
  congrArg (List.filter _) (reports_append_of_own_eq_nil silent)

theorem exits_append_of_own_eq_nil (silent : own id new = []) :
    exits id (events ++ new) = exits id events :=
  congrArg (List.filter _) (reports_append_of_own_eq_nil silent)

theorem Hosts.append (hosts : Hosts events id visit) (new : List Event) :
    Hosts (events ++ new) id visit := by
  obtain ⟨before, after, node, tick, entered, numbered⟩ := hosts
  refine ⟨before, after ++ entries id new, node, tick, ?_, numbered⟩
  rw [entries_append, entered, List.append_assoc, List.cons_append]

theorem Placed.append {before : List Event} {event : Event}
    (placed : Placed events before event id visit) (new : List Event) :
    Placed (events ++ new) before event id visit :=
  ⟨placed.hosted.append new, placed.notEnded, placed.begun⟩

/-- An event of two lists in a row is one of the first or one of the second. -/
theorem split_append {left right before after : List Event} {event : Event}
    (split : left ++ right = before ++ event :: after) :
    (∃ middle, left = before ++ event :: middle) ∨
      ∃ middle, before = left ++ middle ∧ right = middle ++ event :: after := by
  rcases List.append_eq_append_iff.mp split with ⟨middle, whole, rest⟩ | ⟨middle, whole, rest⟩
  · exact .inr ⟨middle, whole, rest⟩
  · cases middle with
    | nil => exact .inr ⟨[], by simpa using whole.symm, rest.symm⟩
    | cons first middle =>
        obtain ⟨rfl, _⟩ := List.cons.inj rest
        exact .inl ⟨middle, whole⟩

theorem Bracketed.append (bracketed : Bracketed id earlier events)
    (next : Bracketed id (earlier ++ events) new) : Bracketed id earlier (events ++ new) := by
  intro before event after split outer visit within hosted
  rcases split_append split with ⟨middle, first⟩ | ⟨middle, rfl, second⟩
  · rw [← List.append_assoc]
    exact (bracketed before event middle first outer visit within hosted).append new
  · rw [← List.append_assoc, ← List.append_assoc]
    exact next middle event after second outer visit within hosted

/-- What a run reports itself is not hosted in it. -/
theorem bracketed_of_own (mine : ∀ event ∈ events, event.run = id) :
    Bracketed id earlier events := by
  intro before event after split outer visit within hosted
  have member : event ∈ events := split ▸ List.mem_append_right before List.mem_cons_self
  rw [← mine event member, hosted] at within
  exact absurd rfl within.ne_of_nested

/-- A run's events in a tick or at an entry: first those of the run that a visit hosts, then its
own. -/
theorem Bracketed.host (inner : Bracketed (id.nested visit) earlier events)
    (inside : ∀ event ∈ events, event.run.IsWithin (id.nested visit))
    (mine : ∀ event ∈ new, event.run = id) (hosts : Hosts (earlier ++ (events ++ new)) id visit)
    (notEnded : (exits id earlier).length + 1 = visit)
    (begun : ∀ event ∈ own (id.nested visit) events,
      (entries id earlier).length + (if event.report.isOpening then 1 else 0) = visit) :
    Bracketed id earlier (events ++ new) := by
  intro before event after split outer other within hosted
  rcases split_append split with ⟨middle, first⟩ | ⟨middle, rfl, second⟩
  · have member : event ∈ events := first ▸ List.mem_append_right before List.mem_cons_self
    have around : event.run.IsWithin outer := hosted ▸ outer.isWithin_nested other
    -- An identity names the visits that host it, so here they all lie in this one visit.
    rcases within.eq_or_nested with rfl | ⟨enclosing, deeper⟩
    · have same : other = visit :=
        (RunId.IsWithin.refl _).eq_of_nested (hosted ▸ inside event member)
      subst same
      have silent : own outer before = [] := own_of_forall_isWithin_nested fun event earlier =>
        inside event (first ▸ List.mem_append_left _ earlier)
      refine ⟨hosts, ?_, ?_⟩
      · rw [exits_append_of_own_eq_nil silent]
        exact notEnded
      · rw [entries_append_of_own_eq_nil silent]
        exact begun event (List.mem_filter.mpr ⟨member, decide_eq_true hosted⟩)
    · have same : enclosing = visit := (around.trans deeper).eq_of_nested (inside event member)
      subst same
      rw [← List.append_assoc]
      exact (inner before event middle first outer other deeper hosted).append new
  · rw [← List.append_assoc, ← List.append_assoc]
    exact bracketed_of_own mine middle event after second outer other within hosted

end Run

/-! ## Levels -/

theorem entries_visitsTold (graph : String) (visits : List Visit) :
    (visitsTold graph visits).filter (·.isEntry) =
      visits.map fun visit => .nodeEntered visit.node visit.type visit.entered := by
  induction visits with
  | nil => rfl
  | cons visit visits ih => exact congrArg _ ih

theorem exits_visitsTold (graph : String) (visits : List Visit) :
    (visitsTold graph visits).filter (·.isExit) =
      visits.map fun visit => .nodeExited visit.node visit.type visit.exited := by
  induction visits with
  | nil => rfl
  | cons visit visits ih => exact congrArg _ ih

namespace Level

variable {σ : Type} [World σ] {level : Level} {reports : List Report}

theorem Between.length_entries (between : level.Between reports) :
    (reports.filter (·.isEntry)).length = level.enters := by
  obtain ⟨visits, _, counted, rfl⟩ := between
  rw [entries_visitsTold, List.length_map, counted]

theorem Between.length_exits (between : level.Between reports) :
    (reports.filter (·.isExit)).length = level.enters := by
  obtain ⟨visits, _, counted, rfl⟩ := between
  rw [exits_visitsTold, List.length_map, counted]

/-- The last entry told of is that of the current node, and its visit has not ended. -/
theorem Chronicle.entries_of_current (chronicle : level.Chronicle reports) {index : Nat}
    {inst : Instance} (current : level.current = some index)
    (found : level.instances[index]? = some inst) :
    ∃ before tick, reports.filter (·.isEntry) = before ++ [.nodeEntered inst.id inst.type tick] ∧
      before.length + 1 = level.enters ∧
      (reports.filter (·.isExit)).length + 1 = level.enters := by
  cases chronicle with
  | @running visits tick other inst' contiguous past current' found' counted =>
      have sameIndex : other = index := Option.some.inj (current'.symm.trans current)
      subst sameIndex
      have sameInst : inst' = inst := Option.some.inj (found'.symm.trans found)
      subst sameInst
      refine ⟨(visitsTold level.graph.id visits).filter (·.isEntry), tick, ?_, ?_, ?_⟩
      · exact List.filter_append ..
      · rw [entries_visitsTold, List.length_map, counted]
      · rw [List.filter_append, exits_visitsTold, List.length_append, List.length_map, counted]
        rfl
  | finished contiguous isOver =>
      rw [isOver] at current
      cases current

theorem Sound.type_of_nested (sound : level.Sound) {index : Nat} {graph : Graph}
    (hosted : level.graph.nestedAt? index = some graph) {inst : Instance}
    (found : level.instances[index]? = some inst) : inst.type = .subFlow := by
  rw [Graph.nestedAt?, sound.named_of_instance found, Option.bind_some] at hosted
  unfold Instance.type
  change inst.activity.kind.nested? = some graph at hosted
  cases given : inst.activity.kind <;> simp [given, NodeKind.nested?] at hosted ⊢
  rfl

theorem ticks_begin (world : Option σ) (id : RunId) (graph : Graph) :
    (Level.begin world id graph).ticks = 0 := by
  unfold Level.begin
  split
  · rfl
  · exact ticks_enter _ _ _

theorem isOpening_enteredReport {index : Nat} {event : Event}
    (member : event ∈ level.enteredReport index) :
    event.report.isOpening = decide (level.ticks = 0) := by
  obtain ⟨inst, rfl⟩ := eq_of_mem_enteredReport member
  simp only [Level.event]
  cases level.ticks <;> rfl

theorem isOpening_finishedReport (level : Level) :
    level.finishedReport.report.isOpening = decide (level.ticks = 0) := by
  simp only [finishedReport, Level.event]
  cases level.ticks <;> rfl

theorem not_isOpening_departureReport {seconds : Float32} {world : Option σ} {index : Nat}
    {event : Event} (member : event ∈ level.departureReport seconds world index) :
    event.report.isOpening = false := by
  have later : decide ((level.left seconds world index).ticks = 0) = false := by
    rw [ticks_left]
    rfl
  rcases List.mem_append.mp member with exited | arrived
  · obtain ⟨inst, rfl⟩ := eq_of_mem_exitedReport exited
    rfl
  · cases goes : (level.left seconds world index).destination index with
    | successor next =>
        rw [goes] at arrived
        rw [isOpening_enteredReport arrived, ticks_enter, later]
    | resumption next returns =>
        rw [goes] at arrived
        rw [isOpening_enteredReport arrived, ticks_enter, later]
    | ending | unresolved =>
        rw [goes] at arrived
        rw [List.mem_singleton.mp arrived, isOpening_finishedReport, later]

end Level

namespace Run

variable {σ : Type} [World σ]

theorem isOpening_of_mem_own_start {world : Option σ} {id : RunId} {graph : Graph} {event : Event}
    (member : event ∈ own id (start world id graph).2) : event.report.isOpening = true := by
  rw [own_start] at member
  rcases List.mem_cons.mp member with rfl | member
  · rfl
  · split at member
    · rw [List.mem_singleton.mp member]
      rfl
    · rw [Level.isOpening_enteredReport member, Level.ticks_begin]
      rfl

theorem Advances.not_isOpening_of_mem_own {seconds : Float32} {world : Option σ}
    {run after : Run} {departure : Option Departure} {events : List Event}
    (step : Advances seconds world run departure after events) {event : Event}
    (member : event ∈ own run.level.id events) : event.report.isOpening = false := by
  rw [step.own_eq] at member
  cases departure with
  | none => cases member
  | some departed => exact Level.not_isOpening_departureReport member

/-! ## Runs -/

mutual

theorem bracketed_start (world : Option σ) (id : RunId) (graph : Graph) (events : List Event)
    (fresh : ∀ inner : RunId, inner.IsWithin id → own inner events = []) :
    Bracketed id events (start world id graph).2 := by
  match found : graph.startIndex? with
  | none =>
      rw [start_of_none found]
      refine bracketed_of_own fun event member => ?_
      rcases List.mem_cons.mp member with rfl | member
      · rfl
      · rw [List.mem_singleton.mp member]
        rfl
  | some index =>
      have entered := bracketed_enter world index (Level.ofGraph id graph) _
        (Level.sound_ofGraph id graph) (Graph.isWinner_of_startIndex? found)
        (ready_ofGraph id graph events fresh)
      have started : Bracketed id events [(Level.ofGraph id graph).event (.runStarted graph.id)] :=
        bracketed_of_own fun event member => List.mem_singleton.mp member ▸ rfl
      rw [start_of_some found]
      exact started.append entered
termination_by 2 * graph.nesting + 1
decreasing_by
  simp only [Level.ofGraph]
  omega

theorem bracketed_enter (world : Option σ) (index : Nat) (level : Level) (events : List Event)
    (sound : level.Sound) (wins : level.graph.IsWinner index) (ready : Ready events level) :
    Bracketed level.id events (enter world index level).2 := by
  have mine : ∀ event ∈ (level.enter world index).enteredReport index, event.run = level.id :=
    fun event member => (Level.run_of_mem_enteredReport member).trans (Level.id_enter _ _ _)
  match hosted : level.graph.nestedAt? index with
  | none =>
      rw [enter_of_none hosted]
      exact bracketed_of_own mine
  | some graph =>
      obtain ⟨inst, found⟩ := sound.instance_of_isWinner wins
      have fresh := ready.housed.fresh _ (Nat.lt_succ_self level.enters)
      have inside := isWithin_of_mem_start world (level.id.nested (level.enters + 1)) graph
      have started := bracketed_start world (level.id.nested (level.enters + 1)) graph events fresh
      have begun : (entries level.id events).length = level.enters := ready.between.length_entries
      rw [enter_hosting hosted]
      -- Up to here the level has told of its earlier visits, and all of them are over.
      refine started.host inside mine ?_ ?_ ?_
      · have silent := own_of_forall_isWithin_nested inside
        have reported : entries level.id ((level.enter world index).enteredReport index) =
            [.nodeEntered inst.id .subFlow level.ticks] := by
          rw [Level.enteredReport_enter found, entries, reports_event level rfl,
            sound.type_of_nested hosted found]
          rfl
        refine ⟨entries level.id events, [], inst.id, level.ticks, ?_, congrArg (· + 1) begun⟩
        rw [← List.append_assoc, entries_append, entries_append_of_own_eq_nil silent, reported]
      · exact congrArg (· + 1) ready.between.length_exits
      · intro event member
        rw [isOpening_of_mem_own_start member, begun]
        rfl
termination_by 2 * level.graph.nesting
decreasing_by
  have := Graph.nesting_lt_of_nestedAt? hosted
  omega

end

theorem bracketed_arrive {level : Level} {events : List Event} (ready : Ready events level)
    (sound : level.Sound) (index : Nat) (world : Option σ) :
    Bracketed level.id events (arrive world level (level.destination index)).2 := by
  have wins : ∀ next, (level.destination index).entered? = some next →
      level.graph.IsWinner next := fun _ goes => sound.isWinner_of_entered goes
  cases goes : level.destination index with
  | successor next =>
      exact bracketed_enter world next level events sound (wins next (by rw [goes]; rfl)) ready
  | resumption next returns =>
      exact bracketed_enter world next { level with returns } events
        (sound.withReturns (sound.returns_subset_of_resumption goes))
        (wins next (by rw [goes]; rfl)) ⟨ready.between, ready.housed⟩
  | ending | unresolved =>
      refine bracketed_of_own fun event member => ?_
      rw [List.mem_singleton.mp member]
      rfl

theorem bracketed_moveOn {level : Level} {events : List Event}
    (chronicle : level.Chronicle (reports level.id events))
    (housed : Housed events level.id level.enters none) (sound : level.Sound) {index : Nat}
    (current : level.current = some index) (seconds : Float32) (world : Option σ) :
    Bracketed level.id events (moveOn world index (level.worked seconds world index)).2 := by
  obtain ⟨inst, found⟩ := sound.instance_of_current current
  have left := ready_left chronicle housed current found seconds world
  have arrived := bracketed_arrive left (sound.left current seconds world) index world
  rw [events_moveOn]
  rw [Level.id_left] at arrived
  refine Bracketed.append (bracketed_of_own fun event member => ?_) arrived
  exact (Level.run_of_mem_exitedReport member).trans (Level.id_left seconds world index level)

/-- The visit was entered in an earlier tick, so the level that hosts a run has nothing to add. -/
theorem bracketed_inside {level : Level} {inner after : Run} {departure : Option Departure}
    {seconds : Float32} {world : Option σ} {events new : List Event} {index : Nat} {inst : Instance}
    (chronicle : level.Chronicle (reports level.id events)) (sound : level.Sound)
    (current : level.current = some index) (found : level.instances[index]? = some inst)
    (hosted : level.graph.nestedAt? index = some inner.level.graph)
    (identity : inner.level.id = level.id.nested level.enters)
    (step : Advances seconds world inner departure after new)
    (bracketed : Bracketed inner.level.id events new) : Bracketed level.id events new := by
  obtain ⟨before, tick, entered, numbered, notEnded⟩ := chronicle.entries_of_current current found
  rw [sound.type_of_nested hosted found] at entered
  have hosts : Hosts events level.id level.enters :=
    ⟨before, [], inst.id, tick, entered, numbered⟩
  rw [identity] at bracketed
  rw [← List.append_nil new]
  refine bracketed.host (step.forall_isWithin identity) nofun (hosts.append _) notEnded ?_
  intro event member
  rw [step.not_isOpening_of_mem_own (identity ▸ member), entries, entered, List.length_append]
  exact numbered

theorem Recorded.bracketed_advance {seconds : Float32} {world : Option σ} {run after : Run}
    {departure : Option Departure} {events new : List Event} (recorded : Recorded events run)
    (step : Advances seconds world run departure after new) :
    Bracketed run.level.id events new := by
  induction step with
  | idle | stay => exact bracketed_of_own nofun
  | move sound current =>
      cases recorded with
      | alone chronicle housed =>
          exact bracketed_moveOn chronicle housed sound current seconds world
  | inside sound current found hosted identity step running ih =>
      cases recorded with
      | hosting chronicle housed recorded =>
          exact bracketed_inside chronicle sound current found hosted identity step (ih recorded)
  | outside sound current found hosted identity step isOver ih =>
      cases recorded with
      | hosting chronicle housed recorded =>
          have told := bracketed_inside chronicle sound current found hosted identity step
            (ih recorded)
          obtain ⟨chronicle, closed⟩ :=
            (recorded.advance step).ended_inside chronicle housed identity step isOver
          exact told.append (bracketed_moveOn chronicle closed sound current seconds world)

end Run

namespace Session

variable {σ : Type} [World σ]

/-- In a session each event of a hosted run comes before the exit of the visit that hosts the run.
The opening of the hosted run comes before the entry of that visit, after the exit of the visit
before, and all other events come after the entry. -/
theorem events_bracketed (world : Option σ) (id : RunId) (graph : Graph)
    (operations : List (Operation σ)) :
    Run.Bracketed id [] (after world id graph operations).events := by
  induction operations using List.reverseRecOn with
  | nil => exact Run.bracketed_start world id graph [] fun _ _ => rfl
  | append_singleton operations operation ih =>
      have sound := sound world id graph operations
      have recorded := recorded world id graph operations
      have sameId := id_eq world id graph operations
      rw [after_append]
      cases operation with
      | tick seconds =>
          have ticked := recorded.bracketed_advance (sound.advances seconds
            ((after world id graph operations).run.tick seconds
              (after world id graph operations).world).world)
          rw [sameId] at ticked
          exact ih.append ticked
      | signal trigger =>
          refine ih.append (Run.bracketed_of_own fun event member => ?_)
          rw [Run.run_of_mem_signal member, sameId]
      | change become => exact ih

/-- A graph whose first node hosts a run. -/
def hostFirst : Graph :=
  ⟨"outer", [Node.subFlow "host" ⟨"inner", [Node.start "open"], []⟩], []⟩

/-- The run that the first node hosts starts before that node is reported entered. -/
theorem not_enclosed_hostFirst : ¬ Run.Enclosed (.outermost 0)
    (after (none : Option EmptyWorld) (.outermost 0) hostFirst []).events := by
  intro enclosed
  have told : (after (none : Option EmptyWorld) (.outermost 0) hostFirst []).events =
      [⟨.outermost 0, .runStarted "outer"⟩] ++
        ⟨(RunId.outermost 0).nested 1, .runStarted "inner"⟩ ::
          [⟨(RunId.outermost 0).nested 1, .nodeEntered "open" .start 0⟩,
            ⟨.outermost 0, .nodeEntered "host" .subFlow 0⟩] := by
    decide +kernel
  obtain ⟨begun, _⟩ := enclosed _ _ _ told (.outermost 0) 1 (.refl _) rfl
  exact absurd begun (by decide +kernel)

end Session

end SceneFlow
