import SceneFlow.Proofs.Run.Chain
import SceneFlow.Proofs.Run.Chronicle

/-!
# Records of a run

All runs that are nested in one another report to one stream of events, each under an identity of
its own. The stream records a run if what it holds under the identity of each level is that level's
chronicle, and what it holds under any other identity is the chronicle of a run that is over.
-/

set_option autoImplicit false

namespace SceneFlow

namespace Run

variable {σ : Type} [World σ] {events new : List Event} {id : RunId}

theorem reports_event (level : Level) {report : Report} (told : report.isSignal = false) :
    reports level.id [level.event report] = [report] := by
  have mine : own level.id [level.event report] = [level.event report] :=
    own_of_forall fun event member => List.mem_singleton.mp member ▸ rfl
  rw [reports, mine]
  simp [Level.event, told]

/-! ## Runs that are over -/

/-- Nothing is reported under the identity, or all that a run has to report. -/
def Settled (events : List Event) (id : RunId) : Prop :=
  own id events = [] ∨
    ∃ level : Level, level.id = id ∧ level.current = none ∧ level.Chronicle (reports id events)

theorem Settled.append (settled : Settled events id) (silent : own id new = []) :
    Settled (events ++ new) id := by
  rcases settled with nothing | ⟨level, same, isOver, chronicle⟩
  · refine .inl ?_
    rw [own_append, nothing, silent]
    rfl
  · refine .inr ⟨level, same, isOver, ?_⟩
    rw [reports_append_of_own_eq_nil silent]
    exact chronicle

/-- What is known of the runs that a level has hosted: those of visits to come are not heard of yet,
and all are settled but that of the visit that goes on. -/
structure Housed (events : List Event) (id : RunId) (enters : Nat) (hosting : Option Nat) :
    Prop where
  fresh : ∀ visit, enters < visit → ∀ inner : RunId, inner.IsWithin (id.nested visit) →
    own inner events = []
  settled : ∀ visit, hosting ≠ some visit → ∀ inner : RunId, inner.IsWithin (id.nested visit) →
    Settled events inner

namespace Housed

variable {enters visit : Nat} {hosting : Option Nat}

theorem of_own_eq_nil (silent : ∀ inner : RunId, inner.IsWithin id → own inner events = [])
    (hosting : Option Nat) : Housed events id enters hosting where
  fresh _ _ inner within := silent inner within.of_nested
  settled _ _ inner within := .inl (silent inner within.of_nested)

theorem append (housed : Housed events id enters hosting)
    (past : ∀ visit, hosting = some visit → visit ≤ enters)
    (silent : ∀ visit, hosting ≠ some visit → ∀ inner : RunId, inner.IsWithin (id.nested visit) →
      own inner new = []) : Housed (events ++ new) id enters hosting where
  fresh visit later inner within := by
    have apart : hosting ≠ some visit := fun same => by
      have := past visit same
      omega
    rw [own_append, housed.fresh visit later inner within, silent visit apart inner within]
    rfl
  settled visit apart inner within :=
    (housed.settled visit apart inner within).append (silent visit apart inner within)

theorem append_own (housed : Housed events id enters none)
    (mine : ∀ event ∈ new, event.run = id) : Housed (events ++ new) id enters none :=
  housed.append nofun fun _ _ _ within => own_nested_of_forall mine within

theorem append_inner (housed : Housed events id enters (some visit)) (past : visit ≤ enters)
    (inside : ∀ event ∈ new, event.run.IsWithin (id.nested visit)) :
    Housed (events ++ new) id enters (some visit) := by
  refine housed.append (fun other same => Option.some.inj same ▸ past)
    fun other apart inner within => ?_
  refine own_of_forall_ne fun event member same => apart (congrArg some ?_)
  exact (inside event member).eq_of_nested (same ▸ within)

theorem next (housed : Housed events id enters none) (hosting : Option Nat) :
    Housed events id (enters + 1) hosting where
  fresh visit later := housed.fresh visit (Nat.lt_of_succ_lt later)
  settled visit _ := housed.settled visit nofun

theorem close (housed : Housed events id enters (some visit))
    (done : ∀ inner : RunId, inner.IsWithin (id.nested visit) → Settled events inner) :
    Housed events id enters none where
  fresh := housed.fresh
  settled other _ inner within := by
    by_cases same : other = visit
    · exact done inner (same ▸ within)
    · exact housed.settled other (fun equal => same (Option.some.inj equal).symm) inner within

end Housed

/-! ## Recorded runs -/

/-- The events hold the chronicles of a run and of all runs that it hosts or has hosted. -/
inductive Recorded (events : List Event) : Run → Prop where
  | alone {level : Level} (chronicle : level.Chronicle (reports level.id events))
      (housed : Housed events level.id level.enters none) : Recorded events (.alone level)
  | hosting {level : Level} {inner : Run} (chronicle : level.Chronicle (reports level.id events))
      (housed : Housed events level.id level.enters (some level.enters))
      (within : Recorded events inner) : Recorded events (.hosting level inner)

/-- The same of a level between two visits. -/
structure Ready (events : List Event) (level : Level) : Prop where
  between : level.Between (reports level.id events)
  housed : Housed events level.id level.enters none

theorem Recorded.chronicle {run : Run} (recorded : Recorded events run) :
    run.level.Chronicle (reports run.level.id events) := by
  cases recorded with
  | alone chronicle => exact chronicle
  | hosting chronicle => exact chronicle

/-- A run that is over is settled, and so is all that it hosted. -/
theorem Recorded.settled {run : Run} (recorded : Recorded events run) (sound : run.Sound)
    (isOver : run.isFinished = true) {inner : RunId} (within : inner.IsWithin run.level.id) :
    Settled events inner := by
  have noControl : run.level.current = none := Option.isNone_iff_eq_none.mp isOver
  cases recorded with
  | @alone level chronicle housed =>
      rcases within.eq_or_nested with rfl | ⟨visit, deeper⟩
      · exact .inr ⟨level, rfl, noControl, chronicle⟩
      · exact housed.settled visit nofun inner deeper
  | hosting =>
      cases sound with
      | hosting sound current => exact absurd (current.symm.trans noControl) nofun

/-- A level does not tell what the run that it hosts reports. -/
theorem chronicle_append_inner {level : Level} {visit : Nat}
    (chronicle : level.Chronicle (reports level.id events))
    (inside : ∀ event ∈ new, event.run.IsWithin (level.id.nested visit)) :
    level.Chronicle (reports level.id (events ++ new)) := by
  rw [reports_append_of_own_eq_nil (own_of_forall_isWithin_nested inside)]
  exact chronicle

theorem recorded_finish {level : Level} (ready : Ready events level) :
    Recorded (events ++ (finish level).2) (finish level).1 := by
  have mine : ∀ event ∈ (finish level).2, event.run = level.id :=
    fun event member => List.mem_singleton.mp member ▸ rfl
  have told : reports level.id (finish level).2 = [.runFinished level.graph.id level.ticks] :=
    reports_event level rfl
  refine .alone ?_ (ready.housed.append_own mine)
  change level.finish.Chronicle (reports level.id (events ++ (finish level).2))
  rw [reports_append, told]
  exact ready.between.finish

theorem Recorded.append_apart {run : Run} (recorded : Recorded events run) (sound : run.Sound)
    (apart : ∀ inner : RunId, inner.IsWithin run.level.id → own inner new = []) :
    Recorded (events ++ new) run := by
  have chronicle : ∀ level : Level, level.Chronicle (reports level.id events) →
      own level.id new = [] → level.Chronicle (reports level.id (events ++ new)) := by
    intro level chronicle silent
    rw [reports_append_of_own_eq_nil silent]
    exact chronicle
  induction sound with
  | @alone level sound free =>
      cases recorded with
      | alone told housed =>
          exact .alone (chronicle level told (apart level.id (.refl _)))
            (housed.append nofun fun _ _ inner within => apart inner within.of_nested)
  | @hosting level inner index sound current hosted identity within ih =>
      cases recorded with
      | hosting told housed recorded =>
          refine .hosting (chronicle level told (apart level.id (.refl _))) ?_ ?_
          · refine housed.append (fun _ same => Nat.le_of_eq (Option.some.inj same).symm) ?_
            exact fun _ _ inner within => apart inner within.of_nested
          · refine ih recorded fun deeper inside => apart deeper ?_
            rw [identity] at inside
            exact inside.of_nested

/-! ### Entering -/

theorem ready_ofGraph (id : RunId) (graph : Graph) (events : List Event)
    (fresh : ∀ inner : RunId, inner.IsWithin id → own inner events = []) :
    Ready (events ++ [(Level.ofGraph id graph).event (.runStarted graph.id)])
      (Level.ofGraph id graph) where
  between := by
    rw [reports_append, reports_event (Level.ofGraph id graph) rfl]
    change (Level.ofGraph id graph).Between (reports id events ++ _)
    rw [reports_of_own_eq_nil (fresh _ (.refl _))]
    exact Level.between_ofGraph id graph
  housed := by
    refine (Housed.of_own_eq_nil fresh none).append_own fun event member => ?_
    rw [List.mem_singleton.mp member]
    rfl

mutual

theorem recorded_start (world : Option σ) (id : RunId) (graph : Graph) (events : List Event)
    (fresh : ∀ inner : RunId, inner.IsWithin id → own inner events = []) :
    Recorded (events ++ (start world id graph).2) (start world id graph).1 := by
  have started := ready_ofGraph id graph events fresh
  match found : graph.startIndex? with
  | none =>
      have finished := recorded_finish started
      rw [start_of_none found]
      rw [List.append_assoc] at finished
      exact finished
  | some index =>
      have entered := recorded_enter world index (Level.ofGraph id graph) _
        (Level.sound_ofGraph id graph) (Graph.isWinner_of_startIndex? found) started
      rw [start_of_some found]
      rw [List.append_assoc] at entered
      exact entered
termination_by 2 * graph.nesting + 1
decreasing_by
  simp only [Level.ofGraph]
  omega

theorem recorded_enter (world : Option σ) (index : Nat) (level : Level) (events : List Event)
    (sound : level.Sound) (wins : level.graph.IsWinner index) (ready : Ready events level) :
    Recorded (events ++ (enter world index level).2) (enter world index level).1 := by
  obtain ⟨inst, found⟩ := sound.instance_of_isWinner wins
  have entered := ready.between.enter found world
  have reported := Level.enteredReport_enter found world
  have told : reports level.id
      [level.event (.nodeEntered inst.id inst.type level.ticks)] = _ := reports_event level rfl
  have mine : ∀ event ∈ [level.event (.nodeEntered inst.id inst.type level.ticks)],
      event.run = level.id := fun event member => List.mem_singleton.mp member ▸ rfl
  match hosted : level.graph.nestedAt? index with
  | none =>
      rw [enter_of_none hosted, reported]
      refine .alone ?_ ?_
      · rw [Level.id_enter, reports_append, told]
        exact entered
      · rw [Level.id_enter, Level.enters_enter]
        exact (ready.housed.next none).append_own mine
  | some graph =>
      have started := recorded_start world (level.id.nested (level.enters + 1)) graph events
        (ready.housed.fresh _ (Nat.lt_succ_self _))
      have inside := isWithin_of_mem_start world (level.id.nested (level.enters + 1)) graph
      have foreign : own level.id (start world (level.id.nested (level.enters + 1)) graph).2 = [] :=
        own_of_forall_isWithin_nested inside
      have innerLevel := level_start world (level.id.nested (level.enters + 1)) graph
      -- The hosted run makes its reports first. They concern neither the level nor its other runs.
      rw [enter_hosting hosted, reported, ← List.append_assoc]
      refine .hosting ?_ ?_ ?_
      · rw [Level.id_enter, reports_append, told, reports_append_of_own_eq_nil foreign]
        exact entered
      · rw [Level.id_enter, Level.enters_enter]
        have housed := (ready.housed.next (some (level.enters + 1))).append_inner (Nat.le_refl _)
          inside
        refine housed.append (fun _ same => Nat.le_of_eq (Option.some.inj same).symm) ?_
        exact fun _ _ _ within => own_nested_of_forall mine within
      · refine started.append_apart (sound_start world _ graph) fun inner within => ?_
        rw [innerLevel, Level.id_begin] at within
        exact own_nested_of_forall mine within
termination_by 2 * level.graph.nesting
decreasing_by
  have := Graph.nesting_lt_of_nestedAt? hosted
  omega

end

/-! ### Moving on -/

theorem recorded_arrive {level : Level} (ready : Ready events level) (sound : level.Sound)
    (index : Nat) (world : Option σ) :
    Recorded (events ++ (arrive world level (level.destination index)).2)
      (arrive world level (level.destination index)).1 := by
  have wins : ∀ next, (level.destination index).entered? = some next →
      level.graph.IsWinner next := fun _ goes => sound.isWinner_of_entered goes
  cases goes : level.destination index with
  | successor next =>
      exact recorded_enter world next level events sound (wins next (by rw [goes]; rfl)) ready
  | resumption next returns =>
      exact recorded_enter world next { level with returns } events
        (sound.withReturns (sound.returns_subset_of_resumption goes))
        (wins next (by rw [goes]; rfl)) ⟨ready.between, ready.housed⟩
  | ending =>
      have ended : Ready events { level with returns := .empty } := ⟨ready.between, ready.housed⟩
      exact recorded_finish ended
  | unresolved id => exact recorded_finish ready

theorem ready_left {level : Level} (chronicle : level.Chronicle (reports level.id events))
    (housed : Housed events level.id level.enters none) {index : Nat} {inst : Instance}
    (current : level.current = some index) (found : level.instances[index]? = some inst)
    (seconds : Float32) (world : Option σ) :
    Ready (events ++ (level.left seconds world index).exitedReport index)
      (level.left seconds world index) where
  between := by
    rw [Level.exitedReport_left found, Level.id_left, reports_append, reports_event level rfl]
    exact chronicle.left current found seconds world
  housed := by
    rw [Level.exitedReport_left found, Level.id_left, Level.enters_left]
    exact housed.append_own fun event member => List.mem_singleton.mp member ▸ rfl

theorem recorded_moveOn {level : Level} (chronicle : level.Chronicle (reports level.id events))
    (housed : Housed events level.id level.enters none) (sound : level.Sound) {index : Nat}
    (current : level.current = some index) (seconds : Float32) (world : Option σ) :
    Recorded (events ++ (moveOn world index (level.worked seconds world index)).2)
      (moveOn world index (level.worked seconds world index)).1 := by
  obtain ⟨inst, found⟩ := sound.instance_of_current current
  have left := ready_left chronicle housed current found seconds world
  have arrived := recorded_arrive left (sound.left current seconds world) index world
  rw [List.append_assoc] at arrived
  rw [moveOn_eq]
  exact arrived

/-- Once a hosted run is over, what it told last completes all that its visit has to tell. -/
theorem Recorded.ended_inside {level : Level} {inner after : Run} {departure : Option Departure}
    {seconds : Float32} {world : Option σ} (recorded : Recorded (events ++ new) after)
    (chronicle : level.Chronicle (reports level.id events))
    (housed : Housed events level.id level.enters (some level.enters))
    (identity : inner.level.id = level.id.nested level.enters)
    (step : Advances seconds world inner departure after new) (isOver : after.isFinished = true) :
    level.Chronicle (reports level.id (events ++ new)) ∧
      Housed (events ++ new) level.id level.enters none := by
  have inside := step.forall_isWithin identity
  have sameId := step.tickStep.id_eq.trans identity
  refine ⟨chronicle_append_inner chronicle inside, ?_⟩
  refine (housed.append_inner (Nat.le_refl _) inside).close fun deeper within => ?_
  exact recorded.settled step.sound isOver (sameId ▸ within)

theorem Recorded.advance {seconds : Float32} {world : Option σ} {run after : Run}
    {departure : Option Departure} (recorded : Recorded events run)
    (step : Advances seconds world run departure after new) : Recorded (events ++ new) after := by
  induction step with
  | idle =>
      rw [List.append_nil]
      exact recorded
  | stay sound current =>
      cases recorded with
      | alone chronicle housed =>
          rw [List.append_nil]
          exact .alone (chronicle.worked current seconds world) housed
  | move sound current =>
      cases recorded with
      | alone chronicle housed => exact recorded_moveOn chronicle housed sound current seconds world
  | inside sound current found hosted identity step running ih =>
      cases recorded with
      | hosting chronicle housed recorded =>
          have inside := step.forall_isWithin identity
          have told := chronicle_append_inner chronicle inside
          have housedNow := housed.append_inner (Nat.le_refl _) inside
          exact .hosting (told.worked current seconds world) housedNow (ih recorded)
  | outside sound current found hosted identity step isOver ih =>
      cases recorded with
      | hosting chronicle housed recorded =>
          obtain ⟨told, closed⟩ :=
            (ih recorded).ended_inside chronicle housed identity step isOver
          rw [← List.append_assoc]
          exact recorded_moveOn told closed sound current seconds world

theorem run_of_mem_signal {run : Run} {trigger : String} {event : Event}
    (member : event ∈ (run.signal trigger).events) : event.run = run.level.id := by
  rw [List.mem_singleton.mp member]
  exact Level.id_signal trigger run.level

theorem Recorded.signal {run : Run} (recorded : Recorded events run) (sound : run.Sound)
    (trigger : String) :
    Recorded (events ++ (run.signal trigger).events) (run.signal trigger).run := by
  have mine : ∀ event ∈ (run.signal trigger).events, event.run = run.level.id :=
    fun _ => run_of_mem_signal
  have untold : reports run.level.id (run.signal trigger).events = [] := by
    rw [reports, own_of_forall mine]
    rfl
  have chronicle := recorded.chronicle.signal trigger
  rw [← List.append_nil (reports run.level.id events), ← untold, ← reports_append] at chronicle
  cases sound with
  | @alone level sound free =>
      cases recorded with
      | alone told housed =>
          have shape : ((Run.alone level).signal trigger).run =
              Run.alone (level.signal trigger).1 := rfl
          rw [shape]
          refine .alone ?_ ?_
          · rw [Level.id_signal]
            exact chronicle
          · rw [Level.id_signal, Level.enters_signal]
            exact housed.append_own mine
  | @hosting level inner index sound current hosted identity within =>
      cases recorded with
      | hosting told housed recorded =>
          have shape : ((Run.hosting level inner).signal trigger).run =
              Run.hosting (level.signal trigger).1 inner := rfl
          have silent : ∀ visit, ∀ deeper : RunId, deeper.IsWithin (level.id.nested visit) →
              own deeper ((Run.hosting level inner).signal trigger).events = [] :=
            fun _ _ inside => own_nested_of_forall mine inside
          rw [shape]
          refine .hosting ?_ ?_ ?_
          · rw [Level.id_signal]
            exact chronicle
          · rw [Level.id_signal, Level.enters_signal]
            refine housed.append (fun _ same => Nat.le_of_eq (Option.some.inj same).symm) ?_
            exact fun visit _ => silent visit
          · refine recorded.append_apart within ?_
            rw [identity]
            exact silent level.enters

/-! ### What is recorded of a session -/

theorem recorded_of_mem_chain {run nested : Run} (recorded : Recorded events run)
    (member : nested ∈ run.chain) : Recorded events nested := by
  induction recorded with
  | alone chronicle housed =>
      rw [List.mem_singleton.mp member]
      exact .alone chronicle housed
  | hosting chronicle housed within ih =>
      rcases List.mem_cons.mp member with rfl | inside
      · exact .hosting chronicle housed within
      · exact ih inside

/-- Whatever is reported comes from a run that is under way or from one that is over. -/
theorem Recorded.under_way_or_settled {run : Run} (recorded : Recorded events run)
    (sound : run.Sound) (within : id.IsWithin run.level.id) :
    (∃ nested ∈ run.chain, nested.level.id = id) ∨ Settled events id := by
  induction sound with
  | @alone level sound free =>
      cases recorded with
      | alone chronicle housed =>
          rcases within.eq_or_nested with rfl | ⟨visit, deeper⟩
          · exact .inl ⟨.alone level, mem_chain_self _, rfl⟩
          · exact .inr (housed.settled visit nofun id deeper)
  | @hosting level inner index sound current hosted identity inside ih =>
      cases recorded with
      | hosting chronicle housed recorded =>
          rcases within.eq_or_nested with rfl | ⟨visit, deeper⟩
          · exact .inl ⟨.hosting level inner, mem_chain_self _, rfl⟩
          · by_cases goesOn : visit = level.enters
            · have deeper : id.IsWithin inner.level.id := identity ▸ goesOn ▸ deeper
              rcases ih recorded deeper with ⟨nested, member, same⟩ | settled
              · exact .inl ⟨nested, List.mem_cons_of_mem _ member, same⟩
              · exact .inr settled
            · exact .inr (housed.settled visit
                (fun same => goesOn (Option.some.inj same).symm) id deeper)

/-- A run that is over issues no command, does not change and reports nothing. -/
theorem tick_of_isFinished {run : Run} (isOver : run.isFinished = true) (seconds : Float32)
    (world : Option σ) : run.tick seconds world = ⟨run, world, []⟩ := by
  have noControl : run.level.current = none := Option.isNone_iff_eq_none.mp isOver
  have idle : run.command? = none := by
    cases run with
    | alone level =>
        change level.current = none at noControl
        simp [command?, Level.current?, noControl]
    | hosting level inner =>
        change level.isFinished = true at isOver
        simp [command?, isOver]
  simp only [tick, idle, advance_of_current_none noControl]
  cases world <;> rfl

end Run

namespace Session

variable {σ : Type} [World σ] (world : Option σ) (id : RunId) (graph : Graph)

theorem isWithin_of_mem_events (operations : List (Operation σ)) {event : Event}
    (member : event ∈ (after world id graph operations).events) : event.run.IsWithin id := by
  induction operations using List.reverseRecOn with
  | nil => exact Run.isWithin_of_mem_start world id graph event member
  | append_singleton operations operation ih =>
      have sound := sound world id graph operations
      have sameId := id_eq world id graph operations
      rw [after_append] at member
      cases operation with
      | tick seconds =>
          rcases List.mem_append.mp member with earlier | ticked
          · exact ih earlier
          · exact sameId ▸ sound.isWithin_of_mem_advance seconds _ ticked
      | signal trigger =>
          rcases List.mem_append.mp member with earlier | signalled
          · exact ih earlier
          · rw [Run.run_of_mem_signal signalled, sameId]
            exact .refl id
      | change become => exact ih member

/-- A session's events hold the chronicles of its runs. -/
theorem recorded (operations : List (Operation σ)) :
    Run.Recorded (after world id graph operations).events
      (after world id graph operations).run := by
  induction operations using List.reverseRecOn with
  | nil => exact Run.recorded_start world id graph [] fun _ _ => rfl
  | append_singleton operations operation ih =>
      have sound := sound world id graph operations
      rw [after_append]
      cases operation with
      | tick seconds => exact ih.advance (sound.advances seconds _)
      | signal trigger => exact ih.signal sound trigger
      | change become => exact ih

/-- Under its own identity each run reports its chronicle, signals apart: a run under way the one
that has led to where it stands, and any other run that was ever heard of one that is finished. A
finished run does nothing more. -/
theorem reports_chronicles (operations : List (Operation σ)) :
    let session := after world id graph operations
    (∀ nested ∈ session.run.chain,
      nested.level.Chronicle (Run.reports nested.level.id session.events) ∧
      (nested.isFinished = true → ∀ (seconds : Float32) (now : Option σ),
        nested.tick seconds now = ⟨nested, now, []⟩)) ∧
    (∀ event ∈ session.events,
      (∃ nested ∈ session.run.chain, nested.level.id = event.run) ∨
      ∃ level : Level, level.id = event.run ∧ level.isFinished = true ∧
        level.Chronicle (Run.reports event.run session.events)) := by
  intro session
  have recorded : Run.Recorded session.events session.run := recorded world id graph operations
  have sound : session.run.Sound := sound world id graph operations
  constructor
  · intro nested member
    exact ⟨(Run.recorded_of_mem_chain recorded member).chronicle,
      fun isOver seconds now => Run.tick_of_isFinished isOver seconds now⟩
  · intro event member
    have within := isWithin_of_mem_events world id graph operations member
    rw [← id_eq world id graph operations] at within
    rcases recorded.under_way_or_settled sound within with underWay | silent | settled
    · exact .inl underWay
    · have present : event ∈ Run.own event.run session.events :=
        List.mem_filter.mpr ⟨member, decide_eq_true rfl⟩
      rw [silent] at present
      cases present
    · obtain ⟨level, same, noControl, chronicle⟩ := settled
      exact .inr ⟨level, same, Option.isNone_iff_eq_none.mpr noControl, chronicle⟩

end Session

end SceneFlow
