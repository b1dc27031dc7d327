import SceneFlow.Proofs.Run.Waits

/-!
# Signals

A visit to a WaitForTrigger node ends with the first tick behind a signal of its trigger that was
sent during the visit. No other signal changes anything in a run, and none gets through to the runs
that are nested in it.
-/

set_option autoImplicit false

namespace SceneFlow

namespace Run

variable {σ : Type} [World σ] {run : Run}

/-- A tick does nothing to the levels around one that it leaves in the middle of a visit. -/
theorem Sound.quiet_of_mem_chain (sound : run.Sound) {nested : Run} (member : nested ∈ run.chain)
    {seconds : Float32} {world : Option σ} (quiet : (nested.advance seconds world).2 = [])
    (running : (nested.advance seconds world).1.isFinished = false) :
    (run.advance seconds world).2 = [] ∧ (run.advance seconds world).1.isFinished = false := by
  induction sound with
  | alone sound free =>
      rw [List.mem_singleton.mp member] at quiet running
      exact ⟨quiet, running⟩
  | @hosting level inner index sound current hosted identity within ih =>
      rcases List.mem_cons.mp member with rfl | inside
      · exact ⟨quiet, running⟩
      · obtain ⟨silent, goesOn⟩ := ih inside
        rw [advance_hosting sound current hosted, goesOn, if_neg Bool.false_ne_true]
        exact ⟨silent, Level.isFinished_of_current current⟩

theorem Sound.eq_alone_of_waits (sound : run.Sound) {inst : Instance} {index : Nat}
    (current : run.level.current = some index) (found : run.level.instances[index]? = some inst)
    {trigger : String} {fired : Bool} (waits : inst.activity = .waitForTrigger trigger fired) :
    run = .alone run.level := by
  cases sound with
  | alone => rfl
  | @hosting level inner host sound current' hosted identity within =>
      have same : host = index := Option.some.inj (current'.symm.trans current)
      subst same
      rw [Graph.nestedAt?, sound.named_of_instance found, Option.bind_some] at hosted
      simp [Instance.node, Activity.kind, NodeKind.nested?, waits] at hosted

/-- While a node waits for a trigger that has not fired, a tick reports nothing; once it has, the
next tick reports the end of the visit. -/
theorem Sound.advance_of_waits (sound : run.Sound) {inst : Instance} {index : Nat}
    (current : run.level.current = some index) (found : run.level.instances[index]? = some inst)
    {trigger : String} {fired : Bool} (waits : inst.activity = .waitForTrigger trigger fired)
    (seconds : Float32) (world : Option σ) :
    if fired then
      ∃ rest, (run.advance seconds world).2 =
        run.level.event (.nodeExited inst.id .waitForTrigger (run.level.ticks + 1)) :: rest
    else (run.advance seconds world).2 = [] ∧ (run.advance seconds world).1.isFinished = false := by
  rw [sound.eq_alone_of_waits current found waits, advance_alone current found, waits]
  cases fired with
  | false => exact ⟨rfl, Level.isFinished_of_current current⟩
  | true =>
      have reported := Level.exitedReport_left found seconds world
      have kind : inst.type = .waitForTrigger := by rw [Instance.type, waits]; rfl
      have done : (Activity.work seconds world (.waitForTrigger trigger true)).2 = true := rfl
      rw [Level.left, kind] at reported
      rw [if_pos rfl, if_pos done, events_moveOn, reported]
      exact ⟨_, rfl⟩

theorem Sound.exit_reported_iff (sound : run.Sound) {inst : Instance} {index : Nat}
    (current : run.level.current = some index) (found : run.level.instances[index]? = some inst)
    {trigger : String} {fired : Bool} (waits : inst.activity = .waitForTrigger trigger fired)
    (seconds : Float32) (world : Option σ) :
    (∃ node type tick, run.level.event (.nodeExited node type tick) ∈
      (run.tick seconds world).events) ↔ fired = true := by
  have advanced := sound.advance_of_waits current found waits seconds
    (run.tick seconds world).world
  cases fired with
  | false =>
      have silent : (run.tick seconds world).events = [] := advanced.1
      simp [silent]
  | true =>
      obtain ⟨rest, reported⟩ := advanced
      refine iff_of_true ⟨inst.id, .waitForTrigger, run.level.ticks + 1, ?_⟩ rfl
      change _ ∈ (run.advance seconds (run.tick seconds world).world).2
      rw [reported]
      exact List.mem_cons_self

theorem mem_chain_of_hosted {inner nested : Run} (hosts : run.inner? = some inner)
    (member : nested ∈ inner.chain) : nested ∈ run.chain := by
  cases run with
  | alone level => cases hosts
  | hosting level other =>
      cases hosts
      exact List.mem_cons_of_mem _ member

theorem withLevel_level (run : Run) : run.withLevel run.level = run := by
  cases run <;> rfl

end Run

namespace Level

variable {level : Level} {trigger : String} {fired : Bool}

theorem instance_of_current? {activity : Activity}
    (current : level.current?.map (·.activity) = some activity) :
    ∃ index inst, level.current = some index ∧ level.instances[index]? = some inst ∧
      inst.activity = activity := by
  obtain ⟨inst, atCurrent, same⟩ := Option.map_eq_some_iff.mp current
  obtain ⟨index, current, found⟩ := Option.bind_eq_some_iff.mp atCurrent
  exact ⟨index, inst, current, found, same⟩

theorem fired_of_waits
    (waits : level.current?.map (·.activity) = some (.waitForTrigger trigger fired)) :
    level.fired = fired := by
  obtain ⟨inst, atCurrent, same⟩ := Option.map_eq_some_iff.mp waits
  rw [Level.fired, atCurrent, Option.any_some, same]
  rfl

theorem wait?_trigger_of_waits
    (waits : level.current?.map (·.activity) = some (.waitForTrigger trigger fired)) :
    level.wait?.map (·.trigger) = if trigger = "" then none else some trigger := by
  obtain ⟨index, inst, current, found, same⟩ := instance_of_current? waits
  rw [wait?_of_found current found, same, Option.map_map, Activity.trigger?]
  split <;> rfl

end Level

namespace Session

variable {σ : Type} [World σ] (world : Option σ) (id : RunId) (graph : Graph)

/-- Some signal of the trigger was sent since the visit that the outermost level is in began. -/
def SignalledInVisit (operations : List (Operation σ)) (trigger : String) : Prop :=
  ∃ earlier later, operations = earlier ++ .signal trigger :: later ∧
    (after world id graph earlier).run.level.enters =
      (after world id graph operations).run.level.enters

theorem enters_le_perform (session : Session σ) (sound : session.run.Sound)
    (operation : Operation σ) :
    session.run.level.enters ≤ (session.perform operation).run.level.enters := by
  cases operation with
  | tick seconds => exact (sound.tickStep seconds _).enters_le
  | signal trigger =>
      have same : (session.run.signal trigger).run.level.enters = session.run.level.enters := by
        rw [Run.level_signal, Level.enters_signal]
      exact Nat.le_of_eq same.symm
  | change become => exact Nat.le_refl _

theorem enters_le_append (earlier later : List (Operation σ)) :
    (after world id graph earlier).run.level.enters ≤
      (after world id graph (earlier ++ later)).run.level.enters := by
  induction later using List.reverseRecOn with
  | nil => exact Nat.le_of_eq (by rw [List.append_nil])
  | append_singleton later operation ih =>
      rw [← List.append_assoc, after_append]
      exact Nat.le_trans ih (enters_le_perform _ (sound world id graph _) operation)

variable {world id graph}

theorem not_signalledInVisit_of_entered {operations : List (Operation σ)}
    {operation : Operation σ}
    (entered : (after world id graph operations).run.level.enters <
      (after world id graph (operations ++ [operation])).run.level.enters) (trigger : String) :
    ¬ SignalledInVisit world id graph (operations ++ [operation]) trigger := by
  rintro ⟨earlier, later, split, same⟩
  obtain ⟨middle, rfl⟩ : ∃ middle, operations = earlier ++ middle := by
    rcases split_append_singleton split with ⟨rfl, _⟩ | ⟨front, _, whole⟩
    · exact ⟨[], (List.append_nil earlier).symm⟩
    · exact ⟨_, whole⟩
  have before := enters_le_append world id graph earlier middle
  omega

theorem signalledInVisit_append {operations : List (Operation σ)} {operation : Operation σ}
    (same : (after world id graph (operations ++ [operation])).run.level.enters =
      (after world id graph operations).run.level.enters) (trigger : String) :
    SignalledInVisit world id graph (operations ++ [operation]) trigger ↔
      SignalledInVisit world id graph operations trigger ∨ operation = .signal trigger := by
  constructor
  · rintro ⟨earlier, later, split, kept⟩
    rcases split_append_singleton split with ⟨_, last⟩ | ⟨front, _, before⟩
    · exact .inr last.symm
    · exact .inl ⟨earlier, front, before, kept.trans same⟩
  · rintro (⟨earlier, later, rfl, kept⟩ | rfl)
    · exact ⟨earlier, later ++ [operation], by simp, kept.trans same.symm⟩
    · exact ⟨operations, [], rfl, same.symm⟩

/-- The trigger of a visit is found fired exactly if it was signalled in that visit. -/
theorem fired_iff (operations : List (Operation σ)) :
    (after world id graph operations).run.level.fired = true ↔
      ∃ wait, (after world id graph operations).run.level.wait? = some wait ∧
        SignalledInVisit world id graph operations wait.trigger := by
  induction operations using List.reverseRecOn with
  | nil =>
      have unfired : (after world id graph []).run.level.fired = false := by
        have begun : (after world id graph []).run.level = Level.begin world id graph :=
          Run.level_start world id graph
        rw [begun]
        exact Level.fired_begin world id graph
      rw [unfired]
      refine iff_of_false Bool.false_ne_true ?_
      rintro ⟨_, _, earlier, later, split, _⟩
      exact absurd split.symm (by simp)
  | append_singleton operations operation ih =>
      have sound := sound world id graph operations
      have kept := (history world id graph operations).waitKept
      have performed := after_append world id graph operations operation
      cases operation with
      | tick seconds =>
          have step := sound.tickStep seconds ((after world id graph operations).run.tick seconds
            (after world id graph operations).world).world
          have ticked : (after world id graph (operations ++ [.tick seconds])).run.level =
              ((after world id graph operations).run.advance seconds
                ((after world id graph operations).run.tick seconds
                  (after world id graph operations).world).world).1.level := by
            rw [performed]
            rfl
          rw [← ticked] at step
          obtain ⟨sameFired, sameWait, sameEnters⟩ | ⟨unfired, next⟩ := step.fired_cases
          · simp only [signalledInVisit_append sameEnters]
            rw [sameFired, sameWait, ih]
            simp
          · rw [unfired]
            refine iff_of_false Bool.false_ne_true ?_
            rintro ⟨wait, waits, signalled⟩
            rcases next with isOver | entered
            · rw [Level.wait?_of_current_none isOver] at waits
              cases waits
            · exact not_signalledInVisit_of_entered entered wait.trigger signalled
      | signal trigger =>
          have signalled : (after world id graph (operations ++ [.signal trigger])).run.level =
              ((after world id graph operations).run.level.signal trigger).1 := by
            rw [performed]
            exact Run.level_signal trigger _
          have sameEnters :
              (after world id graph (operations ++ [.signal trigger])).run.level.enters =
                (after world id graph operations).run.level.enters := by
            rw [signalled, Level.enters_signal]
          simp only [signalledInVisit_append sameEnters]
          rw [signalled, kept.fired_signal, Level.wait?_signal, ih, Option.map_eq_some_iff,
            ← exists_or]
          refine exists_congr fun wait => ?_
          rw [← and_or_left, Operation.signal.injEq, @eq_comm _ trigger]
      | change become =>
          have unchanged : (after world id graph (operations ++ [.change become])).run =
              (after world id graph operations).run := by
            rw [performed]
            rfl
          simp only [signalledInVisit_append (congrArg (·.level.enters) unchanged)]
          rw [unchanged, ih]
          simp

/-- Sessions with the same run in the same world go on alike. -/
theorem foldl_perform_of_same (later : List (Operation σ)) {left right : Session σ}
    (sameRun : left.run = right.run) (sameWorld : left.world = right.world) :
    (later.foldl perform left).run = (later.foldl perform right).run ∧
      (later.foldl perform left).world = (later.foldl perform right).world ∧
      ∃ events, (later.foldl perform left).events = left.events ++ events ∧
        (later.foldl perform right).events = right.events ++ events := by
  induction later generalizing left right with
  | nil => exact ⟨sameRun, sameWorld, [], by simp, by simp⟩
  | cons operation rest ih =>
      have step : (left.perform operation).run = (right.perform operation).run ∧
          (left.perform operation).world = (right.perform operation).world ∧
          ∃ events, (left.perform operation).events = left.events ++ events ∧
            (right.perform operation).events = right.events ++ events := by
        cases operation with
        | tick seconds =>
            simp only [perform, sameRun, sameWorld, true_and]
            exact ⟨_, rfl, rfl⟩
        | signal trigger =>
            simp only [perform, sameRun, sameWorld, true_and]
            exact ⟨_, rfl, rfl⟩
        | change become =>
            simp only [perform, sameRun, sameWorld, true_and]
            exact ⟨[], by simp, by simp⟩
      obtain ⟨nextRun, nextWorld, first, leftFirst, rightFirst⟩ := step
      obtain ⟨lastRun, lastWorld, more, leftMore, rightMore⟩ := ih nextRun nextWorld
      refine ⟨lastRun, lastWorld, first ++ more, ?_, ?_⟩
      · rw [List.foldl_cons, leftMore, leftFirst, List.append_assoc]
      · rw [List.foldl_cons, rightMore, rightFirst, List.append_assoc]

/-- An operation that leaves run and world alone leaves no trace but its own reports. -/
theorem after_insert_of_same {operations : List (Operation σ)} {operation : Operation σ}
    {reports : List Event}
    (sameRun : ((after world id graph operations).perform operation).run =
      (after world id graph operations).run)
    (sameWorld : ((after world id graph operations).perform operation).world =
      (after world id graph operations).world)
    (reported : ((after world id graph operations).perform operation).events =
      (after world id graph operations).events ++ reports) (later : List (Operation σ)) :
    (after world id graph (operations ++ operation :: later)).run =
        (after world id graph (operations ++ later)).run ∧
      (after world id graph (operations ++ operation :: later)).world =
        (after world id graph (operations ++ later)).world ∧
      ∃ events,
        (after world id graph (operations ++ later)).events =
          (after world id graph operations).events ++ events ∧
        (after world id graph (operations ++ operation :: later)).events =
          (after world id graph operations).events ++ reports ++ events := by
  have inserted : after world id graph (operations ++ operation :: later) =
      later.foldl perform ((after world id graph operations).perform operation) :=
    after_append_list world id graph operations (operation :: later)
  obtain ⟨lastRun, lastWorld, events, insertedEvents, plainEvents⟩ :=
    foldl_perform_of_same later sameRun sameWorld
  rw [inserted, after_append_list]
  exact ⟨lastRun, lastWorld, events, plainEvents, by rw [insertedEvents, reported]⟩

/-- A level waits for a trigger just while its current node is a WaitForTrigger node with that
trigger, and the trigger is not empty. A signal of it wakes this one node and changes nothing but
its mark; at any other time a signal changes nothing, now and later, and nested runs are never
reached. So a WaitForTrigger node of the outermost level is done in the first tick behind a signal
of its trigger that was sent during the visit, and not before, and one of a nested level is never
done. -/
theorem signals_end_waiting_visits (world : Option σ) (id : RunId) (graph : Graph)
    (operations : List (Operation σ)) :
    let session := after world id graph operations
    let level := session.run.level
    (∀ nested ∈ session.run.chain,
      nested.level.waits.registrations = nested.level.wait?.toList) ∧
    (∀ trigger index, level.wait? = some ⟨trigger, index⟩ →
      (session.run.signal trigger).woken = 1 ∧
      (session.run.signal trigger).run =
        session.run.withLevel (level.withActivity index (.waitForTrigger trigger true))) ∧
    (∀ trigger, level.wait?.map (·.trigger) ≠ some trigger →
      (session.run.signal trigger).woken = 0 ∧
      (session.run.signal trigger).run = session.run ∧
      ∀ later,
        let signalled := after world id graph (operations ++ .signal trigger :: later)
        let unsignalled := after world id graph (operations ++ later)
        signalled.run = unsignalled.run ∧ signalled.world = unsignalled.world ∧
        ∃ events, unsignalled.events = session.events ++ events ∧
          signalled.events =
            session.events ++ [level.event (.triggerSignalled trigger 0)] ++ events) ∧
    (∀ trigger, (session.run.signal trigger).run.inner? = session.run.inner?) ∧
    (∀ trigger fired, level.current?.map (·.activity) = some (.waitForTrigger trigger fired) →
      ∀ (seconds : Float32) (now : Option σ),
        (∃ node type tick, level.event (.nodeExited node type tick) ∈
            (session.run.tick seconds now).events) ↔
          trigger ≠ "" ∧ SignalledInVisit world id graph operations trigger) ∧
    (∀ inner, session.run.inner? = some inner → ∀ nested ∈ inner.chain, ∀ trigger fired,
      nested.level.current?.map (·.activity) = some (.waitForTrigger trigger fired) →
      ∀ (seconds : Float32) (now : Option σ), (session.run.tick seconds now).events = []) := by
  intro session level
  have sound : session.run.Sound := Session.sound world id graph operations
  have kept : level.WaitKept := (history world id graph operations).waitKept
  refine ⟨?_, ?_, ?_, fun trigger => Run.inner?_signal trigger session.run, ?_, ?_⟩
  · intro nested member
    obtain ⟨_, history⟩ := historic_of_mem_chain world id graph operations member
    exact history.waitKept
  · intro trigger index waits
    have signalled := kept.signal_of_wait? waits
    have changed : (session.run.signal trigger).run =
        session.run.withLevel (session.run.level.signal trigger).1 := rfl
    rw [changed, signalled]
    exact ⟨congrArg Prod.snd signalled, rfl⟩
  · intro trigger idle
    have signalled := kept.signal_of_not_waiting idle
    have unwoken : (session.run.signal trigger).woken = 0 := congrArg Prod.snd signalled
    have changed : (session.run.signal trigger).run =
        session.run.withLevel (session.run.level.signal trigger).1 := rfl
    rw [signalled, Run.withLevel_level] at changed
    have reported : (session.perform (.signal trigger)).events =
        session.events ++ [level.event (.triggerSignalled trigger 0)] := by
      change session.events ++ [(session.run.level.signal trigger).1.event
        (.triggerSignalled trigger (session.run.level.signal trigger).2)] = _
      rw [signalled]
    exact ⟨unwoken, changed, after_insert_of_same changed rfl reported⟩
  · intro trigger fired waits seconds now
    obtain ⟨index, inst, current, found, activity⟩ := Level.instance_of_current? waits
    rw [sound.exit_reported_iff current found activity, ← Level.fired_of_waits waits, fired_iff]
    have awaited := Level.wait?_trigger_of_waits waits
    constructor
    · rintro ⟨wait, waiting, signalled⟩
      rw [waiting, Option.map_some] at awaited
      split at awaited
      · cases awaited
      next named =>
        rw [Option.some.inj awaited] at signalled
        exact ⟨named, signalled⟩
    · rintro ⟨named, signalled⟩
      rw [if_neg named] at awaited
      obtain ⟨wait, waiting, rfl⟩ := Option.map_eq_some_iff.mp awaited
      exact ⟨wait, waiting, signalled⟩
  · intro inner hosts nested member trigger fired waits seconds now
    have unfired := holds_of_hosted world id graph Level.lasting_unfired operations hosts member
    rw [Level.fired_of_waits waits] at unfired
    subst unfired
    obtain ⟨index, inst, current, found, activity⟩ := Level.instance_of_current? waits
    have inside := Run.mem_chain_of_hosted hosts member
    obtain ⟨silent, running⟩ := (sound.of_mem_chain inside).advance_of_waits current found activity
      seconds (session.run.tick seconds now).world
    exact (sound.quiet_of_mem_chain inside silent running).1

end Session

end SceneFlow
