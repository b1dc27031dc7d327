import Mathlib.Data.List.Induction
import SceneFlow.Player
import SceneFlow.Proofs.Run.Records

/-!
# How runs end

A run is reported to have finished when its last visit ends, and to have been stopped when a player
gives it up. A player keeps a run that has finished until it is stopped or the next run starts, and
gives it up like any other then. Of such a run both ends are reported; of any other run there is
one report of its end at most.
-/

set_option autoImplicit false

namespace SceneFlow

def Report.isEnding : Report → Bool
  | .runFinished .. | .runStopped .. => true
  | _ => false

namespace Run

/-- The reports of the end of a run. -/
def endings (id : RunId) (events : List Event) : List Report :=
  (reports id events).filter (·.isEnding)

variable {id : RunId} {events new : List Event}

theorem endings_append (id : RunId) (before after : List Event) :
    endings id (before ++ after) = endings id before ++ endings id after := by
  simp only [endings, reports_append, List.filter_append]

theorem endings_of_own_eq_nil (silent : own id events = []) : endings id events = [] := by
  rw [endings, reports_of_own_eq_nil silent]
  rfl

theorem endings_append_of_own_eq_nil (silent : own id new = []) :
    endings id (events ++ new) = endings id events :=
  congrArg (List.filter _) (reports_append_of_own_eq_nil silent)

theorem endings_sublist {fewer : List Event} (among : fewer.Sublist events) (id : RunId) :
    (endings id fewer).Sublist (endings id events) :=
  (((among.filter _).map _).filter _).filter _

end Run

theorem endings_visitsTold (graph : String) (visits : List Visit) :
    (visitsTold graph visits).filter (·.isEnding) = [] := by
  refine List.filter_eq_nil_iff.mpr fun report told => ?_
  rcases List.mem_cons.mp told with rfl | visited
  · nofun
  · obtain ⟨visit, _, told⟩ := List.mem_flatMap.mp visited
    rcases List.mem_cons.mp told with rfl | told
    · nofun
    · rw [List.mem_singleton.mp told]
      nofun

/-- A chronicle tells of the end exactly if the level is over. -/
theorem Level.Chronicle.endings {level : Level} {reports : List Report}
    (chronicle : level.Chronicle reports) :
    reports.filter (·.isEnding) =
      if level.isFinished then [.runFinished level.graph.id level.ticks] else [] := by
  cases chronicle with
  | running contiguous past current =>
      rw [List.filter_append, endings_visitsTold, isFinished, current]
      rfl
  | finished contiguous isOver =>
      rw [List.filter_append, endings_visitsTold, isFinished, isOver]
      rfl

namespace Run

variable {id : RunId} {events : List Event} {run : Run}

theorem Settled.endings_le (settled : Settled events id) : (endings id events).length ≤ 1 := by
  rcases settled with silent | ⟨level, _, _, chronicle⟩
  · rw [endings_of_own_eq_nil silent]
    exact Nat.zero_le 1
  · rw [endings, chronicle.endings]
    split
    · exact Nat.le_refl 1
    · exact Nat.zero_le 1

theorem Recorded.endings_eq (recorded : Recorded events run) :
    endings run.level.id events =
      if run.isFinished then [.runFinished run.level.graph.id run.level.ticks] else [] :=
  recorded.chronicle.endings

theorem Recorded.endings_le (recorded : Recorded events run) (sound : run.Sound)
    (within : id.IsWithin run.level.id) : (endings id events).length ≤ 1 := by
  rcases recorded.under_way_or_settled sound within with ⟨nested, member, rfl⟩ | settled
  · rw [(recorded_of_mem_chain recorded member).endings_eq]
    split
    · exact Nat.le_refl 1
    · exact Nat.zero_le 1
  · exact settled.endings_le

end Run

/-! ## Stops -/

/-- The report is that a run was stopped. -/
def Report.isStop : Report → Bool
  | .runStopped _ => true
  | _ => false

namespace Run

variable {σ : Type} [World σ] {event : Event}

theorem isStop_of_mem_enteredReport {level : Level} {index : Nat}
    (member : event ∈ level.enteredReport index) : event.report.isStop = false := by
  obtain ⟨inst, rfl⟩ := Level.eq_of_mem_enteredReport member
  rfl

mutual

theorem isStop_of_mem_start (world : Option σ) (id : RunId) (graph : Graph) (event : Event)
    (member : event ∈ (start world id graph).2) : event.report.isStop = false := by
  match found : graph.startIndex? with
  | none =>
      rw [start_of_none found] at member
      rcases List.mem_cons.mp member with rfl | member
      · rfl
      · rw [List.mem_singleton.mp member]
        rfl
  | some index =>
      rw [start_of_some found] at member
      rcases List.mem_cons.mp member with rfl | member
      · rfl
      · exact isStop_of_mem_enter world index (Level.ofGraph id graph) event member
termination_by 2 * graph.nesting + 1
decreasing_by
  simp only [Level.ofGraph]
  omega

theorem isStop_of_mem_enter (world : Option σ) (index : Nat) (level : Level) (event : Event)
    (member : event ∈ (enter world index level).2) : event.report.isStop = false := by
  match hosted : level.graph.nestedAt? index with
  | none =>
      rw [enter_of_none hosted] at member
      exact isStop_of_mem_enteredReport member
  | some graph =>
      rw [enter_of_some hosted] at member
      rcases List.mem_append.mp member with nested | reported
      · exact isStop_of_mem_start world _ graph event nested
      · exact isStop_of_mem_enteredReport reported
termination_by 2 * level.graph.nesting
decreasing_by
  have := Graph.nesting_lt_of_nestedAt? hosted
  omega

end

theorem isStop_of_mem_moveOn {world : Option σ} {index : Nat} {level : Level}
    (member : event ∈ (moveOn world index level).2) : event.report.isStop = false := by
  rw [events_moveOn] at member
  rcases List.mem_append.mp member with exited | arrived
  · obtain ⟨inst, rfl⟩ := Level.eq_of_mem_exitedReport exited
    rfl
  · cases goes : (level.leave index).destination index with
    | successor next | resumption next returns =>
        rw [goes] at arrived
        exact isStop_of_mem_enter world next _ event arrived
    | ending | unresolved id =>
        rw [goes] at arrived
        rw [List.mem_singleton.mp arrived]
        rfl

/-- A run tells of its end itself, but that it was stopped is told by those who stop it. -/
theorem Advances.isStop_of_mem {seconds : Float32} {world : Option σ} {run after : Run}
    {departure : Option Departure} {events : List Event}
    (step : Advances seconds world run departure after events) (member : event ∈ events) :
    event.report.isStop = false := by
  induction step with
  | idle => cases member
  | stay => cases member
  | move => exact isStop_of_mem_moveOn member
  | inside _ _ _ _ _ _ _ ih => exact ih member
  | outside _ _ _ _ _ _ _ ih =>
      rcases List.mem_append.mp member with inner | moved
      · exact ih inner
      · exact isStop_of_mem_moveOn moved

end Run

/-! ## Hosts of players -/

/-- What a host asks of a player. -/
inductive Call (σ : Type) where
  | start (graph : Graph)
  | tick (seconds : Float32)
  | signal (trigger : String)
  | stop
  | subscribe
  | drain (subscriber : Nat)
  /-- The world goes its own way; without a world nothing happens. -/
  | change (become : σ → σ)

/-- A run in progress does not outlast the call. -/
def Call.givesUp {σ : Type} : Call σ → Bool
  | .start _ | .stop => true
  | _ => false

namespace Player

variable {σ : Type} [World σ]

def perform (player : Player σ) : Call σ → Player σ
  | .start graph => (player.start graph).2
  | .tick seconds => player.tick seconds
  | .signal trigger => (player.signal trigger).2
  | .stop => player.stop
  | .subscribe => player.subscribe.2
  | .drain subscriber => (player.drain subscriber).2
  | .change become => { player with world := player.world.map become }

omit [World σ] in
/-- The report with which a player gives up its run. -/
def stopReport (player : Player σ) : List Event :=
  (player.run.map (·.stoppedReport)).toList

omit [World σ] in
/-- The run with the identity has come to its end and is still with the player. -/
def HasEnded (player : Player σ) (id : RunId) : Prop :=
  ∃ run, player.run = some run ∧ run.isFinished = true ∧ run.level.id = id

/-- The events that a call sends. -/
def sends (player : Player σ) : Call σ → List Event
  | .start graph =>
      player.stopReport ++ (Run.start player.world (.outermost player.started) graph).2
  | .tick seconds =>
      (player.run.map fun run => (run.tick seconds player.world).events).getD []
  | .signal trigger => (player.run.map fun run => (run.signal trigger).events).getD []
  | .stop => player.stopReport
  | .subscribe | .drain _ | .change _ => []

section Stop

omit [World σ]

theorem channel_stop (player : Player σ) :
    player.stop.channel = player.channel.sendAll player.stopReport := by
  unfold stop stopReport
  cases player.run <;> rfl

end Stop

/-- The channel takes part in a call by what the call sends, and by subscribers' own doings. -/
theorem channel_perform (player : Player σ) (call : Call σ) :
    (player.perform call).channel =
      match call with
      | .subscribe => player.channel.subscribe.2
      | .drain subscriber => (player.channel.drain subscriber).2
      | _ => player.channel.sendAll (player.sends call) := by
  cases call with
  | start graph =>
      have started : (player.start graph).2.channel = player.stop.channel.sendAll
          (Run.start player.stop.world (.outermost player.stop.started) graph).2 := rfl
      rw [world_stop, started_stop, channel_stop] at started
      exact started.trans List.foldl_append.symm
  | tick seconds =>
      change (player.tick seconds).channel = _
      unfold tick sends
      cases player.run <;> rfl
  | signal trigger =>
      change (player.signal trigger).2.channel = _
      unfold signal sends
      cases player.run <;> rfl
  | stop => exact channel_stop player
  | subscribe => rfl
  | drain subscriber => rfl
  | change become => rfl

end Player

/-- A player in the hands of a host, with everything that its runs have reported. -/
structure Performance (σ : Type) where
  player : Player σ
  events : List Event

namespace Performance

variable {σ : Type} [World σ]

def perform (performance : Performance σ) (call : Call σ) : Performance σ :=
  ⟨performance.player.perform call, performance.events ++ performance.player.sends call⟩

/-- What has become of a new player after some calls. -/
def after (config : PlayerConfig) (world : Option σ) (calls : List (Call σ)) : Performance σ :=
  calls.foldl perform ⟨.ofConfig config world, []⟩

/-- The run was over already when one of the calls gave it up. -/
def GivenUpLate (config : PlayerConfig) (world : Option σ) (calls : List (Call σ)) (id : RunId) :
    Prop :=
  ∃ earlier call later, calls = earlier ++ call :: later ∧ call.givesUp = true ∧
    (after config world earlier).player.HasEnded id

variable {config : PlayerConfig} {world : Option σ}

theorem after_append (calls : List (Call σ)) (call : Call σ) :
    after config world (calls ++ [call]) = (after config world calls).perform call := by
  simp only [after, List.foldl_append, List.foldl_cons, List.foldl_nil]

theorem givenUpLate_append (calls : List (Call σ)) (call : Call σ) (id : RunId) :
    GivenUpLate config world (calls ++ [call]) id ↔
      GivenUpLate config world calls id ∨
        call.givesUp = true ∧ (after config world calls).player.HasEnded id := by
  constructor
  · rintro ⟨earlier, given, later, split, givesUp, late⟩
    rcases split_append_singleton split with ⟨rfl, rfl⟩ | ⟨front, _, before⟩
    · exact .inr ⟨givesUp, late⟩
    · exact .inl ⟨earlier, given, front, before, givesUp, late⟩
  · rintro (⟨earlier, given, later, rfl, late⟩ | ⟨givesUp, late⟩)
    · exact ⟨earlier, given, later ++ [call], by simp, late⟩
    · exact ⟨calls, call, [], rfl, givesUp, late⟩

/-! ## What is reported of the end of a run -/

/-- Runs are numbered, the events hold the records of the run in progress, and the ends of all runs
are told as often as they have to be, `late` being those that were over when they were given up. -/
structure Accounted (late : RunId → Prop) (player : Player σ) (events : List Event) : Prop where
  numbered : ∀ event ∈ events, event.run.root < player.started
  current : ∀ run, player.run = some run → run.Sound ∧ Run.Recorded events run ∧
    ∃ number, player.started = number + 1 ∧ run.level.id = .outermost number
  once : ∀ id, ¬ late id → (Run.endings id events).length ≤ 1
  twice : ∀ id, late id → ∃ graph ticks,
    Run.endings id events = [.runFinished graph ticks, .runStopped graph]

namespace Accounted

variable {late : RunId → Prop} {player : Player σ} {events : List Event}

omit [World σ] in
theorem of_iff {others : RunId → Prop} (accounted : Accounted late player events)
    (same : ∀ id, others id ↔ late id) : Accounted others player events := by
  have same : others = late := funext fun id => propext (same id)
  rw [same]
  exact accounted

omit [World σ] in
/-- What was given up is none of the runs in progress. -/
theorem not_late (accounted : Accounted late player events) {run : Run}
    (current : player.run = some run) {id : RunId} (within : id.IsWithin run.level.id) :
    ¬ late id := by
  intro given
  -- Two ends were told of what was given up late, but of what is in progress at most one.
  obtain ⟨sound, recorded, _⟩ := accounted.current run current
  obtain ⟨graph, ticks, told⟩ := accounted.twice id given
  have once := recorded.endings_le sound within
  rw [told] at once
  exact absurd once (by decide : ¬ 2 ≤ 1)

omit [World σ] in
/-- The run in progress has made its reports. -/
theorem goOn (accounted : Accounted late player events) {new : List Event} {after : Player σ}
    {run : Run} {number : Nat} (current : after.run = some run)
    (started : after.started = number + 1) (later : player.started ≤ after.started)
    (identity : run.level.id = .outermost number) (sound : run.Sound)
    (recorded : Run.Recorded (events ++ new) run)
    (inside : ∀ event ∈ new, event.run.IsWithin run.level.id)
    (apart : ∀ id : RunId, id.IsWithin run.level.id → ¬ late id) :
    Accounted late after (events ++ new) := by
  have elsewhere : ∀ id : RunId, ¬ id.IsWithin run.level.id →
      Run.endings id (events ++ new) = Run.endings id events := by
    intro id outside
    have silent : Run.own id new = [] :=
      Run.own_of_forall_ne fun event member same => outside (same ▸ inside event member)
    exact Run.endings_append_of_own_eq_nil silent
  constructor
  · intro event member
    rcases List.mem_append.mp member with earlier | told
    · exact Nat.lt_of_lt_of_le (accounted.numbered event earlier) later
    · have sameRoot := (inside event told).1
      rw [identity] at sameRoot
      rw [sameRoot, started]
      exact Nat.lt_succ_self number
  · intro other current'
    have same : other = run := Option.some.inj (current'.symm.trans current)
    subst same
    exact ⟨sound, recorded, number, started, identity⟩
  · intro id notLate
    by_cases within : id.IsWithin run.level.id
    · exact recorded.endings_le sound within
    · rw [elsewhere id within]
      exact accounted.once id notLate
  · intro id given
    rw [elsewhere id fun within => apart id within given]
    exact accounted.twice id given

theorem tick (accounted : Accounted late player events) (seconds : Float32) :
    Accounted late (player.tick seconds) (events ++ player.sends (.tick seconds)) := by
  unfold Player.tick Player.sends
  cases current : player.run with
  | none =>
      simp only [Option.map_none, Option.getD_none, List.append_nil]
      exact accounted
  | some run =>
      obtain ⟨sound, recorded, number, started, identity⟩ := accounted.current run current
      have same := (sound.tickStep seconds (run.tick seconds player.world).world).id_eq
      refine accounted.goOn rfl started (Nat.le_refl _) (same.trans identity)
        (sound.advance seconds _) (recorded.advance (sound.advances seconds _)) ?_ ?_
      · intro event member
        exact same ▸ sound.isWithin_of_mem_advance seconds _ member
      · intro id within
        exact accounted.not_late current (same ▸ within)

theorem signal (accounted : Accounted late player events) (trigger : String) :
    Accounted late (player.signal trigger).2 (events ++ player.sends (.signal trigger)) := by
  unfold Player.signal Player.sends
  cases current : player.run with
  | none =>
      simp only [Option.map_none, Option.getD_none, List.append_nil]
      exact accounted
  | some run =>
      obtain ⟨sound, recorded, number, started, identity⟩ := accounted.current run current
      have same : (run.signal trigger).run.level.id = run.level.id := by
        rw [Run.level_signal, Level.id_signal]
      refine accounted.goOn rfl started (Nat.le_refl _) (same.trans identity)
        (sound.signal trigger) (recorded.signal sound trigger) ?_ ?_
      · intro event member
        rw [same, Run.run_of_mem_signal member]
        exact .refl _
      · intro id within
        exact accounted.not_late current (same ▸ within)

omit [World σ] in
theorem endings_stopReport_of_ne {id : RunId}
    (apart : ∀ run, player.run = some run → run.level.id ≠ id) :
    Run.endings id (events ++ player.stopReport) = Run.endings id events := by
  have silent : Run.own id player.stopReport = [] := by
    refine Run.own_of_forall_ne fun event member => ?_
    obtain ⟨run, current, rfl⟩ := Option.map_eq_some_iff.mp (Option.mem_toList.mp member)
    exact apart run current
  exact Run.endings_append_of_own_eq_nil silent

omit [World σ] in
/-- A run that is given up is reported stopped, whether or not it was over. -/
theorem endings_stopReport (accounted : Accounted late player events) {run : Run}
    (current : player.run = some run) :
    Run.endings run.level.id (events ++ player.stopReport) =
      (if run.isFinished then [.runFinished run.level.graph.id run.level.ticks] else []) ++
        [.runStopped run.level.graph.id] := by
  obtain ⟨_, recorded, _⟩ := accounted.current run current
  have told : Run.reports run.level.id [run.stoppedReport] = [.runStopped run.level.graph.id] :=
    Run.reports_event run.level rfl
  have stopped := congrArg (List.filter (·.isEnding)) told
  rw [Run.endings_append, recorded.endings_eq, Player.stopReport, current]
  exact congrArg _ stopped

omit [World σ] in
theorem stop (accounted : Accounted late player events) :
    Accounted (fun id => late id ∨ player.HasEnded id) player.stop
      (events ++ player.stopReport) := by
  constructor
  · intro event member
    rw [Player.started_stop]
    rcases List.mem_append.mp member with earlier | stopped
    · exact accounted.numbered event earlier
    · obtain ⟨run, current, rfl⟩ := Option.map_eq_some_iff.mp (Option.mem_toList.mp stopped)
      obtain ⟨_, _, number, started, identity⟩ := accounted.current run current
      have root : run.stoppedReport.run.root = number := congrArg RunId.root identity
      rw [root, started]
      exact Nat.lt_succ_self number
  · intro run current
    rw [Player.run_stop] at current
    cases current
  · intro id timely
    by_cases mine : ∃ run, player.run = some run ∧ run.level.id = id
    · obtain ⟨run, current, rfl⟩ := mine
      have running : ¬ run.isFinished = true := fun isOver =>
        timely (.inr ⟨run, current, isOver, rfl⟩)
      rw [accounted.endings_stopReport current, if_neg running]
      exact Nat.le_refl 1
    · rw [endings_stopReport_of_ne fun run current same => mine ⟨run, current, same⟩]
      exact accounted.once id fun given => timely (.inl given)
  · intro id given
    rcases given with given | ⟨run, current, isOver, rfl⟩
    · rw [endings_stopReport_of_ne fun run current same =>
        accounted.not_late current (same ▸ .refl _) given]
      exact accounted.twice id given
    · rw [accounted.endings_stopReport current, if_pos isOver]
      exact ⟨_, _, rfl⟩

theorem start (accounted : Accounted late player events) (graph : Graph) :
    Accounted (fun id => late id ∨ player.HasEnded id) (player.start graph).2
      (events ++ player.sends (.start graph)) := by
  -- The new run's number has not been used, so nothing is told of it or of runs in it.
  have stopped := accounted.stop
  have unheard : ∀ id : RunId, id.IsWithin (.outermost player.started) →
      Run.own id (events ++ player.stopReport) = [] := by
    intro id within
    refine Run.own_of_forall_ne fun event member same => ?_
    have earlier := stopped.numbered event member
    rw [same, within.1, Player.started_stop] at earlier
    exact Nat.lt_irrefl _ earlier
  have identity := (Run.level_start player.world (.outermost player.started) graph).symm ▸
    Level.id_begin player.world (.outermost player.started) graph
  have current : (player.start graph).2.run =
      some (Run.start player.world (.outermost player.started) graph).1 := by
    rw [← Player.world_stop player, ← Player.started_stop player]
    rfl
  have started : (player.start graph).2.started = player.started + 1 :=
    congrArg (· + 1) (Player.started_stop player)
  have recorded := Run.recorded_start player.world (.outermost player.started) graph _ unheard
  rw [Player.sends, ← List.append_assoc]
  refine stopped.goOn current started ?_ identity (Run.sound_start _ _ graph) recorded ?_ ?_
  · rw [started, Player.started_stop]
    exact Nat.le_succ _
  · intro event member
    rw [identity]
    exact Run.isWithin_of_mem_start _ _ graph event member
  · intro id within given
    rw [identity] at within
    obtain ⟨_, _, told⟩ := stopped.twice id given
    rw [Run.endings_of_own_eq_nil (unheard id within)] at told
    cases told

theorem perform (accounted : Accounted late player events) (call : Call σ) :
    Accounted (fun id => late id ∨ call.givesUp = true ∧ player.HasEnded id)
      (player.perform call) (events ++ player.sends call) := by
  have sameLate : call.givesUp = false →
      ∀ id, (late id ∨ call.givesUp = true ∧ player.HasEnded id) ↔ late id := by
    intro keeps id
    simp [keeps]
  cases call with
  | start graph => exact (accounted.start graph).of_iff fun _ => by simp [Call.givesUp]
  | tick seconds => exact (accounted.tick seconds).of_iff (sameLate rfl)
  | signal trigger => exact (accounted.signal trigger).of_iff (sameLate rfl)
  | stop => exact accounted.stop.of_iff fun _ => by simp [Call.givesUp]
  | subscribe | drain | change =>
      rw [Player.sends, List.append_nil]
      refine Accounted.of_iff ?_ (sameLate rfl)
      exact ⟨accounted.numbered, accounted.current, accounted.once, accounted.twice⟩

end Accounted

theorem accounted (config : PlayerConfig) (world : Option σ) (calls : List (Call σ)) :
    Accounted (GivenUpLate config world calls) (after config world calls).player
      (after config world calls).events := by
  induction calls using List.reverseRecOn with
  | nil =>
      have never : ∀ id, ¬ GivenUpLate config world [] id := by
        rintro id ⟨earlier, given, later, split, _⟩
        exact absurd split.symm (by simp)
      exact ⟨nofun, nofun, fun _ _ => Nat.zero_le 1, fun id given => absurd given (never id)⟩
  | append_singleton calls call ih =>
      rw [after_append]
      exact (ih.perform call).of_iff (givenUpLate_append calls call)

end Performance

end SceneFlow
