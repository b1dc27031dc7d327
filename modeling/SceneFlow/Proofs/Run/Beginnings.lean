import SceneFlow.Proofs.Run.Hosting

/-!
# Beginnings of visits

Each visit that goes on began at one moment of the session, and the identity of its level together
with its number among the visits of that level tells it from all others. So what holds as visits
begin and is kept as long as they last is known of every level that has control.
-/

set_option autoImplicit false

namespace SceneFlow

theorem Level.Chronicle.length_entries {level : Level} {reports : List Report}
    (chronicle : level.Chronicle reports) :
    (reports.filter (·.isEntry)).length = level.enters := by
  cases chronicle with
  | running _ _ _ _ counted =>
      rw [List.filter_append, entries_visitsTold, List.length_append, List.length_map, counted]
      rfl
  | finished _ _ counted =>
      rw [List.filter_append, entries_visitsTold, List.length_append, List.length_map, counted]
      rfl

namespace Run

variable {σ : Type} [World σ] {events : List Event} {run : Run} {world : Option σ}

theorem Recorded.length_entries (recorded : Recorded events run) :
    (entries run.level.id events).length = run.level.enters :=
  recorded.chronicle.length_entries

/-- A node was just given control, and the run that it hosts has just started. -/
inductive Enters (world : Option σ) : Run → Prop where
  | intro {level : Level} {index : Nat} (sound : level.Sound) (wins : level.graph.IsWinner index) :
      Enters world (enter world index level).1

theorem IsStart.enters (started : run.IsStart world) (running : run.isFinished = false) :
    Enters world run ∧ run.level.enters = 1 := by
  rw [IsStart] at started
  cases found : run.level.graph.startIndex? with
  | none =>
      rw [start_of_none found] at started
      rw [started] at running
      cases running
  | some index =>
      rw [start_of_some found] at started
      rw [started]
      refine ⟨.intro (Level.sound_ofGraph _ _) (Graph.isWinner_of_startIndex? found), ?_⟩
      exact (congrArg Level.enters (level_enter world index _)).trans (Level.enters_enter _ _ _)

/-- A tick that leaves a level in control leaves it in its visit or in the next one. -/
theorem Advances.lasts_or_enters {seconds : Float32} {after : Run} {departure : Option Departure}
    (step : Advances seconds world run departure after events)
    (running : after.isFinished = false) :
    departure = none ∨ Enters world after ∧ after.level.enters = run.level.enters + 1 := by
  have moved : ∀ {level : Level} {index : Nat}, level.Sound → level.current = some index →
      (moveOn world index (level.worked seconds world index)).1.isFinished = false →
      Enters world (moveOn world index (level.worked seconds world index)).1 ∧
        (moveOn world index (level.worked seconds world index)).1.level.enters =
          level.enters + 1 := by
    intro level index sound current running
    obtain ⟨next, left, leftSound, wins, _, sameEnters, entered⟩ | ⟨last, isOver, ended⟩ :=
      moveOn_enters_or_ends (sound.worked seconds world index) current world
    · rw [entered, level_enter, Level.enters_enter, sameEnters]
      exact ⟨.intro leftSound wins, rfl⟩
    · rw [ended, isFinished, Level.isFinished, Run.level, isOver] at running
      cases running
  cases step with
  | idle | stay | inside => exact .inl rfl
  | move sound current => exact .inr (moved sound current running)
  | outside sound current => exact .inr (moved sound current running)

/-- A run in the chain after a tick has just started, under an identity that was never heard of, or
was in the chain before and has had the same tick. -/
theorem Sound.chain_cases (sound : run.Sound) (recorded : Recorded events run) (seconds : Float32)
    (world : Option σ) {nested : Run} (member : nested ∈ (run.advance seconds world).1.chain) :
    (nested.IsStart world ∧ own nested.level.id events = []) ∨
      ∃ before ∈ run.chain, nested = (before.advance seconds world).1 := by
  rcases mem_chain_iff.mp member with outermost | inside
  · exact .inr ⟨run, mem_chain_self run, outermost⟩
  · rcases sound.hosted_cases recorded seconds world inside with
      started | ⟨before, earlier, same, _⟩
    · exact .inl started
    · exact .inr ⟨before, mem_chain_iff.mpr (.inr earlier), same⟩

end Run

namespace Session

variable {σ : Type} [World σ] (world : Option σ) (id : RunId) (graph : Graph)

/-- A tick advances the run in the world that has received its command. -/
theorem run_after_tick (operations : List (Operation σ)) (seconds : Float32) :
    (after world id graph (operations ++ [.tick seconds])).run =
      ((after world id graph operations).run.advance seconds
        (after world id graph (operations ++ [.tick seconds])).world).1 := by
  rw [after_append]
  rfl

/-- The visit with a number, counted from one, of the run with an identity goes on. -/
def InVisit (session : Session σ) (id : RunId) (number : Nat) : Prop :=
  ∃ nested ∈ session.run.chain, nested.level.id = id ∧ nested.level.enters = number ∧
    nested.isFinished = false

omit [World σ] in
theorem inVisit_of_mem {session : Session σ} {nested : Run} (member : nested ∈ session.run.chain)
    (running : nested.isFinished = false) :
    session.InVisit nested.level.id nested.level.enters :=
  ⟨nested, member, rfl, rfl, running⟩

/-- A visit does not go on before it is reported to begin. -/
theorem not_inVisit_of_few {earlier operations : List (Operation σ)} {inner : RunId} {number : Nat}
    (few : (Run.entries inner (after world id graph operations).events).length < number)
    (front : earlier <+: operations) : ¬ (after world id graph earlier).InVisit inner number := by
  rintro ⟨nested, member, rfl, rfl, _⟩
  have told := (Run.recorded_of_mem_chain (recorded world id graph earlier) member).length_entries
  obtain ⟨new, whole⟩ := events_prefix world id graph front
  rw [← whole, Run.entries_append, List.length_append, told] at few
  omega

/-- What holds of a run in the chain as its visit begins, and is kept while the visit lasts. -/
structure KeptInVisits (holds : List (Operation σ) → List (Operation σ) → Run → Prop) : Prop where
  enters : ∀ {before nested}, nested ∈ (after world id graph before).run.chain →
    Run.Enters (after world id graph before).world nested → holds before [] nested
  tick : ∀ {before later nested} (seconds : Float32),
    nested ∈ (after world id graph (before ++ later)).run.chain → holds before later nested →
    nested.isFinished = false →
    let now := (after world id graph (before ++ later ++ [.tick seconds])).world
    nested.departure? seconds now = none →
      holds before (later ++ [.tick seconds]) (nested.advance seconds now).1
  signal : ∀ {before later} (trigger : String),
    holds before later (after world id graph (before ++ later)).run →
      holds before (later ++ [.signal trigger])
        ((after world id graph (before ++ later)).run.signal trigger).run
  /-- No signal reaches a hosted run. -/
  unheard : ∀ {before later nested} (trigger : String),
    nested ∈ (after world id graph (before ++ later)).run.hosted → holds before later nested →
      holds before (later ++ [.signal trigger]) nested
  change : ∀ {before later nested} (become : σ → σ),
    nested ∈ (after world id graph (before ++ later)).run.chain → holds before later nested →
      holds before (later ++ [.change become]) nested

variable {world id graph} {holds : List (Operation σ) → List (Operation σ) → Run → Prop}
  {operations : List (Operation σ)} {operation : Operation σ} {nested : Run}

/-- The visit that the run is in began at some moment, and has kept what held of it then. -/
def Began (world : Option σ) (id : RunId) (graph : Graph)
    (holds : List (Operation σ) → List (Operation σ) → Run → Prop)
    (operations : List (Operation σ)) (nested : Run) : Prop :=
  ∃ before later, operations = before ++ later ∧
    Since world id graph before operations (·.InVisit nested.level.id nested.level.enters) ∧
    holds before later nested

/-- A new visit is one more than were reported so far. -/
theorem KeptInVisits.began_of_enters (kept : KeptInVisits world id graph holds)
    (member : nested ∈ (after world id graph (operations ++ [operation])).run.chain)
    (running : nested.isFinished = false)
    (few : (Run.entries nested.level.id (after world id graph operations).events).length <
      nested.level.enters)
    (entered : Run.Enters (after world id graph (operations ++ [operation])).world nested) :
    Began world id graph holds (operations ++ [operation]) nested := by
  have unknown : ∀ earlier, earlier <+: operations →
      ¬ (after world id graph earlier).InVisit nested.level.id nested.level.enters :=
    fun _ front => not_inVisit_of_few world id graph few front
  exact ⟨operations ++ [operation], [], (List.append_nil _).symm,
    since_now unknown (inVisit_of_mem member running), kept.enters member entered⟩

/-- A visit that goes on began when it did before. -/
theorem Began.append {earlier : Run} (began : Began world id graph holds operations earlier)
    (sameId : nested.level.id = earlier.level.id)
    (sameEnters : nested.level.enters = earlier.level.enters)
    (member : nested ∈ (after world id graph (operations ++ [operation])).run.chain)
    (running : nested.isFinished = false)
    (keeps : ∀ before later, operations = before ++ later → holds before later earlier →
      holds before (later ++ [operation]) nested) :
    Began world id graph holds (operations ++ [operation]) nested := by
  obtain ⟨before, later, rfl, since, holding⟩ := began
  rw [← sameId, ← sameEnters] at since
  exact ⟨before, later ++ [operation], List.append_assoc ..,
    since.append (List.prefix_append _ _) (inVisit_of_mem member running),
    keeps before later rfl holding⟩

theorem KeptInVisits.began_of_tick (kept : KeptInVisits world id graph holds)
    (ih : ∀ {nested : Run}, nested ∈ (after world id graph operations).run.chain →
      nested.isFinished = false → Began world id graph holds operations nested)
    {seconds : Float32}
    (member : nested ∈ (after world id graph (operations ++ [.tick seconds])).run.chain)
    (running : nested.isFinished = false) :
    Began world id graph holds (operations ++ [.tick seconds]) nested := by
  have sound := sound world id graph operations
  have recorded := recorded world id graph operations
  have advanced := member
  rw [run_after_tick] at advanced
  rcases sound.chain_cases recorded seconds _ advanced with
    ⟨started, silent⟩ | ⟨earlier, inChain, rfl⟩
  · obtain ⟨entered, first⟩ := started.enters running
    refine kept.began_of_enters member running ?_ entered
    rw [Run.entries, Run.reports_of_own_eq_nil silent, first]
    exact Nat.zero_lt_one
  · have step := (sound.of_mem_chain inChain).advances seconds
      (after world id graph (operations ++ [.tick seconds])).world
    have sameId := step.tickStep.id_eq
    rcases step.lasts_or_enters running with lasts | ⟨entered, next⟩
    · rw [lasts] at step
      obtain ⟨sameCurrent, sameEnters⟩ := step.tickStep.eq_of_none
      have goesOn : earlier.isFinished = false :=
        (congrArg Option.isNone sameCurrent).symm.trans running
      refine (ih inChain goesOn).append sameId sameEnters member running ?_
      rintro before later rfl holding
      exact kept.tick seconds inChain holding goesOn lasts
    · refine kept.began_of_enters member running ?_ entered
      rw [next, sameId, (Run.recorded_of_mem_chain recorded inChain).length_entries]
      exact Nat.lt_succ_self _

theorem KeptInVisits.exists_beginning (kept : KeptInVisits world id graph holds)
    (operations : List (Operation σ)) {nested : Run}
    (member : nested ∈ (after world id graph operations).run.chain)
    (running : nested.isFinished = false) : Began world id graph holds operations nested := by
  induction operations using List.reverseRecOn generalizing nested with
  | nil =>
      have started := (Run.isStart_of_mem_start world id graph nested member).1
      exact ⟨[], [], rfl, since_begin (inVisit_of_mem member running),
        kept.enters member (started.enters running).1⟩
  | append_singleton operations operation ih =>
      have same := after_append world id graph operations operation
      cases operation with
      | tick seconds => exact kept.began_of_tick ih member running
      | signal trigger =>
          have inChain := same ▸ member
          rcases Run.mem_chain_iff.mp inChain with rfl | inside
          · have sameLevel := Run.level_signal trigger (after world id graph operations).run
            have goesOn := (Run.isFinished_signal trigger _).symm.trans running
            refine (ih (Run.mem_chain_self _) goesOn).append
              ((congrArg Level.id sameLevel).trans (Level.id_signal trigger _))
              ((congrArg Level.enters sameLevel).trans (Level.enters_signal trigger _)) member
              running ?_
            rintro before later rfl holding
            exact kept.signal trigger holding
          · rw [perform, Run.hosted_signal] at inside
            refine (ih (Run.mem_chain_iff.mpr (.inr inside)) running).append rfl rfl member
              running ?_
            rintro before later rfl holding
            exact kept.unheard trigger inside holding
      | change become =>
          have inChain := same ▸ member
          refine (ih inChain running).append rfl rfl member running ?_
          rintro before later rfl holding
          exact kept.change become inChain holding

end Session

end SceneFlow
