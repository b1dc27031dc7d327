import SceneFlow.Proofs.Run.Hosting
import SceneFlow.Proofs.Run.Visits

/-!
# Trails

What the events say a run entered, under the identity of that run, is the trail of its history. This
holds of the outermost run of a session, and of hosted runs as well: nothing was heard of a hosted
run before it has started, and from then on it reports what it would report alone.
-/

set_option autoImplicit false

namespace SceneFlow

theorem Run.filterMap_enteredNode?_own (id : RunId) (events : List Event) :
    (own id events).filterMap Event.enteredNode? =
      (reports id events).filterMap fun report => Event.enteredNode? ⟨id, report⟩ := by
  rw [reports, List.filterMap_filter, List.filterMap_map]
  congr 1
  funext event
  rcases event with ⟨run, report⟩
  cases report <;> rfl

namespace Level

variable {σ : Type} [World σ] {level : Level}

theorem enters_begin (world : Option σ) (id : RunId) (graph : Graph) :
    (begin world id graph).enters = graph.startIndex?.toList.length := by
  unfold begin
  split
  next missing => rw [missing]; rfl
  next index found => rw [enters_enter, found]; rfl

/-- A level that has just begun has told of its first node and no other one. -/
theorem Chronicle.enteredNodes_eq {reports : List Report} (chronicle : level.Chronicle reports)
    (sound : level.Sound) (current : level.current = level.graph.startIndex?)
    (counted : level.enters = level.graph.startIndex?.toList.length) :
    reports.filterMap (fun report => Event.enteredNode? ⟨level.id, report⟩) =
      level.graph.idsAt level.graph.startIndex?.toList := by
  rw [← current] at counted ⊢
  cases chronicle with
  | @running visits tick index inst _ _ goesOn found enters =>
      rw [enters, goesOn] at counted
      have noVisits : visits = [] := List.eq_nil_of_length_eq_zero (Nat.succ.inj counted)
      rw [noVisits, goesOn, Option.toList_some,
        Session.idsAt_singleton (sound.named_of_instance found)]
      rfl
  | @finished visits _ isOver enters =>
      rw [enters, isOver] at counted
      have noVisits : visits = [] := List.eq_nil_of_length_eq_zero counted
      rw [noVisits, isOver]
      rfl

/-- The departures are the history of the level, and the events report the nodes that it entered on
the way. -/
structure Told (σ : Type) [World σ] (events : List Event) (departures : List Departure)
    (level : Level) : Prop where
  history : History σ level.id level.graph departures level
  trail : (Run.own level.id events).filterMap Event.enteredNode? =
    level.graph.idsAt (level.graph.trail departures)

end Level

namespace Run

variable {σ : Type} [World σ] {events : List Event}

theorem IsStart.level_eq {world : Option σ} {run : Run} (started : run.IsStart world) :
    run.level = Level.begin world run.level.id run.level.graph := by
  rw [← level_start]
  exact congrArg Run.level started

theorem told_of_isStart {world : Option σ} {run : Run} (started : run.IsStart world)
    (recorded : Recorded events run) : run.level.Told σ events [] := by
  have begun := started.level_eq
  have history : Level.History σ run.level.id run.level.graph [] run.level := by
    conv => arg 5; rw [begun]
    exact .begin world
  have current : run.level.current = run.level.graph.startIndex? :=
    (congrArg Level.current begun).trans (Level.current_begin world _ _)
  have enters := (congrArg Level.enters begun).trans (Level.enters_begin world _ _)
  refine ⟨history, ?_⟩
  rw [filterMap_enteredNode?_own, Graph.trail, List.filterMap_nil, List.append_nil]
  exact recorded.chronicle.enteredNodes_eq history.sound current enters

/-- A tick adds to the trail of a run what it reports to be entered. -/
theorem Sound.told_advance {run : Run} (sound : run.Sound) {departures : List Departure}
    (told : run.level.Told σ events departures) (seconds : Float32) (world : Option σ)
    {new : List Event}
    (reported : own run.level.id new = own run.level.id (run.advance seconds world).2) :
    (run.advance seconds world).1.level.Told σ (events ++ new)
      (departures ++ (run.departure? seconds world).toList) := by
  have step := sound.tickStep seconds world
  have entered := Session.enteredNodes_advance sound seconds world
  have history := told.history.tick step
  rw [← step.id_eq, ← step.graph_eq] at history
  refine ⟨history, ?_⟩
  rw [step.id_eq, step.graph_eq, own_append, List.filterMap_append, told.trail, reported, entered,
    ← Session.idsAt_append, ← Session.trail_append]

end Run

namespace Session

variable {σ : Type} [World σ] (world : Option σ) (id : RunId) (graph : Graph)

/-- The ids of the nodes that were reported to be entered under an identity. -/
def enteredBy (session : Session σ) (id : RunId) : List String :=
  (Run.own id session.events).filterMap Event.enteredNode?

theorem told (operations : List (Operation σ)) :
    (after world id graph operations).run.level.Told σ (after world id graph operations).events
      (after world id graph operations).departures where
  history := by
    rw [id_eq, graph_eq]
    exact history world id graph operations
  trail := by
    rw [graph_eq]
    exact entered_eq world id graph operations

theorem told_of_mem_hosted (operations : List (Operation σ)) {nested : Run}
    (member : nested ∈ (after world id graph operations).run.hosted) :
    ∃ departures, nested.level.Told σ (after world id graph operations).events departures := by
  induction operations using List.reverseRecOn generalizing nested with
  | nil =>
      have within := Run.mem_chain_iff.mpr (.inr member)
      have started := (Run.isStart_of_mem_start world id graph nested within).1
      exact ⟨[], Run.told_of_isStart started
        (Run.recorded_of_mem_chain (recorded world id graph []) within)⟩
  | append_singleton operations operation ih =>
      have sound := sound world id graph operations
      have recordedNow := recorded world id graph (operations ++ [operation])
      rw [after_append] at member recordedNow ⊢
      cases operation with
      | tick seconds =>
          rcases sound.hosted_cases (recorded world id graph operations) seconds _ member with
            ⟨started, _⟩ | ⟨before, earlier, rfl, _⟩
          · exact ⟨[], Run.told_of_isStart started
              (Run.recorded_of_mem_chain recordedNow (Run.mem_chain_iff.mpr (.inr member)))⟩
          · have within := Run.mem_chain_iff.mpr (.inr earlier)
            obtain ⟨departures, told⟩ := ih earlier
            exact ⟨_, (sound.of_mem_chain within).told_advance told seconds _
              (sound.own_of_mem_chain within seconds _)⟩
      | signal trigger =>
          have earlier : nested ∈ (after world id graph operations).run.hosted :=
            Run.hosted_signal trigger _ ▸ member
          obtain ⟨departures, told⟩ := ih earlier
          refine ⟨departures, told.history, ?_⟩
          have quiet := enteredNodes_signal trigger (after world id graph operations).run
            nested.level.id
          simp only [perform, Run.own_append, List.filterMap_append, quiet, List.append_nil,
            told.trail]
      | change become => exact ih member

/-- What a session reports to be entered by a run under way is the trail of that run's history. -/
theorem told_of_mem_chain (operations : List (Operation σ)) {nested : Run}
    (member : nested ∈ (after world id graph operations).run.chain) :
    ∃ departures, nested.level.Told σ (after world id graph operations).events departures := by
  rcases Run.mem_chain_iff.mp member with rfl | inside
  · exact ⟨_, told world id graph operations⟩
  · exact told_of_mem_hosted world id graph operations inside

/-- A hosted run that is over without a tick had no first node. -/
theorem startIndex?_of_mem_hosted (operations : List (Operation σ)) {nested : Run}
    (member : nested ∈ (after world id graph operations).run.hosted)
    (isOver : nested.isFinished = true) : nested.level.graph.startIndex? = none := by
  have noControl : nested.level.current = none := Option.isNone_iff_eq_none.mp isOver
  have begun : ∀ {world : Option σ}, nested.IsStart world →
      nested.level.graph.startIndex? = none := by
    intro world started
    have current := (congrArg Level.current started.level_eq).trans (Level.current_begin world _ _)
    exact current.symm.trans noControl
  induction operations using List.reverseRecOn with
  | nil =>
      exact begun (Run.isStart_of_mem_start world id graph nested
        (Run.mem_chain_iff.mpr (.inr member))).1
  | append_singleton operations operation ih =>
      have sound := sound world id graph operations
      rw [after_append] at member
      cases operation with
      | tick seconds =>
          rcases sound.hosted_cases (recorded world id graph operations) seconds _ member with
            ⟨started, _⟩ | ⟨_, _, _, running⟩
          · exact begun started
          · exact absurd (isOver.symm.trans running) nofun
      | signal trigger => exact ih (Run.hosted_signal trigger _ ▸ member)
      | change become => exact ih member

end Session

end SceneFlow
