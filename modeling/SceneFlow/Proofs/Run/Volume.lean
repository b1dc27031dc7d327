import SceneFlow.Proofs.Run.Pace

/-!
# How much a run reports

What a run reports in one step is counted for each depth. Starting a run takes two events at every
depth down to the deepest graph. A tick may end one run at each depth and start another, but the run
itself begins or ends no more than one visit, so it takes two events at the run's own depth and four
at any below.
-/

set_option autoImplicit false

namespace SceneFlow

namespace Run

variable {σ : Type} [World σ]

/-- The events come from depths between `base` and `reach` more than that, no more than `own` of
them from `base`, and no more than `deeper` from any depth below. -/
structure Volume (base reach own deeper : Nat) (events : List Event) : Prop where
  from_base : ∀ event ∈ events, base ≤ event.depth
  to_reach : ∀ event ∈ events, event.depth ≤ base + reach
  own : events.countP (·.depth = base) ≤ own
  deeper : ∀ depth, base < depth → events.countP (·.depth = depth) ≤ deeper

namespace Volume

variable {base reach own deeper : Nat} {events : List Event}

theorem nil : Volume base reach own deeper [] := by
  constructor <;> simp

theorem mono {reach' own' deeper' : Nat} (volume : Volume base reach own deeper events)
    (further : reach ≤ reach') (more : own ≤ own') (moreDeeper : deeper ≤ deeper') :
    Volume base reach' own' deeper' events := by
  obtain ⟨fromBase, toReach, atBase, below⟩ := volume
  constructor
  · exact fromBase
  · intro event member
    have := toReach event member
    omega
  · omega
  · intro depth lower
    have := below depth lower
    omega

theorem append {own' deeper' : Nat} {later : List Event}
    (volume : Volume base reach own deeper events)
    (volume' : Volume base reach own' deeper' later) :
    Volume base reach (own + own') (deeper + deeper') (events ++ later) := by
  constructor
  · intro event member
    rcases List.mem_append.mp member with before | after
    · exact volume.from_base event before
    · exact volume'.from_base event after
  · intro event member
    rcases List.mem_append.mp member with before | after
    · exact volume.to_reach event before
    · exact volume'.to_reach event after
  · rw [List.countP_append]
    exact Nat.add_le_add volume.own volume'.own
  · intro depth lower
    rw [List.countP_append]
    exact Nat.add_le_add (volume.deeper depth lower) (volume'.deeper depth lower)

/-- The reports of one level alone. -/
theorem of_level (reach : Nat) (mine : ∀ event ∈ events, event.depth = base) :
    Volume base reach events.length 0 events := by
  constructor
  · intro event member
    simp [mine event member]
  · intro event member
    simp [mine event member]
  · exact List.countP_le_length
  · intro depth lower
    have nowhere : events.countP (·.depth = depth) = 0 := by
      apply List.countP_eq_zero.mpr
      intro event member
      have := mine event member
      simp only [decide_eq_true_eq]
      omega
    omega

/-- The reports of a hosted run, seen from the level that hosts it. -/
theorem hosted (volume : Volume (base + 1) reach own deeper events) (most : own ≤ deeper) :
    Volume base (reach + 1) 0 deeper events := by
  constructor
  · intro event member
    have := volume.from_base event member
    omega
  · intro event member
    have := volume.to_reach event member
    omega
  · have nowhere : events.countP (·.depth = base) = 0 := by
      apply List.countP_eq_zero.mpr
      intro event member
      have := volume.from_base event member
      simp only [decide_eq_true_eq]
      omega
    omega
  · intro depth lower
    rcases Nat.lt_or_eq_of_le lower with below | rfl
    · exact volume.deeper depth below
    · exact Nat.le_trans volume.own most

theorem length_le (volume : Volume base reach own deeper events) :
    events.length ≤ own + reach * deeper := by
  induction reach generalizing events with
  | zero =>
      have all : events.countP (·.depth = base) = events.length := by
        apply List.countP_eq_length.mpr
        intro event member
        have := volume.from_base event member
        have := volume.to_reach event member
        simp only [decide_eq_true_eq]
        omega
      have := volume.own
      omega
  | succ reach ih =>
      -- The deepest events are counted apart, and the others lie within a smaller reach.
      have deepest := volume.deeper (base + (reach + 1)) (by omega)
      have others : Volume base reach own deeper
          (events.filter (·.depth ≠ base + (reach + 1))) := by
        constructor
        · intro event member
          exact volume.from_base event (List.mem_filter.mp member).1
        · intro event member
          obtain ⟨member, above⟩ := List.mem_filter.mp member
          have := volume.to_reach event member
          simp only [decide_eq_true_eq] at above
          omega
        · exact Nat.le_trans (List.filter_sublist.countP_le) volume.own
        · intro depth lower
          exact Nat.le_trans (List.filter_sublist.countP_le) (volume.deeper depth lower)
      have rest := ih others
      have parts := List.length_eq_countP_add_countP (fun event : Event =>
        decide (event.depth = base + (reach + 1))) (l := events)
      rw [← List.countP_eq_length_filter] at rest
      simp only [decide_not, Nat.succ_mul, ne_eq, Bool.not_eq_true, decide_eq_false_iff_not]
        at parts rest ⊢
      omega

end Volume

/-! ## Entering -/

theorem volume_enteredReport (world : Option σ) (index reach : Nat) (level : Level) :
    Volume level.id.depth reach 1 0 ((level.enter world index).enteredReport index) := by
  have mine : ∀ event ∈ (level.enter world index).enteredReport index,
      event.depth = level.id.depth := by
    intro event member
    rw [Event.depth, Level.run_of_mem_enteredReport member, Level.id_enter]
  exact (Volume.of_level reach mine).mono (Nat.le_refl _) (length_enteredReport_le _ _)
    (Nat.le_refl _)

mutual

theorem volume_start (world : Option σ) (id : RunId) (graph : Graph) :
    Volume id.depth graph.nesting 2 2 (start world id graph).2 := by
  match found : graph.startIndex? with
  | none =>
      rw [start_of_none found]
      have mine : ∀ event ∈ [(Level.ofGraph id graph).event (.runStarted graph.id),
          (Level.ofGraph id graph).finishedReport], event.depth = id.depth := by
        simp [Event.depth, Level.event, Level.finishedReport, Level.ofGraph]
      have told := Volume.of_level graph.nesting mine
      exact told.mono (Nat.le_refl _) (Nat.le_refl _) (Nat.zero_le _)
  | some index =>
      rw [start_of_some found]
      have mine : ∀ event ∈ [(Level.ofGraph id graph).event (.runStarted graph.id)],
          event.depth = id.depth := by
        simp [Event.depth, Level.event, Level.ofGraph]
      have entered := volume_enter world index (Level.ofGraph id graph)
      have told := Volume.of_level graph.nesting mine
      exact told.append entered
termination_by 2 * graph.nesting + 1
decreasing_by
  simp only [Level.ofGraph]
  omega

theorem volume_enter (world : Option σ) (index : Nat) (level : Level) :
    Volume level.id.depth level.graph.nesting 1 2 (enter world index level).2 := by
  have reported := volume_enteredReport world index level.graph.nesting level
  match hosted : level.graph.nestedAt? index with
  | none =>
      rw [enter_of_none hosted]
      exact reported.mono (Nat.le_refl _) (Nat.le_refl _) (Nat.zero_le _)
  | some graph =>
      have started := volume_start world (level.id.nested (level.enters + 1)) graph
      rw [RunId.depth_nested] at started
      have smaller := Graph.nesting_lt_of_nestedAt? hosted
      rw [enter_hosting hosted]
      have inside := (started.hosted (Nat.le_refl _)).mono smaller (Nat.le_refl _) (Nat.le_refl _)
      exact (inside.append reported).mono (Nat.le_refl _) (by omega) (by omega)
termination_by 2 * level.graph.nesting
decreasing_by
  have := Graph.nesting_lt_of_nestedAt? hosted
  omega

end

/-! ## Ticks -/

/-- The events are those of one step of a run: two at the run's own depth and four below, or two
below, too, if they end the run. -/
structure StepVolume (base reach : Nat) (after : Run) (events : List Event) : Prop where
  any : Volume base reach 2 4 events
  atEnd : after.isFinished = true → Volume base reach 2 2 events

theorem volume_exitedReport (index reach : Nat) (level : Level) :
    Volume level.id.depth reach 1 0 (level.exitedReport index) := by
  have mine : ∀ event ∈ level.exitedReport index, event.depth = level.id.depth := by
    intro event member
    rw [Event.depth, Level.run_of_mem_exitedReport member]
  have once : (level.exitedReport index).length ≤ 1 := by
    unfold Level.exitedReport
    split <;> simp
  exact (Volume.of_level reach mine).mono (Nat.le_refl _) once (Nat.le_refl _)

theorem volume_finish (reach : Nat) (level : Level) :
    Volume level.id.depth reach 1 0 (finish level).2 := by
  have mine : ∀ event ∈ (finish level).2, event.depth = level.id.depth := by
    intro event member
    simp only [finish, List.mem_singleton] at member
    rw [member]
    rfl
  exact Volume.of_level reach mine

/-- What comes next is one report of the level, and no more than that if the level ends. -/
theorem volume_arrive (world : Option σ) (level : Level) (destination : Destination) :
    Volume level.id.depth level.graph.nesting 1 2 (arrive world level destination).2 ∧
      ((arrive world level destination).1.isFinished = true →
        Volume level.id.depth level.graph.nesting 1 0 (arrive world level destination).2) := by
  cases destination with
  | successor next =>
      refine ⟨volume_enter world next level, fun isOver => ?_⟩
      cases (isFinished_enter world next level).symm.trans isOver
  | resumption next returns =>
      refine ⟨volume_enter world next { level with returns }, fun isOver => ?_⟩
      cases (isFinished_enter world next { level with returns }).symm.trans isOver
  | ending =>
      have ended := volume_finish level.graph.nesting { level with returns := .empty }
      exact ⟨ended.mono (Nat.le_refl _) (Nat.le_refl _) (Nat.zero_le _), fun _ => ended⟩
  | unresolved id =>
      have ended := volume_finish level.graph.nesting level
      exact ⟨ended.mono (Nat.le_refl _) (Nat.le_refl _) (Nat.zero_le _), fun _ => ended⟩

theorem volume_moveOn (world : Option σ) (index : Nat) (level : Level) :
    Volume level.id.depth level.graph.nesting 2 2 (moveOn world index level).2 ∧
      ((moveOn world index level).1.isFinished = true →
        Volume level.id.depth level.graph.nesting 2 0 (moveOn world index level).2) := by
  have exited := volume_exitedReport index level.graph.nesting (level.leave index)
  obtain ⟨arrived, atEnd⟩ :=
    volume_arrive world (level.leave index) ((level.leave index).destination index)
  rw [Level.id_leave] at exited
  rw [Level.id_leave, Level.graph_leave] at arrived atEnd
  rw [moveOn_eq]
  constructor
  · exact (exited.append arrived).mono (Nat.le_refl _) (Nat.le_refl _) (Nat.le_refl _)
  · intro isOver
    exact exited.append (atEnd isOver)

theorem Advances.volume {seconds : Float32} {world : Option σ} {run after : Run}
    {departure : Option Departure} {events : List Event}
    (step : Advances seconds world run departure after events) :
    StepVolume run.level.id.depth run.level.graph.nesting after events := by
  induction step with
  | idle | stay => exact ⟨.nil, fun _ => .nil⟩
  | @move level index =>
      obtain ⟨moved, atEnd⟩ := volume_moveOn world index (level.worked seconds world index)
      refine ⟨moved.mono (Nat.le_refl _) (Nat.le_refl _) (by decide), fun isOver => ?_⟩
      exact (atEnd isOver).mono (Nat.le_refl _) (Nat.le_refl _) (Nat.zero_le _)
  | @inside level inner after departure events index inst sound current found hosted identity step
      running ih =>
      obtain ⟨inside, _⟩ := ih
      rw [identity, RunId.depth_nested] at inside
      have smaller := Graph.nesting_lt_of_nestedAt? hosted
      have seen := (inside.hosted (by decide)).mono smaller (Nat.zero_le 2) (Nat.le_refl _)
      exact ⟨seen, fun isOver => absurd
        ((Level.isFinished_of_current current).symm.trans isOver) nofun⟩
  | @outside level inner after departure events index inst sound current found hosted identity step
      isOver ih =>
      -- The run inside has ended, so there is room for the start of another one.
      have inside := ih.atEnd isOver
      rw [identity, RunId.depth_nested] at inside
      have smaller := Graph.nesting_lt_of_nestedAt? hosted
      have seen := (inside.hosted (Nat.le_refl _)).mono smaller (Nat.le_refl _) (Nat.le_refl _)
      obtain ⟨moved, atEnd⟩ := volume_moveOn world index (level.worked seconds world index)
      refine ⟨(seen.append moved).mono (Nat.le_refl _) (by omega) (by omega), fun isOver => ?_⟩
      exact (seen.append (atEnd isOver)).mono (Nat.le_refl _) (by omega) (by omega)

end Run

end SceneFlow
