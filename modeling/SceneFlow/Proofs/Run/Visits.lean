import SceneFlow.Proofs.Graph.Expansion
import SceneFlow.Proofs.Run.Returns

/-!
# Visits

Every visit but the one that goes on has ended, so how often a node was entered can be told from how
often it was left. What a Sequence and a Loop keep from one visit to the next depends on nothing but
the number of visits: the first visit to a Sequence comes to the first step and each visit after
that to the next one, and a Loop counts its visits as far as it can.
-/

set_option autoImplicit false

namespace SceneFlow

namespace Activity

/-- The step that a Sequence has come to after some visits. -/
def stepAfter (steps : List String) : Nat → Option Nat
  | 0 => none
  | visits + 1 => if steps.isEmpty then none else some (min visits steps.length)

theorem stepOnEntry_stepAfter (steps : List String) (visits : Nat) :
    stepOnEntry steps (stepAfter steps visits) = stepAfter steps (visits + 1) := by
  cases steps with
  | nil => cases visits <;> rfl
  | cons step rest =>
      cases visits with
      | zero => rfl
      | succ visits =>
          simp only [stepOnEntry, stepAfter, List.isEmpty_cons, Bool.false_eq_true, if_false,
            Option.some.injEq]
          omega

theorem stepAfter_of_ne_nil {steps : List String} (withSteps : steps ≠ []) (visits : Nat) :
    stepAfter steps (visits + 1) = some (min visits steps.length) :=
  if_neg (mt List.isEmpty_iff.mp withSteps)

/-- Each visit comes to the step of its number. -/
theorem stepAfter_bind (steps : List String) (visits : Nat) :
    (stepAfter steps (visits + 1)).bind (steps[·]?) = steps[visits]? := by
  cases steps with
  | nil => rfl
  | cons first rest =>
      simp only [stepAfter, List.isEmpty_cons, Bool.false_eq_true, if_false, Option.bind_some]
      by_cases inRange : visits ≤ (first :: rest).length
      · rw [Nat.min_eq_left inRange]
      · have beyond := Nat.le_of_not_le inRange
        rw [Nat.min_eq_right beyond, List.getElem?_eq_none_iff.mpr beyond,
          List.getElem?_eq_none_iff.mpr (Nat.le_refl _)]

/-- What the activity remembers is what some visits leave of it. -/
def Follows (visits : Nat) : Activity → Prop
  | .branch conditions _ chosen => ∀ option, chosen = some option → option < conditions.length
  | .sequence steps step => step = stepAfter steps visits
  | .loop _ limit iteration finished =>
      iteration.toNat = min visits (UInt32.size - 1) ∧
        finished = (decide (0 < limit) && decide (limit < iteration))
  | _ => True

theorem follows_ofKind (kind : NodeKind Graph) : (ofKind kind).Follows 0 := by
  cases kind with
  | branch => exact nofun
  | loop body limit => exact ⟨rfl, by simp⟩
  | sequence => rfl
  | _ => exact trivial

theorem Follows.work {visits : Nat} {activity : Activity} (follows : activity.Follows visits)
    {σ : Type} [World σ] (seconds : Float32) (world : Option σ) :
    (activity.work seconds world).1.Follows visits := by
  cases activity with
  | dialogue name waits started => cases name <;> cases world <;> exact trivial
  | _ => exact follows

theorem Follows.signalled {visits : Nat} {activity : Activity}
    (follows : activity.Follows visits) : activity.signalled.Follows visits := by
  cases activity <;> exact follows

theorem toNat_nextIteration {visits : Nat} {iteration : UInt32}
    (counted : iteration.toNat = min visits (UInt32.size - 1)) :
    (nextIteration iteration).toNat = min (visits + 1) (UInt32.size - 1) := by
  have size : UInt32.size = 2 ^ 32 := rfl
  have last : (UInt32.ofNat (UInt32.size - 1)).toNat = UInt32.size - 1 := rfl
  unfold nextIteration
  split
  next same =>
    rw [same, last] at counted
    rw [same, last]
    omega
  next different =>
    have below : iteration.toNat ≠ UInt32.size - 1 := fun same =>
      different (UInt32.toNat_inj.mp (same.trans last.symm))
    rw [UInt32.toNat_add]
    change (iteration.toNat + 1) % 2 ^ 32 = _
    omega

theorem lt_of_chosenOption {σ : Type} [World σ] {world : σ} {conditions targets : List String}
    {option : Nat} (found : chosenOption world conditions targets = some option) :
    option < conditions.length := by
  obtain ⟨inRange, _⟩ := List.findIdx?_eq_some_iff_getElem.mp found
  exact List.lt_length_left_of_zip inRange

theorem Follows.enter {visits : Nat} {activity : Activity} (follows : activity.Follows visits)
    {σ : Type} [World σ] (world : Option σ) : (activity.enter world).Follows (visits + 1) := by
  cases activity with
  | branch conditions targets chosen =>
      intro option taken
      obtain ⟨world, _, found⟩ := Option.bind_eq_some_iff.mp taken
      exact lt_of_chosenOption found
  | sequence steps step =>
      change stepOnEntry steps step = stepAfter steps (visits + 1)
      rw [show step = stepAfter steps visits from follows, stepOnEntry_stepAfter]
  | loop body limit iteration finished => exact ⟨toNat_nextIteration follows.1, rfl⟩
  | _ => exact trivial

theorem Follows.eq_sequence {activity : Activity} {visits : Nat} {steps : List String}
    (follows : activity.Follows visits) (kind : activity.kind = .sequence steps) :
    activity = .sequence steps (stepAfter steps visits) := by
  cases activity with
  | sequence ownSteps step =>
      cases kind
      exact congrArg _ follows
  | _ => cases kind

/-- A Sequence has a step to run after each of its first visits, one for every step. -/
theorem Follows.hasStep_iff {activity : Activity} {visits : Nat}
    (follows : activity.Follows visits) :
    activity.hasStep = true ↔ 0 < visits ∧ visits ≤ activity.kind.steps.length := by
  cases activity with
  | sequence steps step =>
      change step = stepAfter steps visits at follows
      subst follows
      cases visits with
      | zero => simp [hasStep, stepAfter]
      | succ visits =>
          cases steps with
          | nil => simp [hasStep, stepAfter, kind, NodeKind.steps]
          | cons step rest =>
              simp only [hasStep, stepAfter, kind, NodeKind.steps, List.isEmpty_cons,
                Bool.false_eq_true, if_false, decide_eq_true_eq, List.length_cons]
              omega
  | _ =>
      simp only [hasStep, kind, NodeKind.steps, List.length_nil, Bool.false_eq_true, false_iff]
      omega

end Activity

/-- A Sequence goes to the step with the number of the visit, and nowhere without one. -/
theorem Instance.successor?_of_sequence {inst : Instance} {steps : List String} {visits : Nat}
    (kind : inst.activity.kind = .sequence steps) (follows : inst.activity.Follows (visits + 1)) :
    inst.successor? = nonEmpty? steps[visits]? := by
  rw [successor?, follows.eq_sequence kind, ← Activity.stepAfter_bind]
  simp [Activity.target?, Activity.fallsThrough]

/-- How often a node was left. -/
def timesLeft (departures : List Departure) (index : Nat) : Nat :=
  departures.countP (·.index = index)

/-- How often a node was entered. -/
def Graph.visits (graph : Graph) (departures : List Departure) (index : Nat) : Nat :=
  (graph.trail departures).count index

theorem timesLeft_append_singleton (departures : List Departure) (departure : Departure)
    (index : Nat) :
    timesLeft (departures ++ [departure]) index =
      timesLeft departures index + if departure.index = index then 1 else 0 := by
  simp only [timesLeft, List.countP_append, List.countP_singleton, decide_eq_true_eq]

theorem timesLeft_le_append (departures : List Departure) (departure : Departure) (index : Nat) :
    timesLeft departures index ≤ timesLeft (departures ++ [departure]) index := by
  rw [timesLeft_append_singleton]
  exact Nat.le_add_right _ _

theorem Graph.trail_append_singleton (graph : Graph) (departures : List Departure)
    (departure : Departure) :
    graph.trail (departures ++ [departure]) =
      graph.trail departures ++ departure.destination.entered?.toList := by
  rw [Session.trail_append, List.filterMap_cons]
  cases departure.destination.entered? <;> rfl

theorem count_toList (chosen : Option Nat) (index : Nat) :
    chosen.toList.count index = if chosen = some index then 1 else 0 := by
  cases chosen with
  | none => rfl
  | some other =>
      rw [Option.toList_some, List.count_singleton]
      simp

theorem Graph.visits_append_singleton (graph : Graph) (departures : List Departure)
    (departure : Departure) (index : Nat) :
    graph.visits (departures ++ [departure]) index =
      graph.visits departures index +
        if departure.destination.entered? = some index then 1 else 0 := by
  rw [visits, visits, trail_append_singleton, List.count_append, count_toList]

namespace Level

variable {σ : Type} [World σ]

/-- What every node remembers follows from how often it was entered. -/
def Follows (visits : Nat → Nat) (level : Level) : Prop :=
  ∀ (index : Nat) (inst : Instance), level.instances[index]? = some inst →
    inst.activity.Follows (visits index)

section Follows

variable {level : Level} {visits : Nat → Nat}

private theorem Follows.of_changes {after : Level} {later : Nat → Nat}
    (follows : level.Follows visits) (change : Nat → Instance → Instance)
    (equation : ∀ index : Nat,
      after.instances[index]? = level.instances[index]?.map (change index))
    (keeps : ∀ index inst, inst.activity.Follows (visits index) →
      (change index inst).activity.Follows (later index)) :
    after.Follows later := by
  intro index inst found
  rw [equation, Option.map_eq_some_iff] at found
  obtain ⟨before, foundBefore, rfl⟩ := found
  exact keeps index before (follows index before foundBefore)

theorem Follows.worked (follows : level.Follows visits) (seconds : Float32)
    (world : Option σ) (index : Nat) : (level.worked seconds world index).Follows visits := by
  refine follows.of_changes _ (fun other => getElem?_worked seconds world index other level) ?_
  intro other inst kept
  split
  · exact kept.work seconds world
  · exact kept

theorem Follows.left (follows : level.Follows visits) (seconds : Float32)
    (world : Option σ) (index : Nat) : (level.left seconds world index).Follows visits := by
  unfold Level.left Follows
  rw [instances_leave]
  exact follows.worked seconds world index

theorem Follows.signal (follows : level.Follows visits) (trigger : String) :
    (level.signal trigger).1.Follows visits := by
  refine follows.of_changes _ (fun other => getElem?_signal trigger other level) ?_
  intro other inst kept
  split
  · exact kept.signalled
  · exact kept

theorem Follows.enter (follows : level.Follows visits) (world : Option σ) (next : Nat) :
    (level.enter world next).Follows
      fun index => visits index + if some next = some index then 1 else 0 := by
  refine follows.of_changes _ (fun other => getElem?_enter world next other level) ?_
  intro other inst kept
  by_cases same : next = other
  · rw [if_pos same, if_pos (congrArg some same)]
    exact kept.enter world
  · rw [if_neg same, if_neg (fun equal => same (Option.some.inj equal)), Nat.add_zero]
    exact kept

theorem Follows.follow (follows : level.Follows visits) (world : Option σ)
    (destination : Destination) :
    (level.follow world destination).Follows
      fun index => visits index + if destination.entered? = some index then 1 else 0 := by
  cases destination with
  | successor next => exact follows.enter world next
  | resumption next returns =>
      have kept : ({ level with returns } : Level).Follows visits := follows
      exact kept.enter world next
  | ending => exact follows
  | unresolved id => exact follows

theorem follows_ofGraph (id : RunId) (graph : Graph) : (ofGraph id graph).Follows fun _ => 0 := by
  intro index inst found
  simp only [ofGraph, List.getElem?_map, Option.map_eq_some_iff] at found
  obtain ⟨node, _, rfl⟩ := found
  exact Activity.follows_ofKind node.kind

end Follows

section History

variable {id : RunId} {graph : Graph} {departures : List Departure} {level : Level}

theorem current_begin (world : Option σ) (id : RunId) (graph : Graph) :
    (begin world id graph).current = graph.startIndex? := by
  unfold begin
  split
  next missing => exact missing.symm
  next index found => exact (current_enter world index _).trans found.symm

theorem History.visits_eq (history : History σ id graph departures level) (index : Nat) :
    graph.visits departures index =
      timesLeft departures index + if level.current = some index then 1 else 0 := by
  induction history with
  | begin world =>
      rw [current_begin, Graph.visits, Graph.trail, List.filterMap_nil, List.append_nil,
        count_toList, timesLeft, List.countP_nil, Nat.zero_add]
  | tick before step ih =>
      cases step with
      | idle => simpa using ih
      | stay =>
          rw [Option.toList_none, List.append_nil]
          exact ih
      | @move seconds other inst current found done =>
          rw [Option.toList_some, Graph.visits_append_singleton, timesLeft_append_singleton,
            current_follow, ih, current]
          simp only [Option.some.injEq]
          rfl
  | signal trigger _ ih => rw [current_signal, ih]

/-- Every visit is counted. -/
theorem History.enters_eq (history : History σ id graph departures level) :
    level.enters = (graph.trail departures).length := by
  induction history with
  | begin world =>
      unfold Level.begin
      split
      next missing => simp [Graph.trail, missing, ofGraph]
      next index found => simp [Graph.trail, found, ofGraph]
  | tick before step ih =>
      cases step with
      | idle => simpa using ih
      | stay =>
          rw [Option.toList_none, List.append_nil]
          exact ih
      | @move seconds other inst current found done =>
          rw [Option.toList_some, Graph.trail_append_singleton, List.length_append, ← ih,
            enters_follow, left, enters_leave]
          rfl
  | signal trigger _ ih => rw [enters_signal, ih]

theorem History.follows (history : History σ id graph departures level) :
    level.Follows (graph.visits departures) := by
  induction history with
  | begin world =>
      have fresh := follows_ofGraph id graph
      unfold Level.begin
      split
      next missing =>
        have never : graph.visits [] = fun _ => 0 := by
          funext index
          simp [Graph.visits, Graph.trail, missing]
        rw [never]
        exact fresh
      next index found =>
        have once : graph.visits [] =
            fun other => 0 + if some index = some other then 1 else 0 := by
          funext other
          rw [Graph.visits, Graph.trail, List.filterMap_nil, List.append_nil, found, count_toList,
            Nat.zero_add]
        rw [once]
        exact fresh.enter world index
  | tick before step ih =>
      cases step with
      | idle => simpa using ih
      | stay =>
          rw [Option.toList_none, List.append_nil]
          exact ih.worked _ _ _
      | @move seconds other inst current found done =>
          rw [Option.toList_some, funext (Graph.visits_append_singleton graph _ _)]
          exact (ih.left seconds _ other).follow _ _
  | signal trigger _ ih => exact ih.signal trigger

/-- A node has a step to run after each of its first visits, one for every step it has. -/
theorem History.hasStepAt_iff (history : History σ id graph departures level) {index : Nat}
    {node : Node Graph} (atIndex : graph.named[index]? = some node) :
    level.HasStepAt index ↔ 0 < graph.visits departures index ∧
      graph.visits departures index ≤ node.kind.steps.length := by
  rw [← history.graph_eq] at atIndex
  obtain ⟨inst, found, rfl⟩ := history.sound.instance_of_named atIndex
  rw [Level.hasStepAt_iff found, (history.follows index inst found).hasStep_iff]
  rfl

theorem timesLeft_append_departure (departures : List Departure) (seconds : Float32)
    (world : Option σ) (index : Nat) (level : Level) :
    timesLeft (departures ++ [level.departure seconds world index]) index =
      timesLeft departures index + 1 := by
  rw [timesLeft_append_singleton, departure, if_pos rfl]

theorem History.graph_left (history : History σ id graph departures level) (seconds : Float32)
    (world : Option σ) (index : Nat) : (level.left seconds world index).graph = graph :=
  (Level.graph_left seconds world index level).trans history.graph_eq

/-- Only nodes that ids stand for are ever entered. -/
theorem History.isWinner_of_mem_trail (history : History σ id graph departures level)
    {index : Nat} (entered : index ∈ graph.trail departures) : graph.IsWinner index := by
  induction history with
  | begin world =>
      rw [Graph.trail, List.filterMap_nil, List.append_nil, Option.mem_toList] at entered
      exact Graph.isWinner_of_startIndex? entered
  | @tick world departures level after departure before step ih =>
      cases step with
      | idle | stay =>
          rw [Option.toList_none, List.append_nil] at entered
          exact ih entered
      | @move seconds other inst current =>
          rw [Option.toList_some, Graph.trail_append_singleton] at entered
          rcases List.mem_append.mp entered with earlier | last
          · exact ih earlier
          · have wins := (before.sound.left current seconds world).isWinner_of_entered
              (Option.mem_toList.mp last)
            rwa [before.graph_left] at wins
  | signal trigger _ ih => exact ih entered

theorem History.visits_of_current (history : History σ id graph departures level) {index : Nat}
    (current : level.current = some index) :
    graph.visits departures index = timesLeft departures index + 1 := by
  rw [history.visits_eq, if_pos current]

/-- What a node that ends its visit has come to, and what it leaves on the stack. -/
theorem History.exists_left (history : History σ id graph departures level) {index : Nat}
    (current : level.current = some index) (seconds : Float32) (world : Option σ) :
    ∃ inst, (level.left seconds world index).instances[index]? = some inst ∧
      graph.named[index]? = some inst.node ∧
      inst.activity.Follows (timesLeft departures index + 1) ∧
      (level.left seconds world index).returns.entries =
        if inst.activity.hasStep then index :: level.returns.entries
        else level.returns.entries := by
  have sound := history.sound.worked seconds world index
  obtain ⟨inst, found⟩ := sound.instance_of_current current
  have atIndex := sound.named_of_instance found
  have follows := history.follows.worked seconds world index index inst found
  rw [history.visits_of_current current] at follows
  refine ⟨inst, ?_, ?_, follows, ?_⟩
  · rw [left, instances_leave, found]
  · rw [← history.graph_eq]
    exact atIndex
  · rw [left, returns_leave found, entries_returnsOnExit]
    rfl

end History

end Level

end SceneFlow
