import SceneFlow.Proofs.Run.Step
import SceneFlow.Run.Basic

/-!
# Levels of a nested run

A tick of a run is a step of `Run.Advances`. It does to each level that it reaches what
`Level.TickStep` says, and what the level reports depends on that step alone. The runs nested in it
report under identities of their own.
-/

set_option autoImplicit false

namespace SceneFlow

/-! ## Identities -/

/-- The identity is that of a run or of one nested in it. -/
def RunId.IsWithin (inner outer : RunId) : Prop :=
  inner.root = outer.root ∧ outer.visits <+: inner.visits

namespace RunId

theorem IsWithin.refl (id : RunId) : id.IsWithin id :=
  ⟨rfl, List.prefix_rfl⟩

theorem IsWithin.of_nested {inner outer : RunId} {visit : Nat}
    (within : inner.IsWithin (outer.nested visit)) : inner.IsWithin outer :=
  ⟨within.1, (List.prefix_append _ _).trans within.2⟩

theorem IsWithin.ne_of_nested {inner outer : RunId} {visit : Nat}
    (within : inner.IsWithin (outer.nested visit)) : inner ≠ outer := by
  intro same
  have longer := within.2.length_le
  simp only [same, nested, List.length_append, List.length_singleton] at longer
  omega

theorem IsWithin.trans {innermost inner outer : RunId} (within : innermost.IsWithin inner)
    (around : inner.IsWithin outer) : innermost.IsWithin outer :=
  ⟨within.1.trans around.1, around.2.trans within.2⟩

theorem isWithin_nested (id : RunId) (visit : Nat) : (id.nested visit).IsWithin id :=
  (IsWithin.refl _).of_nested

/-- Runs that different visits host have nothing in common. -/
theorem IsWithin.eq_of_nested {inner outer : RunId} {visit other : Nat}
    (within : inner.IsWithin (outer.nested visit)) (same : inner.IsWithin (outer.nested other)) :
    visit = other := by
  obtain ⟨rest, whole⟩ := within.2
  obtain ⟨rest', whole'⟩ := same.2
  simp only [nested, List.append_assoc] at whole whole'
  rw [← whole', List.append_cancel_left_eq] at whole
  exact (List.cons.inj whole).1

theorem IsWithin.eq_or_nested {inner outer : RunId} (within : inner.IsWithin outer) :
    inner = outer ∨ ∃ visit, inner.IsWithin (outer.nested visit) := by
  obtain ⟨sameRoot, rest, whole⟩ := within
  cases rest with
  | nil =>
      rw [List.append_nil] at whole
      rcases inner with ⟨root, visits⟩
      rcases outer with ⟨root', visits'⟩
      cases sameRoot
      cases whole
      exact .inl rfl
  | cons visit rest =>
      refine .inr ⟨visit, sameRoot, rest, ?_⟩
      simpa [nested] using whole

end RunId

namespace Level

variable {σ : Type} [World σ]

/-- What a level reports when control goes on from a node that was left. -/
def arrivalReport (world : Option σ) (level : Level) : Destination → List Event
  | .successor next => (level.enter world next).enteredReport next
  | .resumption next returns =>
      (({ level with returns } : Level).enter world next).enteredReport next
  | .ending => [level.finishedReport]
  | .unresolved _ => [level.finishedReport]

/-- What a level reports when the work of a tick ends a visit. -/
def departureReport (seconds : Float32) (world : Option σ) (index : Nat) (level : Level) :
    List Event :=
  let left := level.left seconds world index
  left.exitedReport index ++ left.arrivalReport world (left.destination index)

theorem eq_of_mem_enteredReport {level : Level} {index : Nat} {event : Event}
    (member : event ∈ level.enteredReport index) :
    ∃ inst : Instance, event = level.event (.nodeEntered inst.id inst.type level.ticks) := by
  unfold enteredReport at member
  split at member
  · cases member
  next inst found => exact ⟨inst, List.mem_singleton.mp member⟩

theorem eq_of_mem_exitedReport {level : Level} {index : Nat} {event : Event}
    (member : event ∈ level.exitedReport index) :
    ∃ inst : Instance, event = level.event (.nodeExited inst.id inst.type level.ticks) := by
  unfold exitedReport at member
  split at member
  · cases member
  next inst found => exact ⟨inst, List.mem_singleton.mp member⟩

theorem run_of_mem_enteredReport {level : Level} {index : Nat} {event : Event}
    (member : event ∈ level.enteredReport index) : event.run = level.id := by
  obtain ⟨inst, rfl⟩ := eq_of_mem_enteredReport member
  rfl

theorem run_of_mem_exitedReport {level : Level} {index : Nat} {event : Event}
    (member : event ∈ level.exitedReport index) : event.run = level.id := by
  obtain ⟨inst, rfl⟩ := eq_of_mem_exitedReport member
  rfl

/-- What a node reports when its visit ends does not depend on the work of the last tick. -/
theorem exitedReport_left {level : Level} {index : Nat} {inst : Instance}
    (found : level.instances[index]? = some inst) (seconds : Float32) (world : Option σ) :
    (level.left seconds world index).exitedReport index =
      [level.event (.nodeExited inst.id inst.type (level.ticks + 1))] := by
  have worked := getElem?_worked seconds world index index level
  rw [found, Option.map_some] at worked
  simp only [exitedReport, left, instances_leave, worked, event, id_leave, ticks_leave,
    Instance.changed, Instance.type, ↓reduceIte, Activity.kind_work]
  rfl

theorem worked_eq_withActivity {level : Level} {index : Nat} {inst : Instance}
    (found : level.instances[index]? = some inst) (seconds : Float32) (world : Option σ) :
    ({ level with ticks := level.ticks + 1 } : Level).withActivity index
      (inst.activity.work seconds world).1 = level.worked seconds world index := by
  simp only [withActivity, worked]
  congr 1
  apply List.ext_getElem?
  intro other
  by_cases same : index = other
  · subst same
    simp [found, Instance.changed]
  · simp [same]

/-- A node that hosts a run has no work of its own. -/
theorem Sound.worked_eq_of_nested {level : Level} (sound : level.Sound) {index : Nat}
    {graph : Graph} (hosted : level.graph.nestedAt? index = some graph) (seconds : Float32)
    (world : Option σ) :
    level.worked seconds world index = { level with ticks := level.ticks + 1 } := by
  obtain ⟨node, atIndex, nested⟩ := Option.bind_eq_some_iff.mp hosted
  obtain ⟨inst, found, rfl⟩ := sound.instance_of_named atIndex
  have idle : (inst.activity.work seconds world).1 = inst.activity := by
    cases given : inst.activity <;> simp [Instance.node, Activity.kind, NodeKind.nested?, given,
      Activity.work] at nested ⊢
  rw [← worked_eq_withActivity found, idle]
  simp only [withActivity]
  congr 1
  apply List.ext_getElem?
  intro other
  by_cases same : index = other
  · subst same
    simp [found]
  · simp [same]

theorem Sound.done_of_nested {level : Level} (sound : level.Sound) {index : Nat}
    {graph : Graph} (hosted : level.graph.nestedAt? index = some graph) {inst : Instance}
    (found : level.instances[index]? = some inst) (seconds : Float32) (world : Option σ) :
    (inst.activity.work seconds world).2 = true := by
  obtain ⟨node, atIndex, nested⟩ := Option.bind_eq_some_iff.mp hosted
  have same : inst.node = node :=
    Option.some.inj ((sound.named_of_instance found).symm.trans atIndex)
  subst same
  cases given : inst.activity <;> simp [Instance.node, Activity.kind, NodeKind.nested?, given,
    Activity.work] at nested ⊢

end Level

namespace Run

variable {σ : Type} [World σ]

/-- The visit of the outermost level that a tick ends. -/
def departure? (seconds : Float32) (world : Option σ) : Run → Option Departure
  | .alone level => do
      let index ← level.current
      let inst ← level.instances[index]?
      if (inst.activity.work seconds world).2 then some (level.departure seconds world index)
      else none
  | .hosting level inner => do
      let index ← level.current
      if (inner.advance seconds world).1.isFinished then
        some (level.departure seconds world index)
      else none

/-- A run and the runs nested in it, from the outside inwards. -/
def chain : Run → List Run
  | .alone level => [.alone level]
  | .hosting level inner => .hosting level inner :: inner.chain

/-- Exactly the levels whose node is a SubFlow node with a graph host a run, and it is a run of that
graph. -/
inductive Sound : Run → Prop where
  | alone {level : Level} (sound : level.Sound)
      (free : ∀ index, level.current = some index → level.graph.nestedAt? index = none) :
      Sound (.alone level)
  | hosting {level : Level} {inner : Run} {index : Nat} (sound : level.Sound)
      (current : level.current = some index)
      (hosted : level.graph.nestedAt? index = some inner.level.graph)
      (identity : inner.level.id = level.id.nested level.enters) (within : inner.Sound) :
      Sound (.hosting level inner)

theorem Sound.level {run : Run} (sound : run.Sound) : run.level.Sound := by
  cases sound with
  | alone sound => exact sound
  | hosting sound => exact sound

/-! ## Entering -/

theorem enter_of_none {level : Level} {index : Nat} (free : level.graph.nestedAt? index = none)
    (world : Option σ) :
    enter world index level =
      (.alone (level.enter world index), (level.enter world index).enteredReport index) := by
  rw [enter]
  split
  · rfl
  next graph hosted =>
    rw [free] at hosted
    cases hosted

theorem enter_of_some {level : Level} {index : Nat} {graph : Graph}
    (hosted : level.graph.nestedAt? index = some graph) (world : Option σ) :
    enter world index level =
      let entered := level.enter world index
      let (inner, events) := start world (entered.id.nested entered.enters) graph
      (.hosting entered inner, events ++ entered.enteredReport index) := by
  rw [enter]
  split
  next free =>
    rw [free] at hosted
    cases hosted
  next other found =>
    rw [hosted, Option.some.injEq] at found
    subst found
    rfl

theorem enter_hosting {level : Level} {index : Nat} {graph : Graph}
    (hosted : level.graph.nestedAt? index = some graph) (world : Option σ) :
    enter world index level =
      (.hosting (level.enter world index)
          (start world (level.id.nested (level.enters + 1)) graph).1,
        (start world (level.id.nested (level.enters + 1)) graph).2 ++
          (level.enter world index).enteredReport index) := by
  rw [enter_of_some hosted]
  simp only [Level.id_enter, Level.enters_enter]

theorem start_of_none {graph : Graph} (missing : graph.startIndex? = none) (world : Option σ)
    (id : RunId) :
    start world id graph =
      (.alone (Level.ofGraph id graph),
        [(Level.ofGraph id graph).event (.runStarted graph.id),
          (Level.ofGraph id graph).finishedReport]) := by
  rw [start]
  split
  · rfl
  next index found =>
    rw [missing] at found
    cases found

theorem start_of_some {graph : Graph} {index : Nat} (found : graph.startIndex? = some index)
    (world : Option σ) (id : RunId) :
    start world id graph =
      let (run, events) := enter world index (Level.ofGraph id graph)
      (run, (Level.ofGraph id graph).event (.runStarted graph.id) :: events) := by
  rw [start]
  split
  next missing =>
    rw [missing] at found
    cases found
  next other same =>
    rw [found, Option.some.injEq] at same
    subst same
    rfl

theorem level_enter (world : Option σ) (index : Nat) (level : Level) :
    (enter world index level).1.level = level.enter world index := by
  cases hosted : level.graph.nestedAt? index with
  | none =>
      rw [enter_of_none hosted]
      rfl
  | some graph =>
      rw [enter_of_some hosted]
      rfl

theorem level_start (world : Option σ) (id : RunId) (graph : Graph) :
    (start world id graph).1.level = Level.begin world id graph := by
  unfold Level.begin
  cases found : graph.startIndex? with
  | none =>
      rw [start_of_none found]
      rfl
  | some index =>
      rw [start_of_some found]
      exact level_enter world index (Level.ofGraph id graph)

mutual

theorem sound_start (world : Option σ) (id : RunId) (graph : Graph) :
    (start world id graph).1.Sound := by
  match found : graph.startIndex? with
  | none =>
      rw [start_of_none found]
      exact .alone (Level.sound_ofGraph id graph) (by simp [Level.ofGraph])
  | some index =>
      rw [start_of_some found]
      have wins : (Level.ofGraph id graph).graph.IsWinner index :=
        Graph.isWinner_of_startIndex? found
      exact sound_enter world index (Level.ofGraph id graph) (Level.sound_ofGraph id graph) wins
termination_by 2 * graph.nesting + 1
decreasing_by
  simp only [Level.ofGraph]
  omega

theorem sound_enter (world : Option σ) (index : Nat) (level : Level) (sound : level.Sound)
    (wins : level.graph.IsWinner index) : (enter world index level).1.Sound := by
  match hosted : level.graph.nestedAt? index with
  | none =>
      rw [enter_of_none hosted]
      refine .alone (sound.enter wins world) ?_
      intro other current
      rw [Level.current_enter, Option.some.injEq] at current
      rw [Level.graph_enter, ← current, hosted]
  | some graph =>
      rw [enter_of_some hosted]
      have begun : (start world _ graph).1.level = _ :=
        level_start world ((level.enter world index).id.nested (level.enter world index).enters)
          graph
      refine .hosting (sound.enter wins world) (Level.current_enter _ _ _) ?_ ?_
        (sound_start world _ graph)
      · rw [begun, Level.graph_begin, Level.graph_enter, hosted]
      · rw [begun, Level.id_begin]
termination_by 2 * level.graph.nesting
decreasing_by
  have := Graph.nesting_lt_of_nestedAt? hosted
  omega

end

mutual

theorem isWithin_of_mem_start (world : Option σ) (id : RunId) (graph : Graph) (event : Event)
    (member : event ∈ (start world id graph).2) : event.run.IsWithin id := by
  match found : graph.startIndex? with
  | none =>
      rw [start_of_none found] at member
      rcases List.mem_cons.mp member with rfl | member
      · exact .refl id
      · rw [List.mem_singleton.mp member]
        exact .refl id
  | some index =>
      rw [start_of_some found] at member
      rcases List.mem_cons.mp member with rfl | member
      · exact .refl id
      · exact isWithin_of_mem_enter world index (Level.ofGraph id graph) event member
termination_by 2 * graph.nesting + 1
decreasing_by
  simp only [Level.ofGraph]
  omega

theorem isWithin_of_mem_enter (world : Option σ) (index : Nat) (level : Level) (event : Event)
    (member : event ∈ (enter world index level).2) : event.run.IsWithin level.id := by
  have own : event ∈ (level.enter world index).enteredReport index →
      event.run.IsWithin level.id := by
    intro reported
    rw [Level.run_of_mem_enteredReport reported, Level.id_enter]
    exact .refl _
  match hosted : level.graph.nestedAt? index with
  | none =>
      rw [enter_of_none hosted] at member
      exact own member
  | some graph =>
      rw [enter_of_some hosted] at member
      rcases List.mem_append.mp member with nested | reported
      · have within := isWithin_of_mem_start world _ graph event nested
        rw [Level.id_enter] at within
        exact within.of_nested
      · exact own reported
termination_by 2 * level.graph.nesting
decreasing_by
  have := Graph.nesting_lt_of_nestedAt? hosted
  omega

end

/-! ## Ticks -/

/-- The run and its reports once control went on from a node that was left. -/
def arrive (world : Option σ) (level : Level) : Destination → Run × List Event
  | .successor next => enter world next level
  | .resumption next returns => enter world next { level with returns }
  | .ending => finish { level with returns := .empty }
  | .unresolved _ => finish level

theorem moveOn_eq (world : Option σ) (index : Nat) (level : Level) :
    moveOn world index level =
      let left := level.leave index
      let (run, events) := arrive world left (left.destination index)
      (run, left.exitedReport index ++ events) := by
  unfold moveOn arrive
  cases (level.leave index).destination index <;> rfl

theorem events_moveOn (world : Option σ) (index : Nat) (level : Level) :
    (moveOn world index level).2 =
      (level.leave index).exitedReport index ++
        (arrive world (level.leave index) ((level.leave index).destination index)).2 := by
  rw [moveOn_eq]

theorem level_arrive (world : Option σ) (level : Level) (destination : Destination) :
    (arrive world level destination).1.level = level.follow world destination := by
  cases destination with
  | successor next => exact level_enter world next level
  | resumption next returns => exact level_enter world next { level with returns }
  | ending => rfl
  | unresolved id => rfl

theorem level_moveOn (world : Option σ) (index : Nat) (level : Level) :
    (moveOn world index level).1.level =
      (level.leave index).follow world ((level.leave index).destination index) := by
  rw [moveOn_eq]
  exact level_arrive world _ _

theorem sound_finish {level : Level} (sound : level.Sound) : (finish level).1.Sound := by
  refine .alone sound.finish ?_
  intro index current
  cases current

theorem sound_arrive {level : Level} (sound : level.Sound) (index : Nat) (world : Option σ) :
    (arrive world level (level.destination index)).1.Sound := by
  have wins : ∀ next, (level.destination index).entered? = some next →
      level.graph.IsWinner next := fun _ goes => sound.isWinner_of_entered goes
  cases goes : level.destination index with
  | successor next => exact sound_enter world next level sound (wins next (by rw [goes]; rfl))
  | resumption next returns =>
      exact sound_enter world next _ (sound.withReturns (sound.returns_subset_of_resumption goes))
        (wins next (by rw [goes]; rfl))
  | ending => exact sound_finish (sound.withReturns (List.nil_subset _))
  | unresolved id => exact sound_finish sound

theorem sound_moveOn {level : Level} (sound : level.Sound) {index : Nat}
    (current : level.current = some index) (world : Option σ) :
    (moveOn world index level).1.Sound := by
  rw [moveOn_eq]
  exact sound_arrive (sound.leave (sound.current index current)) index world

/-- Moving on begins the next visit of the level, or ends the level. -/
theorem moveOn_enters_or_ends {level : Level} {index : Nat} (sound : level.Sound)
    (current : level.current = some index) (world : Option σ) :
    (∃ next left, left.Sound ∧ left.graph.IsWinner next ∧ left.id = level.id ∧
      left.enters = level.enters ∧ (moveOn world index level).1 = (enter world next left).1) ∨
    ∃ last : Level, last.current = none ∧ (moveOn world index level).1 = .alone last := by
  have left := sound.leave (sound.current index current)
  have wins : ∀ next, ((level.leave index).destination index).entered? = some next →
      (level.leave index).graph.IsWinner next := fun _ goes => left.isWinner_of_entered goes
  rw [moveOn_eq]
  dsimp only
  cases goes : (level.leave index).destination index with
  | successor next =>
      exact .inl ⟨next, _, left, wins next (by rw [goes]; rfl), Level.id_leave index level,
        Level.enters_leave index level, rfl⟩
  | resumption next returns =>
      have popped := left.withReturns (left.returns_subset_of_resumption goes)
      exact .inl ⟨next, _, popped, wins next (by rw [goes]; rfl), Level.id_leave index level,
        Level.enters_leave index level, rfl⟩
  | ending | unresolved => exact .inr ⟨_, rfl, rfl⟩

theorem advance_of_current_none {run : Run} (isOver : run.level.current = none)
    (seconds : Float32) (world : Option σ) : run.advance seconds world = (run, []) := by
  cases run with
  | alone level =>
      change level.current = none at isOver
      simp only [advance, isOver]
  | hosting level inner =>
      change level.current = none at isOver
      simp only [advance, isOver]

theorem advance_alone {level : Level} {index : Nat} {inst : Instance}
    (current : level.current = some index) (found : level.instances[index]? = some inst)
    (seconds : Float32) (world : Option σ) :
    (alone level).advance seconds world =
      if (inst.activity.work seconds world).2 then
        moveOn world index (level.worked seconds world index)
      else
        (.alone (level.worked seconds world index), []) := by
  unfold advance
  split
  next missing =>
    rw [current] at missing
    cases missing
  next other same =>
    rw [current, Option.some.injEq] at same
    subst same
    simp only [found]
    rw [Level.worked_eq_withActivity found]

theorem advance_hosting_of_current {level : Level} {index : Nat}
    (current : level.current = some index) (inner : Run) (seconds : Float32) (world : Option σ) :
    (hosting level inner).advance seconds world =
      let ticked := { level with ticks := level.ticks + 1 }
      if (inner.advance seconds world).1.isFinished then
        ((moveOn world index ticked).1,
          (inner.advance seconds world).2 ++ (moveOn world index ticked).2)
      else (.hosting ticked (inner.advance seconds world).1, (inner.advance seconds world).2) := by
  rw [advance]
  split
  next missing =>
    rw [current] at missing
    cases missing
  next other same =>
    rw [current, Option.some.injEq] at same
    subst same
    rfl

theorem advance_hosting {level : Level} {inner : Run} {index : Nat} {graph : Graph}
    (sound : level.Sound) (current : level.current = some index)
    (hosted : level.graph.nestedAt? index = some graph) (seconds : Float32) (world : Option σ) :
    (hosting level inner).advance seconds world =
      if (inner.advance seconds world).1.isFinished then
        ((moveOn world index (level.worked seconds world index)).1,
          (inner.advance seconds world).2 ++
            (moveOn world index (level.worked seconds world index)).2)
      else
        (.hosting (level.worked seconds world index) (inner.advance seconds world).1,
          (inner.advance seconds world).2) := by
  rw [sound.worked_eq_of_nested hosted]
  exact advance_hosting_of_current current inner seconds world

theorem departure?_alone {level : Level} {index : Nat} {inst : Instance}
    (current : level.current = some index) (found : level.instances[index]? = some inst)
    (seconds : Float32) (world : Option σ) :
    (alone level).departure? seconds world =
      if (inst.activity.work seconds world).2 then some (level.departure seconds world index)
      else none := by
  simp only [departure?, current, found, Option.bind_eq_bind, Option.bind_some]

theorem departure?_hosting {level : Level} {index : Nat} (current : level.current = some index)
    (inner : Run) (seconds : Float32) (world : Option σ) :
    (hosting level inner).departure? seconds world =
      if (inner.advance seconds world).1.isFinished then
        some (level.departure seconds world index)
      else none := by
  simp only [departure?, current, Option.bind_eq_bind, Option.bind_some]

theorem departure?_of_current_none {run : Run} (isOver : run.level.current = none)
    (seconds : Float32) (world : Option σ) : run.departure? seconds world = none := by
  cases run with
  | alone level =>
      change level.current = none at isOver
      simp [departure?, isOver]
  | hosting level inner =>
      change level.current = none at isOver
      simp [departure?, isOver]

theorem departure_of_departure? {run : Run} {seconds : Float32} {world : Option σ}
    {departure : Departure} (departed : run.departure? seconds world = some departure) :
    ∃ index, run.level.current = some index ∧
      departure = run.level.departure seconds world index := by
  cases run with
  | alone level =>
      obtain ⟨index, current, rest⟩ := Option.bind_eq_some_iff.mp departed
      obtain ⟨inst, _, ended⟩ := Option.bind_eq_some_iff.mp rest
      split at ended
      · exact ⟨index, current, (Option.some.inj ended).symm⟩
      · cases ended
  | hosting level inner =>
      obtain ⟨index, current, ended⟩ := Option.bind_eq_some_iff.mp departed
      split at ended
      · exact ⟨index, current, (Option.some.inj ended).symm⟩
      · cases ended

/-- What a tick does to a run, with the visit of the outermost level that it ends and with the
events. The innermost level does the work of its node and moves on if that ends the visit; a level
moves on if the run that it hosts is over by then. -/
inductive Advances (seconds : Float32) (world : Option σ) :
    Run → Option Departure → Run → List Event → Prop where
  | idle {level : Level} (sound : level.Sound) (isOver : level.current = none) :
      Advances seconds world (.alone level) none (.alone level) []
  | stay {level : Level} {index : Nat} {inst : Instance} (sound : level.Sound)
      (current : level.current = some index) (found : level.instances[index]? = some inst)
      (free : level.graph.nestedAt? index = none)
      (working : ¬ (inst.activity.work seconds world).2 = true) :
      Advances seconds world (.alone level) none (.alone (level.worked seconds world index)) []
  | move {level : Level} {index : Nat} {inst : Instance} (sound : level.Sound)
      (current : level.current = some index) (found : level.instances[index]? = some inst)
      (free : level.graph.nestedAt? index = none)
      (done : (inst.activity.work seconds world).2 = true) :
      Advances seconds world (.alone level) (some (level.departure seconds world index))
        (moveOn world index (level.worked seconds world index)).1
        (moveOn world index (level.worked seconds world index)).2
  | inside {level : Level} {inner after : Run} {departure : Option Departure} {events : List Event}
      {index : Nat} {inst : Instance} (sound : level.Sound) (current : level.current = some index)
      (found : level.instances[index]? = some inst)
      (hosted : level.graph.nestedAt? index = some inner.level.graph)
      (identity : inner.level.id = level.id.nested level.enters)
      (step : Advances seconds world inner departure after events)
      (running : ¬ after.isFinished = true) :
      Advances seconds world (.hosting level inner) none
        (.hosting (level.worked seconds world index) after) events
  | outside {level : Level} {inner after : Run} {departure : Option Departure}
      {events : List Event} {index : Nat} {inst : Instance} (sound : level.Sound)
      (current : level.current = some index) (found : level.instances[index]? = some inst)
      (hosted : level.graph.nestedAt? index = some inner.level.graph)
      (identity : inner.level.id = level.id.nested level.enters)
      (step : Advances seconds world inner departure after events)
      (isOver : after.isFinished = true) :
      Advances seconds world (.hosting level inner) (some (level.departure seconds world index))
        (moveOn world index (level.worked seconds world index)).1
        (events ++ (moveOn world index (level.worked seconds world index)).2)

theorem Sound.advances {run : Run} (sound : run.Sound) (seconds : Float32) (world : Option σ) :
    Advances seconds world run (run.departure? seconds world) (run.advance seconds world).1
      (run.advance seconds world).2 := by
  induction sound with
  | @alone level sound free =>
      cases current : (Run.alone level).level.current with
      | none =>
          rw [departure?_of_current_none current, advance_of_current_none current]
          exact .idle sound current
      | some index =>
          change level.current = some index at current
          obtain ⟨inst, found⟩ := sound.instance_of_current current
          rw [departure?_alone current found, advance_alone current found]
          split
          next done => exact .move sound current found (free index current) done
          next working => exact .stay sound current found (free index current) working
  | @hosting level inner index sound current hosted identity within ih =>
      obtain ⟨inst, found⟩ := sound.instance_of_current current
      rw [departure?_hosting current, advance_hosting sound current hosted]
      split
      next isOver => exact .outside sound current found hosted identity ih isOver
      next running => exact .inside sound current found hosted identity ih running

section Advances

variable {seconds : Float32} {world : Option σ} {run after : Run} {departure : Option Departure}
  {events : List Event}

/-- A tick does to the outermost level what the level's own steps say. -/
theorem Advances.tickStep (step : Advances seconds world run departure after events) :
    Level.TickStep world run.level departure after.level := by
  cases step with
  | idle sound isOver => exact .idle isOver
  | stay sound current found free working =>
      exact .stay current found fun done => absurd done working
  | move sound current found free done =>
      rw [level_moveOn]
      exact .move current found done
  | inside sound current found hosted =>
      refine .stay current found fun _ => ?_
      rw [Graph.nestedAt?, sound.named_of_instance found, Option.bind_some] at hosted
      exact Option.isSome_of_eq_some hosted
  | outside sound current found hosted =>
      rw [level_moveOn]
      exact .move current found (sound.done_of_nested hosted found seconds world)

theorem Advances.sound_before (step : Advances seconds world run departure after events) :
    run.Sound := by
  have free : ∀ {level : Level} {index : Nat}, level.current = some index →
      level.graph.nestedAt? index = none →
      ∀ other, level.current = some other → level.graph.nestedAt? other = none := by
    intro level index current free other current'
    exact Option.some.inj (current.symm.trans current') ▸ free
  induction step with
  | idle sound isOver =>
      exact .alone sound fun _ current => absurd (isOver.symm.trans current) nofun
  | stay sound current found none => exact .alone sound (free current none)
  | move sound current found none => exact .alone sound (free current none)
  | inside sound current found hosted identity step running ih =>
      exact .hosting sound current hosted identity ih
  | outside sound current found hosted identity step isOver ih =>
      exact .hosting sound current hosted identity ih

theorem Advances.sound (step : Advances seconds world run departure after events) :
    after.Sound := by
  have moved : ∀ {level : Level} {index : Nat}, level.Sound → level.current = some index →
      (moveOn world index (level.worked seconds world index)).1.Sound :=
    fun sound current => sound_moveOn (sound.worked seconds world _) current world
  induction step with
  | idle sound isOver =>
      exact .alone sound fun _ current => absurd (isOver.symm.trans current) nofun
  | @stay level index inst sound current found free =>
      refine .alone (sound.worked seconds world index) fun other current' => ?_
      exact Option.some.inj (current.symm.trans current') ▸ free
  | move sound current => exact moved sound current
  | @inside level inner after _ _ index _ sound current found hosted identity step running ih =>
      refine .hosting (sound.worked seconds world index) current ?_ ?_ ih
      · rw [step.tickStep.graph_eq]
        exact hosted
      · rw [step.tickStep.id_eq]
        exact identity
  | outside sound current => exact moved sound current

end Advances

theorem Sound.tickStep {run : Run} (sound : run.Sound) (seconds : Float32) (world : Option σ) :
    Level.TickStep world run.level (run.departure? seconds world)
      (run.advance seconds world).1.level :=
  (sound.advances seconds world).tickStep

/-- A tick that ends a visit leaves its node and goes where the departure says. -/
theorem Sound.level_advance {run : Run} (sound : run.Sound) {seconds : Float32}
    {world : Option σ} {departure : Departure}
    (departed : run.departure? seconds world = some departure) :
    (run.advance seconds world).1.level =
      (run.level.left seconds world departure.index).follow world departure.destination := by
  have step := sound.advances seconds world
  rw [departed] at step
  generalize (run.advance seconds world).1 = after, (run.advance seconds world).2 = events at step
  cases step with
  | move => exact level_moveOn world _ _
  | outside => exact level_moveOn world _ _

theorem Sound.advance {run : Run} (sound : run.Sound) (seconds : Float32) (world : Option σ) :
    (run.advance seconds world).1.Sound :=
  (sound.advances seconds world).sound

/-! ## Reports -/

theorem isWithin_of_mem_arrive {world : Option σ} {level : Level} {destination : Destination}
    {event : Event} (member : event ∈ (arrive world level destination).2) :
    event.run.IsWithin level.id := by
  cases destination with
  | successor next => exact isWithin_of_mem_enter world next level event member
  | resumption next returns =>
      exact isWithin_of_mem_enter world next { level with returns } event member
  | ending =>
      rw [List.mem_singleton.mp member]
      exact .refl _
  | unresolved id =>
      rw [List.mem_singleton.mp member]
      exact .refl _

theorem isWithin_of_mem_moveOn {world : Option σ} {index : Nat} {level : Level} {event : Event}
    (member : event ∈ (moveOn world index level).2) : event.run.IsWithin level.id := by
  rw [← Level.id_leave index level]
  rw [moveOn_eq] at member
  rcases List.mem_append.mp member with exited | arrived
  · rw [Level.run_of_mem_exitedReport exited]
    exact .refl _
  · exact isWithin_of_mem_arrive arrived

theorem Advances.isWithin_of_mem {seconds : Float32} {world : Option σ} {run after : Run}
    {departure : Option Departure} {events : List Event}
    (step : Advances seconds world run departure after events) {event : Event}
    (member : event ∈ events) : event.run.IsWithin run.level.id := by
  have moved : ∀ (index : Nat) (level : Level),
      event ∈ (moveOn world index (level.worked seconds world index)).2 →
        event.run.IsWithin level.id :=
    fun _ _ => isWithin_of_mem_moveOn
  induction step with
  | idle => cases member
  | stay => cases member
  | move => exact moved _ _ member
  | inside sound current found hosted identity step running ih =>
      exact (identity ▸ ih member).of_nested
  | outside sound current found hosted identity step isOver ih =>
      rcases List.mem_append.mp member with reported | left
      · exact (identity ▸ ih reported).of_nested
      · exact moved _ _ left

/-- A hosted run only reports under its own identity and those within. -/
theorem Advances.forall_isWithin {seconds : Float32} {world : Option σ} {run after : Run}
    {departure : Option Departure} {events : List Event}
    (step : Advances seconds world run departure after events) {id : RunId}
    (identity : run.level.id = id) : ∀ event ∈ events, event.run.IsWithin id :=
  fun _ member => identity ▸ step.isWithin_of_mem member

theorem Sound.isWithin_of_mem_advance {run : Run} (sound : run.Sound) (seconds : Float32)
    (world : Option σ) {event : Event} (member : event ∈ (run.advance seconds world).2) :
    event.run.IsWithin run.level.id :=
  (sound.advances seconds world).isWithin_of_mem member

/-- The events that a run of its own identity reports, without those of nested runs. -/
def own (id : RunId) (events : List Event) : List Event :=
  events.filter (·.run = id)

theorem own_append (id : RunId) (before after : List Event) :
    own id (before ++ after) = own id before ++ own id after :=
  List.filter_append ..

theorem own_of_forall {id : RunId} {events : List Event} (all : ∀ event ∈ events, event.run = id) :
    own id events = events :=
  List.filter_eq_self.mpr fun event member => decide_eq_true (all event member)

theorem own_of_forall_ne {id : RunId} {events : List Event}
    (all : ∀ event ∈ events, event.run ≠ id) : own id events = [] :=
  List.filter_eq_nil_iff.mpr fun event member => by simpa using all event member

theorem own_of_forall_isWithin_nested {id : RunId} {visit : Nat} {events : List Event}
    (inside : ∀ event ∈ events, event.run.IsWithin (id.nested visit)) : own id events = [] :=
  own_of_forall_ne fun event member => (inside event member).ne_of_nested

theorem own_nested_of_forall {inner outer : RunId} {events : List Event}
    (mine : ∀ event ∈ events, event.run = outer) {visit : Nat}
    (within : inner.IsWithin (outer.nested visit)) : own inner events = [] :=
  own_of_forall_ne fun event member same =>
    within.ne_of_nested (same.symm.trans (mine event member))

theorem own_enter (world : Option σ) (index : Nat) (level : Level) :
    own level.id (enter world index level).2 = (level.enter world index).enteredReport index := by
  have reported : own level.id ((level.enter world index).enteredReport index) =
      (level.enter world index).enteredReport index :=
    own_of_forall fun event member =>
      (Level.run_of_mem_enteredReport member).trans (Level.id_enter _ _ _)
  cases hosted : level.graph.nestedAt? index with
  | none => rw [enter_of_none hosted, reported]
  | some graph =>
      have inside := isWithin_of_mem_start world (level.id.nested (level.enters + 1)) graph
      rw [enter_hosting hosted]
      refine (own_append _ _ _).trans ?_
      rw [reported, own_of_forall_isWithin_nested inside, List.nil_append]

theorem own_start (world : Option σ) (id : RunId) (graph : Graph) :
    own id (start world id graph).2 =
      (Level.ofGraph id graph).event (.runStarted graph.id) ::
        match graph.startIndex? with
        | none => [(Level.ofGraph id graph).finishedReport]
        | some index => (Level.begin world id graph).enteredReport index := by
  cases found : graph.startIndex? with
  | none =>
      rw [start_of_none found]
      exact own_of_forall (by simp [Level.event, Level.finishedReport, Level.ofGraph])
  | some index =>
      have first : own id [(Level.ofGraph id graph).event (.runStarted graph.id)] =
          [(Level.ofGraph id graph).event (.runStarted graph.id)] :=
        own_of_forall (by simp [Level.event, Level.ofGraph])
      have entered : own id (enter world index (Level.ofGraph id graph)).2 = _ :=
        own_enter world index (Level.ofGraph id graph)
      rw [start_of_some found]
      refine (own_append id [_] _).trans ?_
      rw [first, entered]
      simp only [Level.begin, found, List.singleton_append]

theorem own_arrive (world : Option σ) (level : Level) (destination : Destination) :
    own level.id (arrive world level destination).2 = level.arrivalReport world destination := by
  cases destination with
  | successor next => exact own_enter world next level
  | resumption next returns => exact own_enter world next { level with returns }
  | ending => exact own_of_forall fun event member => List.mem_singleton.mp member ▸ rfl
  | unresolved id => exact own_of_forall fun event member => List.mem_singleton.mp member ▸ rfl

theorem own_moveOn (world : Option σ) (index : Nat) (level : Level) :
    own level.id (moveOn world index level).2 =
      (level.leave index).exitedReport index ++
        (level.leave index).arrivalReport world ((level.leave index).destination index) := by
  have exited : own (level.leave index).id ((level.leave index).exitedReport index) =
      (level.leave index).exitedReport index :=
    own_of_forall fun event member => Level.run_of_mem_exitedReport member
  rw [moveOn_eq, ← Level.id_leave index level]
  refine (own_append _ _ _).trans ?_
  rw [exited, own_arrive]

/-- What the outermost level reports in a tick follows from the visit that the tick ends. -/
theorem Advances.own_eq {seconds : Float32} {world : Option σ} {run after : Run}
    {departure : Option Departure} {events : List Event}
    (step : Advances seconds world run departure after events) :
    own run.level.id events =
      departure.elim [] fun departed =>
        run.level.departureReport seconds world departed.index := by
  have foreign : ∀ {level : Level} {inner after : Run} {departure : Option Departure}
      {events : List Event}, inner.level.id = level.id.nested level.enters →
      Advances seconds world inner departure after events → own level.id events = [] :=
    fun identity step => own_of_forall_isWithin_nested (step.forall_isWithin identity)
  cases step with
  | idle => rfl
  | stay => rfl
  | @move level index => exact own_moveOn world index (level.worked seconds world index)
  | inside sound current found hosted identity step => exact foreign identity step
  | @outside level _ _ _ _ index _ sound current found hosted identity step =>
      refine (own_append level.id _ _).trans ?_
      rw [foreign identity step, List.nil_append]
      exact own_moveOn world index (level.worked seconds world index)

theorem Sound.own_advance {run : Run} (sound : run.Sound) (seconds : Float32)
    (world : Option σ) :
    own run.level.id (run.advance seconds world).2 =
      match run.departure? seconds world with
      | none => []
      | some departure => run.level.departureReport seconds world departure.index := by
  rw [(sound.advances seconds world).own_eq]
  cases run.departure? seconds world <;> rfl

/-! ## Signals -/

theorem level_signal (trigger : String) (run : Run) :
    (run.signal trigger).run.level = (run.level.signal trigger).1 := by
  cases run <;> rfl

theorem isFinished_signal (trigger : String) (run : Run) :
    (run.signal trigger).run.isFinished = run.isFinished := by
  rw [isFinished, level_signal, Level.isFinished, Level.current_signal]
  rfl

theorem Sound.signal {run : Run} (sound : run.Sound) (trigger : String) :
    (run.signal trigger).run.Sound := by
  cases sound with
  | @alone level sound free =>
      have shape : ((Run.alone level).signal trigger).run =
          Run.alone (level.signal trigger).1 := rfl
      rw [shape]
      exact .alone (sound.signal trigger) (by simpa using free)
  | @hosting level inner index sound current hosted identity within =>
      have shape : ((Run.hosting level inner).signal trigger).run =
          Run.hosting (level.signal trigger).1 inner := rfl
      rw [shape]
      exact .hosting (sound.signal trigger) (by simpa using current) (by simpa using hosted)
        (by simpa using identity) within

/-! ## Nested runs -/

theorem mem_chain_self (run : Run) : run ∈ run.chain := by
  cases run <;> exact List.mem_cons_self

theorem Sound.of_mem_chain {run nested : Run} (sound : run.Sound) (member : nested ∈ run.chain) :
    nested.Sound := by
  induction sound with
  | alone sound free =>
      rw [List.mem_singleton.mp member]
      exact .alone sound free
  | hosting sound current hosted identity within ih =>
      rcases List.mem_cons.mp member with rfl | inside
      · exact .hosting sound current hosted identity within
      · exact ih inside

/-- What a graph hands down to the graphs of its winning nodes holds of every graph in a run. -/
theorem Sound.graph_of_mem_chain {run nested : Run} (sound : run.Sound) {holds : Graph → Prop}
    (handsDown : ∀ graph index inner, holds graph → graph.IsWinner index →
      graph.nestedAt? index = some inner → holds inner)
    (outermost : holds run.level.graph) (member : nested ∈ run.chain) :
    holds nested.level.graph := by
  induction sound with
  | alone sound free =>
      rw [List.mem_singleton.mp member]
      exact outermost
  | @hosting level inner index sound current hosted identity within ih =>
      rcases List.mem_cons.mp member with rfl | inside
      · exact outermost
      · exact ih (handsDown _ index _ outermost (sound.current index current) hosted) inside

end Run

end SceneFlow
