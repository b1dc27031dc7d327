import SceneFlow.Proofs.Graph.Resolution
import SceneFlow.Run.Level

/-!
# What the operations of a level change

Each operation of a level acts on every instance by itself and keeps what its node is given. That
makes the equations below enough to follow one node, or the return stack, through a run.
-/

set_option autoImplicit false

namespace SceneFlow

namespace Instance

/-- The same node after its activity changed. -/
def changed (change : Activity → Activity) (inst : Instance) : Instance :=
  { inst with activity := change inst.activity }

theorem node_changed {change : Activity → Activity} (inst : Instance)
    (keeps : ∀ activity, (change activity).kind = activity.kind) :
    (inst.changed change).node = inst.node := by
  simp only [node, changed, keeps]

end Instance

/-- What a signal leaves of an activity that it reaches. -/
def Activity.signalled (activity : Activity) : Activity :=
  activity.signalled?.getD activity

@[simp] theorem Activity.kind_signalled (activity : Activity) :
    activity.signalled.kind = activity.kind := by
  cases activity <;> rfl

theorem Activity.signalled_signalled (activity : Activity) :
    activity.signalled.signalled = activity.signalled := by
  cases activity <;> rfl

/-! ## Steps are not touched by work and signals -/

theorem Activity.hasStep_work {σ : Type} [World σ] (seconds : Float32) (world : Option σ)
    (activity : Activity) : (activity.work seconds world).1.hasStep = activity.hasStep := by
  cases activity with
  | dialogue name waits started => cases name <;> cases world <;> rfl
  | _ => rfl

theorem Activity.hasStep_signalled (activity : Activity) :
    activity.signalled.hasStep = activity.hasStep := by
  cases activity <;> rfl

namespace Level

theorem current?_of_found {level : Level} {index : Nat} {inst : Instance}
    (current : level.current = some index) (found : level.instances[index]? = some inst) :
    level.current? = some inst := by
  rw [current?, current, Option.bind_some, found]

variable {σ : Type} [World σ]

/-- The level once the node that has control has done the work of one tick. -/
def worked (seconds : Float32) (world : Option σ) (index : Nat) (level : Level) : Level :=
  { level with
    ticks := level.ticks + 1
    instances := level.instances.modify index (·.changed (·.work seconds world |>.1)) }

/-! ## Instances -/

theorem getElem?_worked (seconds : Float32) (world : Option σ) (index other : Nat)
    (level : Level) :
    (level.worked seconds world index).instances[other]? =
      level.instances[other]?.map fun inst =>
        if index = other then inst.changed (·.work seconds world |>.1) else inst := by
  simp only [worked, List.getElem?_modify, Option.map_eq_map]

theorem getElem?_withActivity (index other : Nat) (activity : Activity) (level : Level) :
    (level.withActivity index activity).instances[other]? =
      level.instances[other]?.map fun inst =>
        if index = other then { inst with activity } else inst := by
  simp only [withActivity, List.getElem?_modify, Option.map_eq_map]

theorem getElem?_enter (world : Option σ) (index other : Nat) (level : Level) :
    (level.enter world index).instances[other]? =
      level.instances[other]?.map fun inst =>
        if index = other then inst.changed (·.enter world) else inst := by
  cases found : level.instances[index]? with
  | none =>
      by_cases same : index = other
      · subst same
        simp [enter, found]
      · simp [enter, found, same]
  | some inst =>
      simp only [enter, found, getElem?_withActivity]
      by_cases same : index = other
      · subst same
        simp [found, Instance.changed]
      · simp [same]

theorem getElem?_wake (state : Level × Nat) (index other : Nat) :
    (wake state index).1.instances[other]? =
      state.1.instances[other]?.map fun inst =>
        if index = other then inst.changed Activity.signalled else inst := by
  cases fired : state.1.instances[index]?.bind (·.activity.signalled?) with
  | none =>
      simp only [wake, fired]
      by_cases same : index = other
      · subst same
        cases found : state.1.instances[index]? with
        | none => rfl
        | some inst =>
            have still : inst.activity.signalled? = none := by simpa [found] using fired
            simp [Instance.changed, Activity.signalled, still]
      · simp [same]
  | some activity =>
      simp only [wake, fired, getElem?_withActivity]
      by_cases same : index = other
      · subst same
        obtain ⟨inst, found, woken⟩ := Option.bind_eq_some_iff.mp fired
        simp [found, Instance.changed, Activity.signalled, woken]
      · simp [same]

private theorem getElem?_foldl_wake (indices : List Nat) (state : Level × Nat) (other : Nat) :
    (indices.foldl wake state).1.instances[other]? =
      state.1.instances[other]?.map fun inst =>
        if other ∈ indices then inst.changed Activity.signalled else inst := by
  induction indices generalizing state with
  | nil => simp
  | cons index rest ih =>
      rw [List.foldl_cons, ih, getElem?_wake, Option.map_map]
      congr 1
      funext inst
      by_cases first : index = other
      · subst first
        by_cases again : index ∈ rest <;>
          simp [again, Instance.changed, Activity.signalled_signalled]
      · have other' : other ≠ index := fun same => first same.symm
        simp [first, other']

theorem getElem?_signal (trigger : String) (other : Nat) (level : Level) :
    (level.signal trigger).1.instances[other]? =
      level.instances[other]?.map fun inst =>
        if other ∈ level.waits.waiting trigger then inst.changed Activity.signalled else inst :=
  getElem?_foldl_wake _ (level, 0) other

/-! ## All else -/

theorem isFinished_of_current {level : Level} {index : Nat} (current : level.current = some index) :
    level.isFinished = false := by
  rw [isFinished, current]
  rfl

/-- Entering a node gives it control and counts the visit; it changes nothing else but instances,
waits and returns. -/
theorem enter_eq (world : Option σ) (index : Nat) (level : Level) :
    ∃ instances waits returns,
      level.enter world index =
        { level with
          current := some index, enters := level.enters + 1, instances, waits, returns } := by
  cases found : level.instances[index]? with
  | none => exact ⟨_, _, _, by simp only [enter, found]; rfl⟩
  | some inst => exact ⟨_, _, _, by simp only [enter, found, withActivity]; rfl⟩

@[simp] theorem graph_enter (world : Option σ) (index : Nat) (level : Level) :
    (level.enter world index).graph = level.graph := by
  obtain ⟨_, _, _, whole⟩ := enter_eq world index level
  rw [whole]

@[simp] theorem id_enter (world : Option σ) (index : Nat) (level : Level) :
    (level.enter world index).id = level.id := by
  obtain ⟨_, _, _, whole⟩ := enter_eq world index level
  rw [whole]

@[simp] theorem current_enter (world : Option σ) (index : Nat) (level : Level) :
    (level.enter world index).current = some index := by
  obtain ⟨_, _, _, whole⟩ := enter_eq world index level
  rw [whole]

@[simp] theorem enters_enter (world : Option σ) (index : Nat) (level : Level) :
    (level.enter world index).enters = level.enters + 1 := by
  obtain ⟨_, _, _, whole⟩ := enter_eq world index level
  rw [whole]

@[simp] theorem ticks_enter (world : Option σ) (index : Nat) (level : Level) :
    (level.enter world index).ticks = level.ticks := by
  obtain ⟨_, _, _, whole⟩ := enter_eq world index level
  rw [whole]

theorem returns_enter {level : Level} {index : Nat} {inst : Instance}
    (found : level.instances[index]? = some inst) (world : Option σ) :
    (level.enter world index).returns = returnsOnEntry index inst.activity level.returns := by
  simp only [enter, found]

/-- Leaving a node changes waits and returns alone. -/
theorem leave_eq (index : Nat) (level : Level) :
    ∃ waits returns, level.leave index = { level with waits, returns } := by
  cases found : level.instances[index]? with
  | none => exact ⟨_, _, by simp only [leave, found]; rfl⟩
  | some inst => exact ⟨_, _, by simp only [leave, found]; rfl⟩

@[simp] theorem instances_leave (index : Nat) (level : Level) :
    (level.leave index).instances = level.instances := by
  obtain ⟨_, _, whole⟩ := leave_eq index level
  rw [whole]

@[simp] theorem graph_leave (index : Nat) (level : Level) :
    (level.leave index).graph = level.graph := by
  obtain ⟨_, _, whole⟩ := leave_eq index level
  rw [whole]

@[simp] theorem id_leave (index : Nat) (level : Level) : (level.leave index).id = level.id := by
  obtain ⟨_, _, whole⟩ := leave_eq index level
  rw [whole]

@[simp] theorem enters_leave (index : Nat) (level : Level) :
    (level.leave index).enters = level.enters := by
  obtain ⟨_, _, whole⟩ := leave_eq index level
  rw [whole]

@[simp] theorem ticks_leave (index : Nat) (level : Level) :
    (level.leave index).ticks = level.ticks := by
  obtain ⟨_, _, whole⟩ := leave_eq index level
  rw [whole]

theorem returns_leave {level : Level} {index : Nat} {inst : Instance}
    (found : level.instances[index]? = some inst) :
    (level.leave index).returns = returnsOnExit index inst.activity level.returns := by
  simp only [leave, found]

private theorem wake_eq (state : Level × Nat) (index : Nat) :
    ∃ instances woken, wake state index = ({ state.1 with instances }, woken) := by
  unfold wake
  split
  · exact ⟨_, _, rfl⟩
  · exact ⟨_, _, rfl⟩

private theorem foldl_wake_eq (indices : List Nat) (state : Level × Nat) :
    ∃ instances woken, indices.foldl wake state = ({ state.1 with instances }, woken) := by
  induction indices generalizing state with
  | nil => exact ⟨_, _, rfl⟩
  | cons index rest ih =>
      obtain ⟨first, count, woke⟩ := wake_eq state index
      obtain ⟨instances, woken, later⟩ := ih ({ state.1 with instances := first }, count)
      refine ⟨instances, woken, ?_⟩
      rw [List.foldl_cons, woke, later]

/-- A signal changes instances alone. -/
theorem signal_eq (trigger : String) (level : Level) :
    ∃ instances, (level.signal trigger).1 = { level with instances } := by
  obtain ⟨instances, woken, whole⟩ := foldl_wake_eq (level.waits.waiting trigger) (level, 0)
  exact ⟨instances, congrArg Prod.fst whole⟩

@[simp] theorem graph_signal (trigger : String) (level : Level) :
    (level.signal trigger).1.graph = level.graph := by
  obtain ⟨_, whole⟩ := signal_eq trigger level
  rw [whole]

@[simp] theorem id_signal (trigger : String) (level : Level) :
    (level.signal trigger).1.id = level.id := by
  obtain ⟨_, whole⟩ := signal_eq trigger level
  rw [whole]

@[simp] theorem current_signal (trigger : String) (level : Level) :
    (level.signal trigger).1.current = level.current := by
  obtain ⟨_, whole⟩ := signal_eq trigger level
  rw [whole]

@[simp] theorem returns_signal (trigger : String) (level : Level) :
    (level.signal trigger).1.returns = level.returns := by
  obtain ⟨_, whole⟩ := signal_eq trigger level
  rw [whole]

@[simp] theorem enters_signal (trigger : String) (level : Level) :
    (level.signal trigger).1.enters = level.enters := by
  obtain ⟨_, whole⟩ := signal_eq trigger level
  rw [whole]

@[simp] theorem ticks_signal (trigger : String) (level : Level) :
    (level.signal trigger).1.ticks = level.ticks := by
  obtain ⟨_, whole⟩ := signal_eq trigger level
  rw [whole]

end Level

end SceneFlow
