import SceneFlow.Proofs.Run.Chain

/-!
# Waiting for triggers

Only the node that has control waits for a trigger. So a signal reaches that node or none, and what
it leaves behind is the node's mark that its trigger was fired, which the next entry takes away.
-/

set_option autoImplicit false

namespace SceneFlow

namespace Activity

/-- The trigger that ends a visit. An empty one never does. -/
def trigger? : Activity → Option String
  | .waitForTrigger trigger _ => if trigger = "" then none else some trigger
  | _ => none

def fired : Activity → Bool
  | .waitForTrigger _ fired => fired
  | _ => false

variable {σ : Type} [World σ]

@[simp] theorem trigger?_enter (world : Option σ) (activity : Activity) :
    (activity.enter world).trigger? = activity.trigger? := by
  cases activity <;> rfl

@[simp] theorem trigger?_work (seconds : Float32) (world : Option σ) (activity : Activity) :
    (activity.work seconds world).1.trigger? = activity.trigger? := by
  cases activity with
  | dialogue name waits started => cases name <;> cases world <;> rfl
  | _ => rfl

@[simp] theorem trigger?_signalled (activity : Activity) :
    activity.signalled.trigger? = activity.trigger? := by
  cases activity <;> rfl

@[simp] theorem fired_enter (world : Option σ) (activity : Activity) :
    (activity.enter world).fired = false := by
  cases activity <;> rfl

@[simp] theorem fired_work (seconds : Float32) (world : Option σ) (activity : Activity) :
    (activity.work seconds world).1.fired = activity.fired := by
  cases activity with
  | dialogue name waits started => cases name <;> cases world <;> rfl
  | _ => rfl

theorem signalled_of_trigger? {activity : Activity} {trigger : String}
    (waits : activity.trigger? = some trigger) :
    activity.signalled? = some (.waitForTrigger trigger true) := by
  cases activity with
  | waitForTrigger awaited fired =>
      obtain ⟨_, same⟩ : awaited ≠ "" ∧ awaited = trigger := by simpa [trigger?] using waits
      rw [same]
      rfl
  | _ => cases waits

end Activity

namespace Level

variable {σ : Type} [World σ] {level : Level}

/-- The wait of the node that has control, if it waits for a trigger. -/
def wait? (level : Level) : Option Registration := do
  let index ← level.current
  let inst ← level.instances[index]?
  let trigger ← inst.activity.trigger?
  return ⟨trigger, index⟩

/-- Whether the node that has control waits for a trigger that was fired. -/
def fired (level : Level) : Bool :=
  level.current?.any (·.activity.fired)

/-! ## What the operations of a level change -/

theorem wait?_of_found {index : Nat} {inst : Instance} (current : level.current = some index)
    (found : level.instances[index]? = some inst) :
    level.wait? = inst.activity.trigger?.map (⟨·, index⟩) := by
  simp only [wait?, current, found, Option.bind_eq_bind, Option.bind_some]
  cases inst.activity.trigger? <;> rfl

theorem instance_of_wait? {trigger : String} {index : Nat}
    (waits : level.wait? = some ⟨trigger, index⟩) :
    level.current = some index ∧
      ∃ inst, level.instances[index]? = some inst ∧ inst.activity.trigger? = some trigger := by
  obtain ⟨other, current, rest⟩ := Option.bind_eq_some_iff.mp waits
  obtain ⟨inst, found, named⟩ := Option.bind_eq_some_iff.mp rest
  obtain ⟨awaited, asked, same⟩ := Option.bind_eq_some_iff.mp named
  cases same
  exact ⟨current, inst, found, asked⟩

theorem wait?_of_current_none (isOver : level.current = none) : level.wait? = none := by
  simp [wait?, isOver]

private theorem wait?_congr {after : Level} {change : Nat → Instance → Instance}
    (sameCurrent : after.current = level.current)
    (equation : ∀ index : Nat, after.instances[index]? = level.instances[index]?.map (change index))
    (keeps : ∀ index inst, (change index inst).activity.trigger? = inst.activity.trigger?) :
    after.wait? = level.wait? := by
  cases current : level.current with
  | none =>
      rw [wait?_of_current_none current, wait?_of_current_none (sameCurrent.trans current)]
  | some index =>
      have atIndex := equation index
      cases found : level.instances[index]? with
      | none =>
          rw [found] at atIndex
          simp [wait?, sameCurrent, current, found, atIndex]
      | some inst =>
          rw [found] at atIndex
          rw [wait?_of_found current found, wait?_of_found (sameCurrent.trans current) atIndex,
            keeps]

theorem wait?_worked (seconds : Float32) (world : Option σ) (index : Nat) (level : Level) :
    (level.worked seconds world index).wait? = level.wait? := by
  refine wait?_congr rfl (fun other => getElem?_worked seconds world index other level) ?_
  intro other inst
  split
  · exact Activity.trigger?_work seconds world inst.activity
  · rfl

theorem wait?_signal (trigger : String) (level : Level) :
    (level.signal trigger).1.wait? = level.wait? := by
  refine wait?_congr (current_signal trigger level)
    (fun other => getElem?_signal trigger other level) ?_
  intro other inst
  split
  · exact Activity.trigger?_signalled inst.activity
  · rfl

theorem fired_enter (world : Option σ) (index : Nat) (level : Level) :
    (level.enter world index).fired = false := by
  unfold fired current?
  rw [current_enter, Option.bind_some, getElem?_enter]
  cases level.instances[index]? with
  | none => rfl
  | some inst => simp [Instance.changed]

theorem fired_worked (seconds : Float32) (world : Option σ) (index : Nat) (level : Level) :
    (level.worked seconds world index).fired = level.fired := by
  unfold fired current?
  cases current : level.current with
  | none => simp [worked, current]
  | some other =>
      have sameCurrent : (level.worked seconds world index).current = some other := current
      rw [sameCurrent, Option.bind_some, Option.bind_some, getElem?_worked]
      cases level.instances[other]? with
      | none => rfl
      | some inst =>
          by_cases same : index = other
          · simp [same, Instance.changed]
          · simp [same]

theorem fired_of_current_none (isOver : level.current = none) : level.fired = false := by
  simp [fired, current?, isOver]

theorem fired_follow (world : Option σ) (level : Level) (destination : Destination) :
    (level.follow world destination).fired = false := by
  cases destination with
  | successor next => exact fired_enter world next level
  | resumption next returns => exact fired_enter world next { level with returns }
  | ending => exact fired_of_current_none rfl
  | unresolved id => exact fired_of_current_none rfl

theorem fired_begin (world : Option σ) (id : RunId) (graph : Graph) :
    (begin world id graph).fired = false := by
  unfold begin
  split
  · exact fired_of_current_none rfl
  · exact fired_enter _ _ _

/-- A level that no signal reaches never finds its trigger fired. -/
theorem lasting_unfired : Lasting σ (·.fired = false) where
  begin := fired_begin
  tick := by
    intro world level after departure _ unfired step
    cases step with
    | idle => exact unfired
    | stay => exact (fired_worked _ _ _ _).trans unfired
    | move => exact fired_follow _ _ _

theorem TickStep.fired_cases {world : Option σ} {after : Level} {departure : Option Departure}
    (step : TickStep world level departure after) :
    (after.fired = level.fired ∧ after.wait? = level.wait? ∧ after.enters = level.enters) ∨
      after.fired = false ∧ (after.current = none ∨ level.enters < after.enters) := by
  cases step with
  | idle => exact .inl ⟨rfl, rfl, rfl⟩
  | stay => exact .inl ⟨fired_worked _ _ _ _, wait?_worked _ _ _ _, rfl⟩
  | @move seconds index =>
      refine .inr ⟨fired_follow _ _ _, ?_⟩
      rw [current_follow, enters_follow, enters_left]
      cases (level.departure seconds world index).destination.entered? with
      | none => exact .inl rfl
      | some next => exact .inr (Nat.lt_succ_self _)

/-! ## The registry -/

/-- The registry holds the wait of the node that has control, and nothing else. -/
def WaitKept (level : Level) : Prop :=
  level.waits.registrations = level.wait?.toList

theorem registrations_waitsOnEntry (index : Nat) (activity : Activity) (waits : TriggerRegistry) :
    (waitsOnEntry index activity waits).registrations =
      waits.registrations ++ (activity.trigger?.map (⟨·, index⟩)).toList := by
  cases activity with
  | waitForTrigger trigger fired =>
      by_cases empty : trigger = "" <;>
        simp [waitsOnEntry, Activity.trigger?, TriggerRegistry.register, empty]
  | _ => simp [waitsOnEntry, Activity.trigger?]

theorem registrations_waitsOnExit {index : Nat} {activity : Activity} {waits : TriggerRegistry}
    (kept : waits.registrations = (activity.trigger?.map (⟨·, index⟩)).toList) :
    (waitsOnExit index activity waits).registrations = [] := by
  cases activity with
  | waitForTrigger trigger fired =>
      by_cases empty : trigger = ""
      · simpa [waitsOnExit, Activity.trigger?, empty] using kept
      · have alone : waits.registrations = [⟨trigger, index⟩] := by
          simpa [Activity.trigger?, empty] using kept
        simp [waitsOnExit, empty, TriggerRegistry.unregister, alone]
  | _ => exact kept

theorem WaitKept.enter {next : Nat} (sound : level.Sound) (wins : level.graph.IsWinner next)
    (world : Option σ) (free : level.waits.registrations = []) :
    (level.enter world next).WaitKept := by
  obtain ⟨inst, found⟩ := sound.instance_of_isWinner wins
  have entered := getElem?_enter world next next level
  rw [found, Option.map_some, if_pos rfl] at entered
  have registered : (level.enter world next).waits =
      waitsOnEntry next inst.activity level.waits := by
    simp only [Level.enter, found]
  unfold WaitKept
  rw [registered, registrations_waitsOnEntry, free, List.nil_append,
    wait?_of_found (current_enter world next level) entered]
  simp only [Instance.changed, Activity.trigger?_enter]

theorem WaitKept.left (kept : level.WaitKept) (sound : level.Sound) {index : Nat}
    (current : level.current = some index) (seconds : Float32) (world : Option σ) :
    (level.left seconds world index).waits.registrations = [] := by
  obtain ⟨inst, found⟩ := (sound.worked seconds world index).instance_of_current current
  have left : (level.left seconds world index).waits =
      waitsOnExit index inst.activity level.waits := by
    simp only [Level.left, Level.leave, found]
    rfl
  have still := wait?_worked seconds world index level
  have now : (level.worked seconds world index).current = some index := current
  rw [wait?_of_found now found] at still
  rw [left]
  refine registrations_waitsOnExit ?_
  rw [still]
  exact kept

theorem WaitKept.finish (level : Level) (free : level.waits.registrations = []) :
    level.finish.WaitKept := by
  have isOver : level.finish.current = none := rfl
  unfold WaitKept
  rw [wait?_of_current_none isOver]
  exact free

theorem WaitKept.begin (world : Option σ) (id : RunId) (graph : Graph) :
    (Level.begin world id graph).WaitKept := by
  unfold Level.begin
  split
  · exact WaitKept.finish (ofGraph id graph) rfl
  next index found =>
    exact WaitKept.enter (sound_ofGraph id graph) (Graph.isWinner_of_startIndex? found) world rfl

theorem WaitKept.follow (sound : level.Sound) (free : level.waits.registrations = [])
    (index : Nat) (world : Option σ) :
    (level.follow world (level.destination index)).WaitKept := by
  have wins : ∀ next, (level.destination index).entered? = some next →
      level.graph.IsWinner next := fun _ goes => sound.isWinner_of_entered goes
  cases goes : level.destination index with
  | successor next => exact WaitKept.enter sound (wins next (by rw [goes]; rfl)) world free
  | resumption next returns =>
      exact WaitKept.enter (sound.withReturns (sound.returns_subset_of_resumption goes))
        (wins next (by rw [goes]; rfl)) world free
  | ending => exact WaitKept.finish { level with returns := .empty } free
  | unresolved id => exact WaitKept.finish level free

theorem WaitKept.tickStep {world : Option σ} {after : Level} {departure : Option Departure}
    (kept : level.WaitKept) (sound : level.Sound) (step : TickStep world level departure after) :
    after.WaitKept := by
  cases step with
  | idle => exact kept
  | stay =>
      unfold WaitKept
      rw [wait?_worked]
      exact kept
  | @move seconds index inst current =>
      exact WaitKept.follow (sound.left current seconds world)
        (kept.left sound current seconds world) index world

theorem WaitKept.signal (kept : level.WaitKept) (trigger : String) :
    (level.signal trigger).1.WaitKept := by
  obtain ⟨_, whole⟩ := signal_eq trigger level
  have sameWaits : (level.signal trigger).1.waits = level.waits := by rw [whole]
  unfold WaitKept
  rw [wait?_signal, sameWaits]
  exact kept

theorem History.waitKept {id : RunId} {graph : Graph} {departures : List Departure}
    (history : History σ id graph departures level) : level.WaitKept := by
  induction history with
  | begin world => exact .begin world id graph
  | tick before step ih => exact ih.tickStep before.sound step
  | signal trigger _ ih => exact ih.signal trigger

/-! ## Signals -/

theorem WaitKept.signal_of_wait? (kept : level.WaitKept) {trigger : String} {index : Nat}
    (waits : level.wait? = some ⟨trigger, index⟩) :
    level.signal trigger = (level.withActivity index (.waitForTrigger trigger true), 1) := by
  have alone : level.waits.waiting trigger = [index] := by
    rw [WaitKept, waits] at kept
    simp [TriggerRegistry.waiting, kept]
  obtain ⟨_, inst, found, asked⟩ := instance_of_wait? waits
  have woken : (level.instances[index]?.bind (·.activity.signalled?)) =
      some (.waitForTrigger trigger true) := by
    rw [found]
    exact Activity.signalled_of_trigger? asked
  simp only [Level.signal, alone, List.foldl_cons, List.foldl_nil, wake, woken, Nat.zero_add]

theorem WaitKept.signal_of_not_waiting (kept : level.WaitKept) {trigger : String}
    (idle : level.wait?.map (·.trigger) ≠ some trigger) : level.signal trigger = (level, 0) := by
  have nobody : level.waits.waiting trigger = [] := by
    rw [WaitKept] at kept
    cases waits : level.wait? with
    | none => simp [TriggerRegistry.waiting, kept, waits]
    | some wait =>
        rw [waits, Option.map_some, ne_eq, Option.some.injEq] at idle
        simp [TriggerRegistry.waiting, kept, waits, idle]
  rw [Level.signal, nobody, List.foldl_nil]

theorem WaitKept.fired_signal (kept : level.WaitKept) (trigger : String) :
    (level.signal trigger).1.fired = true ↔
      level.fired = true ∨ level.wait?.map (·.trigger) = some trigger := by
  by_cases waits : level.wait?.map (·.trigger) = some trigger
  · obtain ⟨⟨awaited, index⟩, waiting, same⟩ := Option.map_eq_some_iff.mp waits
    cases same
    refine iff_of_true ?_ (.inr waits)
    obtain ⟨current, inst, found, _⟩ := instance_of_wait? waiting
    rw [kept.signal_of_wait? waiting]
    have sameCurrent :
        (level.withActivity index (.waitForTrigger awaited true)).current = some index := current
    unfold fired current?
    rw [sameCurrent, Option.bind_some, getElem?_withActivity, found, Option.map_some, if_pos rfl]
    rfl
  · rw [kept.signal_of_not_waiting waits]
    exact (or_iff_left waits).symm

end Level

end SceneFlow
