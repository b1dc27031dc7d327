import SceneFlow.Proofs.Run.Correspondence
import SceneFlow.World.Scripted

/-!
# Worlds in which nothing happens

A world in which nothing ever plays and no condition ever holds makes no difference to a run. A
dialogue that has nobody to present it is over at once, and so is one whose presentation is over at
once; a branch without anybody to ask takes no option, and neither does one to which every answer is
no. Only the dialogues themselves know whether they were started.
-/

set_option autoImplicit false

namespace SceneFlow

/-! ## Idle worlds -/

/-- Worlds in which nothing plays and no condition holds, whatever they are told to do. -/
structure World.Idle {σ : Type} [World σ] (idle : σ → Prop) : Prop where
  isPlaying : ∀ {world}, idle world → ∀ sequence, World.isPlaying world sequence = false
  holds : ∀ {world}, idle world → ∀ condition, World.holds world condition = false
  perform : ∀ {world}, idle world → ∀ command, idle (World.perform command world)

/-- Where there is no world, there is nothing to show. -/
theorem World.idle_none (σ : Type) [World σ] : World.Idle fun _ : σ => False :=
  ⟨fun none => none.elim, fun none => none.elim, fun none => none.elim⟩

theorem EmptyWorld.idle : World.Idle fun _ : EmptyWorld => True :=
  ⟨fun _ _ => rfl, fun _ _ => rfl, fun _ _ => trivial⟩

namespace ScriptedWorld

/-- No sequence lasts, no condition holds and nothing plays. -/
structure IsIdle (world : ScriptedWorld) : Prop where
  duration : ∀ sequence, ¬ 0 < world.script.duration sequence
  conditions : world.conditions = []
  remaining : world.remaining.entries = []

theorem isIdle_ofScript_empty : (ofScript .empty).IsIdle where
  duration _ := by
    change ¬ (0 : Float32) < 0
    decide
  conditions := rfl
  remaining := rfl

theorem IsIdle.perform {world : ScriptedWorld} (idle : world.IsIdle) (command : Command) :
    (perform command world).IsIdle := by
  obtain ⟨duration, conditions, remaining⟩ := idle
  cases command with
  | play sequence =>
      simp only [ScriptedWorld.perform, if_neg (duration sequence)]
      exact ⟨duration, conditions, remaining⟩
  | activate | complete => exact ⟨duration, conditions, remaining⟩

theorem IsIdle.advance {world : ScriptedWorld} (idle : world.IsIdle) (seconds : Float32) :
    (world.advance seconds).IsIdle := by
  obtain ⟨duration, conditions, remaining⟩ := idle
  refine ⟨duration, conditions, ?_⟩
  simp [ScriptedWorld.advance, Members.filter, Members.mapValues, remaining]

theorem idle : World.Idle IsIdle where
  isPlaying := by
    intro world idle sequence
    simp [World.isPlaying, Members.value?, idle.remaining]
  holds := by
    intro world idle condition
    simp [World.holds, idle.conditions]
  perform := IsIdle.perform

end ScriptedWorld

/-! ## What dialogues remember -/

/-- The activity as if it had not been started, if it is a dialogue. -/
def Activity.unstarted : Activity → Activity
  | .dialogue name waits _ => .dialogue name waits false
  | activity => activity

def Instance.unstarted (inst : Instance) : Instance :=
  { inst with activity := inst.activity.unstarted }

def Level.unstarted (level : Level) : Level :=
  { level with instances := level.instances.map Instance.unstarted }

/-- The run as if none of its dialogues, at any depth, had been started. -/
def Run.unstarted : Run → Run
  | .alone level => .alone level.unstarted
  | .hosting level inner => .hosting level.unstarted inner.unstarted

namespace Activity

/-- Activities that differ in having been started at most are the same or dialogues. -/
theorem unstarted_cases {activity activity' : Activity}
    (same : activity.unstarted = activity'.unstarted) :
    activity = activity' ∨ ∃ name waits started started',
      activity = .dialogue name waits started ∧ activity' = .dialogue name waits started' := by
  cases activity <;> cases activity' <;> cases same
  case dialogue.dialogue.refl => exact .inr ⟨_, _, _, _, rfl, rfl⟩
  all_goals exact .inl rfl

@[simp] theorem kind_unstarted (activity : Activity) : activity.unstarted.kind = activity.kind := by
  cases activity <;> rfl

theorem signalled_unstarted (activity : Activity) :
    activity.signalled.unstarted = activity.unstarted.signalled := by
  cases activity <;> rfl

variable {σ : Type} [World σ] {idle : σ → Prop} (isIdle : World.Idle idle) {world : Option σ}
  (here : ∀ now ∈ world, idle now)
include isIdle here

/-- No option is taken in an idle world. -/
theorem chosenOption_of_idle (conditions targets : List String) :
    (world.bind fun now => chosenOption now conditions targets) = none := by
  cases world with
  | none => rfl
  | some now =>
      have holds := isIdle.holds (here now rfl)
      simp only [Option.bind_some, chosenOption, List.findIdx?_eq_none_iff]
      intro option _
      simp [holds]

/-- Entering in an idle world is entering without any world. -/
theorem enter_of_idle (activity : Activity) :
    (activity.enter world).unstarted = activity.unstarted.enter (none : Option EmptyWorld) := by
  cases activity with
  | branch conditions targets chosen =>
      simp only [enter, unstarted, chosenOption_of_idle isIdle here, Option.bind_none]
  | _ => rfl

/-- Working in an idle world is working without any world. -/
theorem work_of_idle (seconds : Float32) (activity : Activity) :
    (activity.work seconds world).1.unstarted =
        (activity.unstarted.work seconds (none : Option EmptyWorld)).1 ∧
      (activity.work seconds world).2 =
        (activity.unstarted.work seconds (none : Option EmptyWorld)).2 := by
  cases activity with
  | dialogue name waits started =>
      cases name with
      | none => exact ⟨rfl, rfl⟩
      | some name =>
          cases world with
          | none => exact ⟨rfl, rfl⟩
          | some now => simp [work, unstarted, isIdle.isPlaying (here now rfl)]
  | _ => exact ⟨rfl, rfl⟩

theorem commanded_of_idle (activity : Activity) :
    ∀ now ∈ world.map activity.commanded, idle now := by
  intro now member
  obtain ⟨before, known, rfl⟩ := Option.map_eq_some_iff.mp member
  have before := here before known
  unfold commanded
  cases activity.command? with
  | none => exact before
  | some command => exact isIdle.perform before command

end Activity

/-! ## Runs in idle worlds -/

theorem Instance.treatedAlike_of_unstarted {inst inst' : Instance}
    (same : inst.unstarted = inst'.unstarted) : inst.TreatedAlike inst' := by
  obtain ⟨id, nextId, activity⟩ := inst
  obtain ⟨id', nextId', activity'⟩ := inst'
  obtain ⟨rfl, rfl, activities⟩ := Instance.mk.injEq .. ▸ same
  rcases Activity.unstarted_cases activities with rfl | ⟨name, waits, _, _, rfl, rfl⟩
  · exact ⟨rfl, rfl, fun _ _ => rfl, fun _ _ => rfl, fun _ _ => rfl, fun _ _ => rfl, rfl⟩
  · exact ⟨rfl, rfl, fun _ _ => rfl, fun _ _ => rfl, fun _ _ => rfl, fun _ _ => rfl, rfl⟩

theorem Instance.kind_of_unstarted {inst inst' : Instance}
    (same : inst.unstarted = inst'.unstarted) : inst.activity.kind = inst'.activity.kind := by
  rw [← Activity.kind_unstarted, ← Activity.kind_unstarted inst'.activity]
  exact congrArg (·.activity.kind) same

theorem Instance.activity_of_unstarted {inst inst' : Instance}
    (same : inst.unstarted = inst'.unstarted) :
    inst.activity.unstarted = inst'.activity.unstarted :=
  congrArg Instance.activity same

theorem Instance.unstarted_changed {inst inst' : Instance}
    (same : inst.unstarted = inst'.unstarted) {change change' : Activity → Activity}
    (activities : (change inst.activity).unstarted = (change' inst'.activity).unstarted) :
    (inst.changed change).unstarted = (inst'.changed change').unstarted := by
  simp only [unstarted, changed, Instance.mk.injEq] at same ⊢
  exact ⟨same.1, same.2.1, activities⟩

/-- Runs of the same graph in idle worlds, up to what dialogues remember. -/
def Correspondence.idle {σ τ : Type} (first : σ → Prop) (second : τ → Prop) :
    Correspondence σ τ where
  worlds world world' := (∀ now ∈ world, first now) ∧ ∀ now ∈ world', second now
  graphs := Eq
  instances inst inst' := inst.unstarted = inst'.unstarted
  types _ := Eq

section Correspondence

variable {σ τ : Type} [World σ] [World τ] {first : σ → Prop} {second : τ → Prop}

theorem Correspondence.faithful_idle (isIdle : World.Idle first) (isIdle' : World.Idle second) :
    (Correspondence.idle first second).Faithful where
  graphId := by
    rintro graph _ rfl
    rfl
  startId := by
    rintro graph _ rfl
    rfl
  named := by
    rintro graph _ rfl
    exact List.forall₂_same.mpr fun _ _ => rfl
  treated := Instance.treatedAlike_of_unstarted
  type same := congrArg NodeKind.type (Instance.kind_of_unstarted same)
  nested same := by
    rw [Instance.kind_of_unstarted same]
    cases Activity.kind _ |>.nested? with
    | none => exact .none
    | some graph => exact .some rfl
  enter := by
    intro inst inst' world world' same worlds
    apply Instance.unstarted_changed same
    rw [Activity.enter_of_idle isIdle worlds.1, Activity.enter_of_idle isIdle' worlds.2,
      Instance.activity_of_unstarted same]
  work := by
    intro inst inst' world world' seconds same worlds
    obtain ⟨work, done⟩ := Activity.work_of_idle isIdle worlds.1 seconds inst.activity
    obtain ⟨work', done'⟩ := Activity.work_of_idle isIdle' worlds.2 seconds inst'.activity
    have activities := Instance.activity_of_unstarted same
    refine ⟨by rw [done, done', activities], Instance.unstarted_changed same ?_⟩
    rw [work, work', activities]
  signalled := by
    intro inst inst' same
    apply Instance.unstarted_changed same
    rw [Activity.signalled_unstarted, Activity.signalled_unstarted,
      Instance.activity_of_unstarted same]
  commanded := by
    intro inst inst' world world' _ worlds
    exact ⟨Activity.commanded_of_idle isIdle worlds.1 inst.activity,
      Activity.commanded_of_idle isIdle' worlds.2 inst'.activity⟩

end Correspondence

theorem Level.Corresponds.unstarted_eq {σ τ : Type} {first : σ → Prop} {second : τ → Prop}
    {left right : Level} (levels : Corresponds (.idle first second) left right) :
    left.unstarted = right.unstarted := by
  have instances : left.unstarted.instances = right.unstarted.instances := by
    apply List.ext_getElem?
    intro index
    simp only [Level.unstarted, List.getElem?_map]
    rcases levels.instance_cases index with ⟨none, none'⟩ | ⟨inst, inst', found, found', same⟩
    · simp [none, none']
    · have same : inst.unstarted = inst'.unstarted := same
      simp [found, found', same]
  obtain ⟨id, graphs, _, current, waits, returns, ticks, enters⟩ := levels
  exact Level.mk.injEq .. ▸ ⟨id, graphs, instances, current, waits, returns, ticks, enters⟩

theorem Run.Corresponds.unstarted_eq {σ τ : Type} {first : σ → Prop} {second : τ → Prop}
    {left right : Run} (runs : Corresponds (.idle first second) left right) :
    left.unstarted = right.unstarted := by
  induction runs with
  | alone levels => exact congrArg Run.alone levels.unstarted_eq
  | hosting levels _ ih => exact congrArg₂ Run.hosting levels.unstarted_eq ih

/-! ## Sessions in idle worlds -/

/-- What the host of a run does when nobody but the run tells the world anything: it ticks the run,
signals triggers to it, or lets time pass in the world. -/
inductive Occasion where
  | tick (seconds : Float32)
  | signal (trigger : String)
  | pass (seconds : Float32)

/-- The operation on a run in a world in which time passes as given. -/
def Occasion.operation {σ : Type} (pass : Float32 → σ → σ) : Occasion → Operation σ
  | .tick seconds => .tick seconds
  | .signal trigger => .signal trigger
  | .pass seconds => .change (pass seconds)

namespace Session

/-- The session of a graph in a world in which time passes as given. -/
def onOccasions {σ : Type} [World σ] (pass : Float32 → σ → σ) (world : Option σ) (id : RunId)
    (graph : Graph) (occasions : List Occasion) : Session σ :=
  after world id graph (occasions.map (·.operation pass))

/-- Sessions show no difference: their runs stand at the same places, were reported in the same way
and wake as many nodes on any signal, and but for what dialogues remember they are the same. -/
structure Indistinguishable {σ τ : Type} (left : Session σ) (right : Session τ) : Prop where
  standings : left.run.standings = right.run.standings
  events : left.events = right.events
  woken : ∀ trigger, (left.run.signal trigger).woken = (right.run.signal trigger).woken
  unstarted : left.run.unstarted = right.run.unstarted

theorem indistinguishable_of_idle {σ τ : Type} [World σ] [World τ] {first : σ → Prop}
    {second : τ → Prop} (isIdle : World.Idle first) (isIdle' : World.Idle second)
    {pass : Float32 → σ → σ} {pass' : Float32 → τ → τ}
    (passes : ∀ seconds world, first world → first (pass seconds world))
    (passes' : ∀ seconds world, second world → second (pass' seconds world))
    {world : Option σ} {world' : Option τ} (here : ∀ now ∈ world, first now)
    (here' : ∀ now ∈ world', second now) (id : RunId) (graph : Graph)
    (occasions : List Occasion) :
    Indistinguishable (onOccasions pass world id graph occasions)
      (onOccasions pass' world' id graph occasions) := by
  have faithful := Correspondence.faithful_idle isIdle isIdle'
  have operations : List.Forall₂ (Operation.Corresponds (.idle first second))
      (occasions.map (·.operation pass)) (occasions.map (·.operation pass')) := by
    simp only [List.forall₂_map_left_iff, List.forall₂_map_right_iff]
    refine List.forall₂_same.mpr fun occasion _ => ?_
    cases occasion with
    | tick seconds => exact .tick seconds
    | signal trigger => exact .signal trigger
    | pass seconds =>
        apply Operation.Corresponds.change
        rintro world world' ⟨here, here'⟩
        constructor
        · intro now member
          obtain ⟨before, known, rfl⟩ := Option.map_eq_some_iff.mp member
          exact passes seconds before (here before known)
        · intro now member
          obtain ⟨before, known, rfl⟩ := Option.map_eq_some_iff.mp member
          exact passes' seconds before (here' before known)
  have graphs : (Correspondence.idle first second).graphs graph graph := rfl
  have sessions := corresponds_after faithful ⟨here, here'⟩ id graphs operations
  constructor
  · apply sessions.runs.standings_eq
    · rintro graph _ rfl
      rfl
    · intro inst inst' same
      have same : inst.unstarted = inst'.unstarted := same
      have ids : inst.unstarted.id = inst'.unstarted.id := congrArg Instance.id same
      exact ⟨ids, congrArg NodeKind.type (Instance.kind_of_unstarted same)⟩
  · exact Event.eq_of_corresponds sessions.events
  · intro trigger
    exact (sessions.runs.signal faithful trigger).2
  · exact sessions.runs.unstarted_eq

/-- Whether there is no world, the empty one, or a scripted one with nothing in its script, a run
goes the same way, whatever its graph and whatever its host does. -/
theorem indistinguishable_without_script (σ : Type) [World σ] (id : RunId) (graph : Graph)
    (occasions : List Occasion) :
    let nowhere := onOccasions (fun _ world => world) (none : Option σ) id graph occasions
    let empty := onOccasions (fun _ world => world) (some EmptyWorld.empty) id graph occasions
    let scripted := onOccasions ScriptedWorld.advance (some (.ofScript .empty)) id graph occasions
    Indistinguishable nowhere empty ∧ Indistinguishable empty scripted := by
  intro nowhere empty scripted
  constructor
  · apply indistinguishable_of_idle (World.idle_none σ) EmptyWorld.idle
    all_goals simp
  · apply indistinguishable_of_idle EmptyWorld.idle ScriptedWorld.idle
    · simp
    · exact fun seconds _ idle => idle.advance seconds
    · simp
    · simpa using ScriptedWorld.isIdle_ofScript_empty

end Session

end SceneFlow
