import SceneFlow.Proofs.Graph.Ordinary
import SceneFlow.Proofs.Run.Visits

/-!
# How long runs can be

Where ordinary edges form no cycle, a run enters no more nodes in a row along them than there are
ids, so it is the detours that count. Each is paid for when a node is left: a Sequence that is left
with a step to run pays for going to the step and for being returned to, and a Loop pays for going
to its body. What the stack holds was paid for and is yet to be taken.
-/

set_option autoImplicit false

namespace SceneFlow

/-- The number of nodes that a node puts on the stack when it is left. -/
def Activity.pushes (activity : Activity) : Nat :=
  if activity.hasStep then 1 else 0

/-- A Loop with a limit is done once it was entered more often than that. -/
theorem Activity.Follows.finished_iff {body : Option String} {limit iteration : UInt32}
    {finished : Bool} {visits : Nat}
    (follows : (Activity.loop body limit iteration finished).Follows visits) :
    finished = true ↔ isEndless limit = false ∧ limit.toNat < visits := by
  obtain ⟨counted, ended⟩ := follows
  have size : UInt32.size = 2 ^ 32 := rfl
  have last : (UInt32.ofNat (UInt32.size - 1)).toNat = UInt32.size - 1 := rfl
  have zero : (0 : UInt32).toNat = 0 := rfl
  have bound := limit.toNat_lt
  rw [ended, Bool.and_eq_true, decide_eq_true_iff, decide_eq_true_iff, isEndless,
    Bool.or_eq_false_iff, decide_eq_false_iff_not, decide_eq_false_iff_not,
    UInt32.lt_iff_toNat_lt, UInt32.lt_iff_toNat_lt, ← UInt32.toNat_inj, ← UInt32.toNat_inj, last,
    zero, counted]
  omega

namespace Instance

variable {inst : Instance} {timesLeft : Nat}

theorem mem_ordinaryTargets_of_next (falls : inst.activity.fallsThrough = true) {id : String}
    (listed : id ∈ inst.next?.toList) : id ∈ inst.node.ordinaryTargets := by
  rcases inst with ⟨ownId, nextId, activity⟩
  cases activity with
  | sequence => cases falls
  | branch => exact List.mem_append_right _ listed
  | loop => exact List.mem_append_right _ listed
  | _ => exact listed

/-- A node pays for what it puts on the stack. -/
theorem pushes_le (follows : inst.activity.Follows (timesLeft + 1)) :
    inst.activity.pushes + inst.node.detoursAfter (timesLeft + 1) ≤
      inst.node.detoursAfter timesLeft := by
  have waiting := follows.hasStep_iff
  unfold Activity.pushes
  split
  next hasStep =>
    obtain ⟨_, inRange⟩ := waiting.mp hasStep
    rcases inst with ⟨id, nextId, activity⟩
    cases activity with
    | sequence steps step =>
        change timesLeft + 1 ≤ steps.length at inRange
        simp only [node, Activity.kind, Node.detoursAfter]
        omega
    | _ => cases hasStep
  next =>
    rw [Nat.zero_add]
    exact inst.node.detoursAfter_anti (Nat.le_succ timesLeft)

/-- A node pays for a detour that it leads to as well. -/
theorem pushes_lt_of_detour (follows : inst.activity.Follows (timesLeft + 1)) {id : String}
    (goes : inst.successor? = some id) (detour : id ∉ inst.node.ordinaryTargets) :
    inst.activity.pushes + inst.node.detoursAfter (timesLeft + 1) <
      inst.node.detoursAfter timesLeft := by
  rcases Option.or_eq_some_iff.mp goes with target | ⟨_, onwards⟩
  · rcases inst with ⟨ownId, nextId, activity⟩
    cases activity with
    | branch conditions targets chosen =>
        obtain ⟨atOption, notEmpty⟩ := Option.filter_eq_some_iff.mp target
        obtain ⟨option, taken, atTarget⟩ := Option.bind_eq_some_iff.mp atOption
        have bound := follows option taken
        have early : id ∈ targets.take conditions.length :=
          List.mem_of_getElem? ((List.getElem?_take_of_lt bound).trans atTarget)
        have listed : id ∈ (targets.take conditions.length).filter (· ≠ "") :=
          List.mem_filter.mpr ⟨early, notEmpty⟩
        exact absurd (List.mem_append_left _ listed) detour
    | sequence steps step =>
        obtain ⟨atStep, _⟩ := Option.filter_eq_some_iff.mp target
        rw [show step = Activity.stepAfter steps (timesLeft + 1) from follows,
          Activity.stepAfter_bind] at atStep
        have bound := (List.getElem?_eq_some_iff.mp atStep).1
        have atMost : (Activity.sequence steps step).pushes ≤ 1 := by
          unfold Activity.pushes
          split <;> omega
        simp only [node, Activity.kind, Node.detoursAfter]
        omega
    | loop body limit iteration finished =>
        cases finished with
        | true => cases target
        | false =>
            cases endless : isEndless limit with
            | true =>
                have listed : id ∈ (nonEmpty? body).toList := Option.mem_toList.mpr target
                rw [Node.ordinaryTargets] at detour
                simp only [node, Activity.kind, endless, if_true] at detour
                exact absurd (List.mem_append_left _ listed) detour
            | false =>
                have bound : ¬ limit.toNat < timesLeft + 1 := fun beyond =>
                  Bool.false_ne_true (follows.finished_iff.mpr ⟨endless, beyond⟩)
                simp only [node, Activity.kind, Node.detoursAfter, endless, Activity.pushes,
                  Activity.hasStep, Bool.false_eq_true, if_false]
                omega
    | _ => cases target
  · split at onwards
    next falls =>
      have listed : id ∈ inst.next?.toList := Option.mem_toList.mpr onwards
      exact absurd (mem_ordinaryTargets_of_next falls listed) detour
    · cases onwards

end Instance

namespace Graph

/-- A visit after which control goes on, and not along an ordinary edge. -/
def IsDetour (graph : Graph) (departure : Departure) : Prop :=
  ∃ next, departure.destination.entered? = some next ∧ ¬ graph.Ordinary departure.index next

open Classical in
/-- How many detours were taken. -/
noncomputable def detoursTaken (graph : Graph) (departures : List Departure) : Nat :=
  departures.countP (graph.IsDetour ·)

open Classical in
theorem detoursTaken_append_singleton (graph : Graph) (departures : List Departure)
    (departure : Departure) :
    graph.detoursTaken (departures ++ [departure]) =
      graph.detoursTaken departures + if graph.IsDetour departure then 1 else 0 := by
  simp only [detoursTaken, List.countP_append, List.countP_singleton, decide_eq_true_eq]

theorem not_isDetour_of_entered?_none {graph : Graph} {departure : Departure}
    (nowhere : departure.destination.entered? = none) : ¬ graph.IsDetour departure := by
  rintro ⟨next, entered, _⟩
  rw [nowhere] at entered
  cases entered

theorem not_isDetour_of_ordinary {graph : Graph} {departure : Departure} {next : Nat}
    (entered : departure.destination.entered? = some next)
    (ordinary : graph.Ordinary departure.index next) : ¬ graph.IsDetour departure := by
  rintro ⟨other, goes, detour⟩
  rw [entered, Option.some.injEq] at goes
  subst goes
  exact detour ordinary

theorem detoursTaken_append_le (graph : Graph) (departures : List Departure)
    (departure : Departure) :
    graph.detoursTaken (departures ++ [departure]) ≤ graph.detoursTaken departures + 1 := by
  rw [detoursTaken_append_singleton]
  split <;> omega

theorem detoursTaken_append_of_not {graph : Graph} {departure : Departure}
    (direct : ¬ graph.IsDetour departure) (departures : List Departure) :
    graph.detoursTaken (departures ++ [departure]) = graph.detoursTaken departures := by
  rw [detoursTaken_append_singleton, if_neg direct, Nat.add_zero]

end Graph

namespace Level

variable {σ : Type} [World σ] {id : RunId} {graph : Graph} {departures : List Departure}
variable {level : Level}

theorem length_pushed (activity : Activity) (index : Nat) (entries : List Nat) :
    (if activity.hasStep then index :: entries else entries).length =
      entries.length + activity.pushes := by
  unfold Activity.pushes
  split <;> rfl

theorem size_enter_le (world : Option σ) (next : Nat) (level : Level) :
    (level.enter world next).returns.size ≤ level.returns.size := by
  cases found : level.instances[next]? with
  | none =>
      simp only [enter, found]
      exact Nat.le_refl _
  | some inst =>
      rw [returns_enter found]
      exact (returnsOnEntry_sublist next inst.activity level.returns).length_le

/-- Detours taken, detours owed to the stack and detours that nodes are still good for never come to
more than all the graph is good for. -/
def DetoursPaid (graph : Graph) (departures : List Departure) (level : Level) : Prop :=
  graph.detoursTaken departures + level.returns.size + graph.detoursLeft (timesLeft departures) ≤
    graph.detours

/-- What a node puts on the stack when it is left is paid for by the node. -/
theorem History.left_pays (history : History σ id graph departures level) {index : Nat}
    (current : level.current = some index) (seconds : Float32) (world : Option σ) :
    (level.left seconds world index).returns.size +
        graph.detoursLeft (timesLeft (departures ++ [level.departure seconds world index])) ≤
      level.returns.size + graph.detoursLeft (timesLeft departures) := by
  obtain ⟨inst, _, atIndex, follows, entries⟩ := history.exists_left current seconds world
  have size := congrArg List.length entries
  rw [length_pushed] at size
  change (level.left seconds world index).returns.size =
    level.returns.size + inst.activity.pushes at size
  have more := timesLeft_le_append departures (level.departure seconds world index)
  have pays := Instance.pushes_le follows
  rw [← timesLeft_append_departure departures seconds world index level, Nat.add_comm] at pays
  have pushed := Graph.detoursLeft_leave atIndex more pays
  omega

/-- So is a detour to the node's successor, besides. -/
theorem History.left_pays_detour (history : History σ id graph departures level) {index next : Nat}
    (current : level.current = some index) (seconds : Float32) (world : Option σ)
    (goes : (level.left seconds world index).destination index = .successor next)
    (detour : ¬ graph.Ordinary index next) :
    (level.left seconds world index).returns.size + 1 +
        graph.detoursLeft (timesLeft (departures ++ [level.departure seconds world index])) ≤
      level.returns.size + graph.detoursLeft (timesLeft departures) := by
  obtain ⟨inst, found, atIndex, follows, entries⟩ := history.exists_left current seconds world
  have sound := history.sound.left current seconds world
  obtain ⟨leading, asked, leads⟩ := sound.successor?_of_successor goes
  rw [history.graph_left] at leads
  rw [successor?, found, Option.bind_some] at asked
  have unlisted : leading ∉ inst.node.ordinaryTargets := fun listed =>
    detour ⟨inst.node, atIndex, leading, listed, leads⟩
  have size := congrArg List.length entries
  rw [length_pushed] at size
  change (level.left seconds world index).returns.size =
    level.returns.size + inst.activity.pushes at size
  have more := timesLeft_le_append departures (level.departure seconds world index)
  have pays := Instance.pushes_lt_of_detour follows asked unlisted
  have once := timesLeft_append_departure departures seconds world index level
  have pushed : graph.detoursLeft (timesLeft (departures ++ [level.departure seconds world index]))
      + (inst.activity.pushes + 1) ≤ graph.detoursLeft (timesLeft departures) := by
    refine Graph.detoursLeft_leave atIndex more ?_
    rw [once]
    omega
  omega

theorem History.detoursPaid_move (history : History σ id graph departures level)
    (paid : DetoursPaid graph departures level) {index : Nat}
    (current : level.current = some index) (seconds : Float32) (world : Option σ) :
    DetoursPaid graph (departures ++ [level.departure seconds world index])
      ((level.left seconds world index).follow world
        (level.departure seconds world index).destination) := by
  have sound := history.sound.left current seconds world
  have pays := history.left_pays current seconds world
  have taken := graph.detoursTaken_append_le departures (level.departure seconds world index)
  unfold DetoursPaid at paid ⊢
  cases goes : (level.departure seconds world index).destination with
  | successor next =>
      have smaller := size_enter_le world next (level.left seconds world index)
      rw [follow]
      by_cases ordinary : graph.Ordinary index next
      · have entered : (level.departure seconds world index).destination.entered? = some next := by
          rw [goes]
          rfl
        rw [Graph.detoursTaken_append_of_not (Graph.not_isDetour_of_ordinary entered ordinary)]
        omega
      · have paysMore := history.left_pays_detour current seconds world goes ordinary
        omega
  | resumption next returns =>
      -- Being returned to is a detour as well, and the entry on top has paid for it.
      have smaller : ((level.left seconds world index).follow world
          (.resumption next returns)).returns.size ≤ returns.entries.length :=
        size_enter_le world next _
      have top := congrArg List.length (sound.entries_of_resumption goes)
      rw [List.length_cons] at top
      change (level.left seconds world index).returns.size = _ at top
      omega
  | ending =>
      have nowhere : (level.departure seconds world index).destination.entered? = none := by
        rw [goes]
        rfl
      rw [Graph.detoursTaken_append_of_not (Graph.not_isDetour_of_entered?_none nowhere)]
      change _ + 0 + _ ≤ _
      omega
  | unresolved missing =>
      have nowhere : (level.departure seconds world index).destination.entered? = none := by
        rw [goes]
        rfl
      rw [Graph.detoursTaken_append_of_not (Graph.not_isDetour_of_entered?_none nowhere)]
      change _ + (level.left seconds world index).returns.size + _ ≤ _
      omega

theorem History.detoursPaid (history : History σ id graph departures level) :
    DetoursPaid graph departures level := by
  induction history with
  | begin world =>
      have fresh := graph.detoursLeft_begin
      have empty : (Level.begin world id graph).returns.size = 0 := by
        unfold Level.begin
        split
        · rfl
        next index found => exact Nat.le_zero.mp (size_enter_le world index (ofGraph id graph))
      have none : graph.detoursTaken [] = 0 := rfl
      unfold DetoursPaid
      rw [empty, none]
      change 0 + 0 + graph.detoursLeft (fun _ => 0) ≤ graph.detours
      omega
  | tick before step ih =>
      cases step with
      | idle => simpa using ih
      | stay =>
          rw [Option.toList_none, List.append_nil]
          exact ih
      | @move seconds index inst current => exact before.detoursPaid_move ih current seconds _
  | signal trigger _ ih =>
      unfold DetoursPaid at ih ⊢
      rw [returns_signal]
      exact ih

end Level

/-- How many more nodes ordinary edges can lead to. -/
noncomputable def Graph.headroom (graph : Graph) : Option Nat → Nat
  | none => 0
  | some index => graph.height index - 1

namespace Level

variable {σ : Type} [World σ] {id : RunId} {graph : Graph} {departures : List Departure}
variable {level : Level}

private theorem History.enters_le_move (history : History σ id graph departures level)
    (acyclic : graph.Acyclic)
    (bound : level.enters + graph.headroom level.current ≤
      graph.idCount * (graph.detoursTaken departures + 1))
    {index : Nat} (current : level.current = some index) (seconds : Float32) (world : Option σ) :
    let departure := level.departure seconds world index
    let after := (level.left seconds world index).follow world departure.destination
    after.enters + graph.headroom after.current ≤
      graph.idCount * (graph.detoursTaken (departures ++ [departure]) + 1) := by
  intro departure after
  have sound := history.sound.left current seconds world
  have sameGraph := history.graph_left seconds world index
  have wins := history.sound.current index current
  rw [history.graph_eq] at wins
  have positive := Graph.height_pos wins
  have enters : after.enters = level.enters + departure.destination.entered?.toList.length := by
    rw [enters_follow, left, enters_leave]
    rfl
  rw [current] at bound
  change level.enters + (graph.height index - 1) ≤ _ at bound
  rw [enters, current_follow]
  cases entered : departure.destination.entered? with
  | none =>
      rw [Graph.detoursTaken_append_of_not (Graph.not_isDetour_of_entered?_none entered)]
      change level.enters + 0 + 0 ≤ _
      omega
  | some next =>
      have nextWins := sound.isWinner_of_entered entered
      rw [sameGraph] at nextWins
      have nextPositive := Graph.height_pos nextWins
      have nextBound := Graph.height_le_idCount nextWins
      change level.enters + 1 + (graph.height next - 1) ≤ _
      by_cases ordinary : graph.Ordinary index next
      · have lower := Graph.height_lt acyclic wins ordinary
        rw [Graph.detoursTaken_append_of_not (Graph.not_isDetour_of_ordinary entered ordinary)]
        omega
      · have detour : graph.IsDetour departure := ⟨next, entered, ordinary⟩
        rw [Graph.detoursTaken_append_singleton, if_pos detour, Nat.mul_succ]
        omega

/-- Between two detours, no more nodes are entered than there are ids. -/
theorem History.enters_le_detoursTaken (history : History σ id graph departures level)
    (acyclic : graph.Acyclic) :
    level.enters + graph.headroom level.current ≤
      graph.idCount * (graph.detoursTaken departures + 1) := by
  induction history with
  | begin world =>
      have current := current_begin world id graph
      have enters := (History.begin world : History σ id graph [] _).enters_eq
      rw [Graph.trail, List.filterMap_nil, List.append_nil] at enters
      rw [current, enters]
      cases found : graph.startIndex? with
      | none => exact Nat.zero_le _
      | some index =>
          have wins := Graph.isWinner_of_startIndex? found
          have positive := Graph.height_pos wins
          have bound := Graph.height_le_idCount wins
          change 1 + (graph.height index - 1) ≤ graph.idCount * (0 + 1)
          omega
  | @tick world departures level after departure before step ih =>
      cases step with
      | idle => simpa using ih
      | stay =>
          rw [Option.toList_none, List.append_nil]
          exact ih
      | @move seconds index inst current =>
          exact before.enters_le_move acyclic ih current seconds world
  | signal trigger _ ih =>
      rw [enters_signal, current_signal]
      exact ih

end Level

/-! ## Runs that never wait -/

/-- Whether every visit of a node ends with the first tick after it began. Dialogue can only be
awaited in a world. -/
def Node.isImmediate (hasWorld : Bool) (node : Node Graph) : Bool :=
  match node.kind with
  | .start | .objective .. | .branch .. | .sequence _ | .loop .. => true
  | .dialogue sequence waits => !waits || sequence.isNone || !hasWorld
  | .subFlow graph => graph.isNone
  | .delay _ | .waitForTrigger _ => false

theorem Activity.done_of_isImmediate {σ : Type} [World σ] {world : Option σ} {inst : Instance}
    (immediate : inst.node.isImmediate world.isSome = true) (seconds : Float32) :
    (inst.activity.work seconds world).2 = true ∧ inst.activity.kind.nested? = none := by
  rcases inst with ⟨id, nextId, activity⟩
  cases activity with
  | dialogue name waits started =>
      cases name with
      | none => exact ⟨rfl, rfl⟩
      | some name =>
          cases world with
          | none => exact ⟨rfl, rfl⟩
          | some world =>
              cases waits with
              | false => exact ⟨rfl, rfl⟩
              | true => cases immediate
  | subFlow graph => exact ⟨rfl, Option.isNone_iff_eq_none.mp immediate⟩
  | delay => cases immediate
  | waitForTrigger => cases immediate
  | _ => exact ⟨rfl, rfl⟩

namespace Level

variable {σ : Type} [World σ] {world : Option σ} {level after : Level}
variable {departure : Option Departure}

/-- A node that does not wait is left in the next tick. -/
theorem TickStep.departed_of_isImmediate (step : TickStep world level departure after)
    {index : Nat} {inst : Instance} (current : level.current = some index)
    (found : level.instances[index]? = some inst)
    (immediate : inst.node.isImmediate world.isSome = true) :
    ∃ departed, departure = some departed ∧ after.current = departed.destination.entered? ∧
      after.enters = level.enters + departed.destination.entered?.toList.length := by
  cases step with
  | idle isOver =>
      rw [current] at isOver
      cases isOver
  | @stay seconds other same currentOther foundOther goesOn =>
      rw [current, Option.some.injEq] at currentOther
      subst currentOther
      rw [found, Option.some.injEq] at foundOther
      subst foundOther
      obtain ⟨done, alone⟩ := Activity.done_of_isImmediate immediate seconds
      have hosts := goesOn done
      rw [alone] at hosts
      cases hosts
  | move =>
      refine ⟨_, rfl, current_follow _ _ _, ?_⟩
      rw [enters_follow, enters_left]

/-- Where no node waits, a tick that does not end the level enters a node. -/
theorem TickStep.enters_of_isImmediate (step : TickStep world level departure after)
    (sound : level.Sound)
    (immediate : ∀ node ∈ level.graph.winners, node.isImmediate world.isSome = true)
    (running : after.current ≠ none) :
    level.current ≠ none ∧ after.enters = level.enters + 1 := by
  have wasRunning : level.current ≠ none := by
    cases step with
    | idle => exact running
    | stay current | move current => exact current ▸ nofun
  obtain ⟨index, current⟩ := Option.ne_none_iff_exists'.mp wasRunning
  obtain ⟨inst, found⟩ := sound.instance_of_current current
  have winner := (sound.current index current).mem_winners (sound.named_of_instance found)
  obtain ⟨departed, _, goesTo, enters⟩ :=
    step.departed_of_isImmediate current found (immediate _ winner)
  rw [goesTo] at running
  obtain ⟨next, entered⟩ := Option.ne_none_iff_exists'.mp running
  rw [entered] at enters
  exact ⟨wasRunning, enters⟩

end Level

namespace Session

variable {σ : Type} [World σ] (world : Option σ) (id : RunId) (graph : Graph)

variable {graph} in
/-- A run that never waits enters a node in each tick until it is over. -/
theorem enters_eq_of_isImmediate
    (immediate : ∀ node ∈ graph.winners, node.isImmediate world.isSome = true)
    (operations : List (Operation σ))
    (running : (after world id graph operations).run.level.current ≠ none) :
    (after world id graph operations).run.level.enters =
      operations.countP Operation.isTick + 1 := by
  induction operations using List.reverseRecOn with
  | nil =>
      have history := Session.history world id graph []
      have begun : (after world id graph []).run.level = Level.begin world id graph :=
        Run.level_start world id graph
      rw [begun, Level.current_begin] at running
      obtain ⟨index, found⟩ := Option.ne_none_iff_exists'.mp running
      rw [history.enters_eq, Graph.trail, found]
      rfl
  | append_singleton operations operation ih =>
      have sound := Session.sound world id graph operations
      rw [after_append] at running ⊢
      rw [List.countP_append, List.countP_singleton]
      cases operation with
      | tick seconds =>
          have step := sound.tickStep seconds ((after world id graph operations).run.tick seconds
            (after world id graph operations).world).world
          have sameWorld := isSome_world world id graph (operations ++ [.tick seconds])
          rw [after_append] at sameWorld
          change (((after world id graph operations).run.tick seconds
            (after world id graph operations).world).world).isSome = world.isSome at sameWorld
          rw [← Session.graph_eq world id graph operations, ← sameWorld] at immediate
          obtain ⟨wasRunning, entered⟩ := step.enters_of_isImmediate sound.level immediate running
          rw [ih wasRunning] at entered
          exact entered
      | signal trigger =>
          change ((after world id graph operations).run.signal trigger).run.level.current ≠ none
            at running
          change ((after world id graph operations).run.signal trigger).run.level.enters = _
          rw [Run.level_signal, Level.current_signal] at running
          rw [Run.level_signal, Level.enters_signal, ih running]
          rfl
      | change become => exact ih running

/-- Where ordinary edges form no cycle, the number of nodes that a run enters is bounded by the
graph alone. If no node ever waits, so is the number of ticks until the run is over. -/
theorem bounded_of_acyclic {graph : Graph} (acyclic : graph.Acyclic) (world : Option σ)
    (id : RunId) (operations : List (Operation σ)) :
    let session := Session.after world id graph operations
    session.run.level.enters ≤ graph.idCount * (graph.detours + 1) ∧
    ((∀ node ∈ graph.winners, node.isImmediate world.isSome = true) →
      graph.idCount * (graph.detours + 1) ≤ operations.countP Operation.isTick →
        session.run.isFinished = true) := by
  have history := Session.history world id graph operations
  have entered := history.enters_le_detoursTaken acyclic
  have paid := history.detoursPaid
  have taken : graph.detoursTaken (after world id graph operations).departures ≤ graph.detours := by
    unfold Level.DetoursPaid at paid
    omega
  have bound : (after world id graph operations).run.level.enters ≤
      graph.idCount * (graph.detours + 1) :=
    calc (after world id graph operations).run.level.enters
      _ ≤ graph.idCount *
          (graph.detoursTaken (after world id graph operations).departures + 1) := by omega
      _ ≤ graph.idCount * (graph.detours + 1) :=
        Nat.mul_le_mul_left _ (Nat.succ_le_succ taken)
  refine ⟨bound, fun immediate enough => ?_⟩
  by_contra unfinished
  have running : (after world id graph operations).run.level.current ≠ none :=
    fun isOver => unfinished (Option.isNone_iff_eq_none.mpr isOver)
  have ticked := enters_eq_of_isImmediate world id immediate operations running
  omega

end Session

/-- A Loop of two rounds, and a Sequence of one step after it. -/
def Graph.rounds : Graph :=
  ⟨"rounds",
    [(Node.start "open").followedBy "round", (Node.loop "round" "work" 2).followedBy "close",
      (Node.start "work").followedBy "round", Node.sequence "close" ["line"], Node.start "line"],
    []⟩

theorem Graph.acyclic_rounds : rounds.Acyclic := by
  let rank : Nat → Nat := fun index => if index = 1 then 1 else if index = 3 then 2 else 0
  have rises : ∀ source target, rounds.Ordinary source target → rank source < rank target := by
    rintro source target ⟨node, atSource, id, listed, leads⟩
    match source, atSource with
    | 0, found =>
        cases found
        cases List.mem_singleton.mp listed
        cases leads
        decide
    | 1, found =>
        cases found
        cases List.mem_singleton.mp listed
        cases leads
        decide
    | 2, found =>
        cases found
        cases List.mem_singleton.mp listed
        cases leads
        decide
    | 3, found =>
        cases found
        cases listed
    | 4, found =>
        cases found
        cases listed
    | _ + 5, found => cases found
  have higher : ∀ source target, Relation.TransGen rounds.Ordinary source target →
      rank source < rank target := by
    intro source target way
    induction way with
    | single edge => exact rises _ _ edge
    | tail _ edge ih => exact ih.trans (rises _ _ edge)
  exact fun index cycle => Nat.lt_irrefl _ (higher index index cycle)

theorem Session.bounded_rounds :
    Graph.rounds.Acyclic ∧ Graph.rounds.idCount * (Graph.rounds.detours + 1) = 25 ∧
      (∀ node ∈ Graph.rounds.winners, node.isImmediate true = true) ∧
      (Session.after (some EmptyWorld.empty) (.outermost 0) Graph.rounds
        (List.replicate 25 (.tick 0))).run.isFinished = true := by
  have bound : Graph.rounds.idCount * (Graph.rounds.detours + 1) = 25 := by decide
  have immediate : ∀ node ∈ Graph.rounds.winners, node.isImmediate true = true := by decide
  refine ⟨Graph.acyclic_rounds, bound, immediate, ?_⟩
  have bounded := Session.bounded_of_acyclic Graph.acyclic_rounds (some EmptyWorld.empty)
    (.outermost 0) (List.replicate 25 (.tick 0))
  exact bounded.2 immediate (bound ▸ by decide)

end SceneFlow
