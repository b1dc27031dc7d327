import SceneFlow.Proofs.Run.Bounds
import SceneFlow.Proofs.Run.Trails

/-!
# Turns

Which way a Loop or a Sequence sends control depends on the number of the visit alone. A Loop takes
turns between its body and what follows it, a Sequence goes through its steps. It does not matter
how control came back to the node: the visits of a run are counted one by one, as they were
reported.
-/

set_option autoImplicit false

namespace SceneFlow

namespace Level

/-- Where control goes with a successor, and where it goes without one. -/
def onward (level : Level) : Option String → Destination
  | some id =>
      match level.graph.index? id with
      | some next => .successor next
      | none => .unresolved id
  | none =>
      match level.returns.entries with
      | [] => .ending
      | next :: rest => .resumption next ⟨rest⟩

theorem Sound.destination_eq_onward {level : Level} (sound : level.Sound) (index : Nat) :
    level.destination index = level.onward (level.successor? index) := by
  rw [sound.destination_eq]
  cases level.successor? index <;> rfl

theorem onward_congr {left right : Level} (graph : left.graph = right.graph)
    (returns : left.returns.entries = right.returns.entries) (successor : Option String) :
    left.onward successor = right.onward successor := by
  unfold onward
  rw [graph, returns]

end Level

/-! ## What a visit leads to -/

namespace Instance

variable {inst : Instance} {visit : Nat}

/-- A Loop goes to its body until it was visited more often than its limit says. -/
theorem successor?_of_loop {body : String} {limit : UInt32}
    (kind : inst.activity.kind = .loop (some body) limit) (named : body ≠ "")
    (follows : inst.activity.Follows visit) :
    inst.successor? =
      if isEndless limit = true ∨ visit ≤ limit.toNat then some body else inst.next? := by
  rcases inst with ⟨id, nextId, activity⟩
  cases activity with
  | loop ownBody ownLimit iteration finished =>
      cases kind
      have isDone : finished = true ↔ ¬ (isEndless limit = true ∨ visit ≤ limit.toNat) := by
        rw [follows.finished_iff, not_or, Bool.not_eq_true, Nat.not_le]
      have target : nonEmpty? (some body) = some body := by simp [nonEmpty?, named]
      cases finished with
      | false =>
          rw [if_pos (Decidable.not_not.mp (mt isDone.mpr Bool.false_ne_true))]
          simp [successor?, Activity.target?, target]
      | true =>
          rw [if_neg (isDone.mp rfl)]
          simp [successor?, Activity.target?, Activity.fallsThrough]
  | _ => cases kind

end Instance

/-! ## Visits in a session -/

namespace Level

variable {σ : Type} [World σ] {level : Level} {events : List Event} {departures : List Departure}

/-- A node was reported to be entered once more than it was left, while it has control. -/
theorem Told.count_eq (told : level.Told σ events departures) {index : Nat} {inst : Instance}
    (current : level.current = some index) (found : level.instances[index]? = some inst) :
    ((Run.own level.id events).filterMap Event.enteredNode?).count inst.id =
      timesLeft departures index + 1 := by
  have history := told.history
  obtain ⟨node, atIndex, resolved⟩ := history.sound.current index current
  have same : inst.node = node :=
    Option.some.inj ((history.sound.named_of_instance found).symm.trans atIndex)
  have matching : ∀ other ∈ level.graph.trail departures,
      (level.graph.named[other]?.map (·.id) = some inst.id ↔ other = index) := by
    intro other entered
    obtain ⟨winner, atOther, leads⟩ := history.isWinner_of_mem_trail entered
    rw [atOther, Option.map_some, Option.some.injEq]
    constructor
    · intro sameId
      rw [← same, show inst.node.id = winner.id from sameId.symm, leads,
        Option.some.injEq] at resolved
      exact resolved
    · rintro rfl
      rw [atIndex, Option.some.injEq] at atOther
      rw [← atOther, ← same]
      rfl
  rw [told.trail, ← history.visits_of_current current, Graph.visits, Graph.idsAt, List.count,
    List.countP_filterMap, List.count]
  refine List.countP_congr fun other entered => ?_
  have matching := matching other entered
  cases atOther : level.graph.named[other]? with
  | none => simpa [atOther] using matching
  | some winner => simpa [atOther] using matching

end Level

/-- How a visit with a number ends in a tick: what the node has come to by then, what it leaves on
the stack, and where control goes. -/
structure Run.TurnEnds {σ : Type} [World σ] (run : Run) (inst : Instance) (visit : Nat)
    (seconds : Float32) (now : Option σ) (departure : Departure) (last : Instance) : Prop where
  departed : run.departure? seconds now = some departure
  current : run.level.current = some departure.index
  node : last.node = inst.node
  follows : last.activity.Follows visit
  returns : (run.level.left seconds now departure.index).returns.entries =
    if visit ≤ inst.activity.kind.steps.length then departure.index :: run.level.returns.entries
    else run.level.returns.entries
  destination : departure.destination =
    (run.level.left seconds now departure.index).onward last.successor?
  goesTo : (run.advance seconds now).1.level.current = departure.destination.entered?

namespace Session

variable {σ : Type} [World σ] (world : Option σ) (id : RunId) (graph : Graph)

variable {graph} in
theorem exists_current (operations : List (Operation σ)) {index : Nat} {node : Node Graph}
    (current : (after world id graph operations).run.level.current = some index)
    (atIndex : graph.named[index]? = some node) :
    ∃ inst, (after world id graph operations).run.level.instances[index]? = some inst ∧
      (after world id graph operations).run.level.current? = some inst ∧ inst.node = node := by
  have sound := (sound world id graph operations).level
  obtain ⟨inst, found⟩ := sound.instance_of_current current
  have named := sound.named_of_instance found
  rw [graph_eq, atIndex, Option.some.injEq] at named
  exact ⟨inst, found, Level.current?_of_found current found, named.symm⟩

/-- What a node that never waits has come to and leads to follows from the number of its visit. -/
theorem turn_of_current (operations : List (Operation σ)) {nested : Run} {inst : Instance}
    (member : nested ∈ (after world id graph operations).run.chain)
    (current : nested.level.current? = some inst)
    (immediate : ∀ hasWorld, inst.node.isImmediate hasWorld = true) :
    let visit := ((after world id graph operations).enteredBy nested.level.id).count inst.id
    0 < visit ∧ inst.activity.Follows visit ∧
    ∀ (seconds : Float32) (now : Option σ), ∃ departure last,
      nested.TurnEnds inst visit seconds now departure last := by
  intro visit
  have sound := (Session.sound world id graph operations).of_mem_chain member
  obtain ⟨departures, told⟩ := told_of_mem_chain world id graph operations member
  obtain ⟨index, current, found⟩ := Option.bind_eq_some_iff.mp current
  have history := told.history
  have counted : visit = timesLeft departures index + 1 := told.count_eq current found
  have follows := history.follows index inst found
  rw [history.visits_of_current current, ← counted] at follows
  refine ⟨by omega, follows, fun seconds now => ?_⟩
  obtain ⟨departure, departed, goesTo, _⟩ :=
    (sound.tickStep seconds now).departed_of_isImmediate current found (immediate _)
  obtain ⟨other, currentOther, rfl⟩ := Run.departure_of_departure? departed
  cases current.symm.trans currentOther
  obtain ⟨last, foundLast, atIndex, followsLast, entries⟩ := history.exists_left current seconds now
  have named := history.sound.named_of_instance found
  have node : last.node = inst.node := Option.some.inj (atIndex.symm.trans named)
  have steps : last.activity.kind.steps = inst.activity.kind.steps :=
    congrArg (fun node : Node Graph => node.kind.steps) node
  rw [← counted] at followsLast
  have waiting := followsLast.hasStep_iff
  rw [steps] at waiting
  refine ⟨_, last, departed, current, node, followsLast, ?_, ?_, goesTo⟩
  · refine entries.trans ?_
    by_cases more : visit ≤ inst.activity.kind.steps.length
    · rw [if_pos more, if_pos (waiting.mpr ⟨by omega, more⟩)]
      rfl
    · rw [if_neg more, if_neg (fun hasStep => more (waiting.mp hasStep).2)]
  · have destination := (history.sound.left current seconds now).destination_eq_onward index
    rw [Level.successor?, foundLast, Option.bind_some] at destination
    exact destination

/-- A Loop node with a body sends control there for as many visits as its limit says, and then to
the node that follows in the graph. Loops with the least and with the greatest limit never stop
doing so. All visits of a run count, however control came back. -/
theorem loops_run_body (operations : List (Operation σ)) {nested : Run} {inst : Instance}
    {body : String} {limit : UInt32}
    (member : nested ∈ (after world id graph operations).run.chain)
    (current : nested.level.current? = some inst)
    (kind : inst.activity.kind = .loop (some body) limit) (named : body ≠ "") :
    let visit := ((after world id graph operations).enteredBy nested.level.id).count inst.id
    let successor :=
      if isEndless limit = true ∨ visit ≤ limit.toNat then some body else inst.next?
    0 < visit ∧ inst.successor? = successor ∧
    ∀ (seconds : Float32) (now : Option σ), ∃ departure,
      nested.departure? seconds now = some departure ∧
      nested.level.current = some departure.index ∧
      departure.destination = nested.level.onward successor ∧
      (nested.advance seconds now).1.level.current = departure.destination.entered? := by
  intro visit successor
  have immediate : ∀ hasWorld, inst.node.isImmediate hasWorld = true := by
    intro hasWorld
    simp only [Node.isImmediate, show inst.node.kind = .loop (some body) limit from kind]
  obtain ⟨visited, follows, ends⟩ := turn_of_current world id graph operations member current
    immediate
  refine ⟨visited, Instance.successor?_of_loop kind named follows, fun seconds now => ?_⟩
  obtain ⟨departure, last, turn⟩ := ends seconds now
  refine ⟨departure, turn.departed, turn.current, ?_, turn.goesTo⟩
  have kindLast : last.activity.kind = .loop (some body) limit :=
    (congrArg Node.kind turn.node).trans kind
  have nextLast : last.next? = inst.next? := congrArg Node.next? turn.node
  have noSteps : inst.activity.kind.steps = [] := by rw [kind]; rfl
  have returns := turn.returns
  rw [noSteps, List.length_nil, if_neg (Nat.not_le_of_lt visited)] at returns
  rw [turn.destination, Instance.successor?_of_loop kindLast named turn.follows, nextLast]
  exact Level.onward_congr (Level.graph_left seconds now _ _) returns _

theorem loops_run_body_rounds :
    let session := after (some EmptyWorld.empty) (.outermost 0) Graph.rounds
      (List.replicate 5 (.tick 0))
    ∃ inst, session.run.level.current? = some inst ∧
      inst.activity.kind = .loop (some "work") 2 ∧
      (session.enteredBy session.run.level.id).count inst.id = 3 ∧
      inst.successor? = some "close" := by
  intro session
  have counted : (session.enteredBy session.run.level.id).count "round" = 3 := by decide +kernel
  have atRound : session.run.level.current = some 1 := by decide +kernel
  obtain ⟨inst, _, current, node⟩ :=
    exists_current (some EmptyWorld.empty) (.outermost 0) _ atRound rfl
  have kind : inst.activity.kind = .loop (some "work") 2 := congrArg Node.kind node
  have sameId : inst.id = "round" := congrArg Node.id node
  have follows : inst.next? = some "close" := congrArg Node.next? node
  obtain ⟨_, successor, _⟩ := loops_run_body (some EmptyWorld.empty) (.outermost 0) Graph.rounds
    (List.replicate 5 (.tick 0)) (Run.mem_chain_self session.run) current kind (by decide)
  rw [sameId, follows] at successor
  change inst.successor? =
    if _ ∨ (session.enteredBy session.run.level.id).count "round" ≤ _ then _ else _ at successor
  rw [counted, if_neg (by decide)] at successor
  exact ⟨inst, current, kind, sameId ▸ counted, successor⟩

end Session

/-- A Loop that is its own body, with the greatest limit that there is. -/
def Graph.tireless : Graph :=
  ⟨"tireless", [Node.loop "again" "again" (UInt32.ofNat (UInt32.size - 1))], []⟩

namespace Session

theorem current_of_tireless (ticks : Nat) :
    let session := after (none : Option EmptyWorld) (.outermost 0) Graph.tireless
      (List.replicate ticks (.tick 0))
    session.run.level.current = some 0 ∧ timesLeft session.departures 0 = ticks := by
  induction ticks with
  | zero =>
      constructor
      · decide +kernel
      · rfl
  | succ ticks ih =>
      obtain ⟨current, left⟩ := ih
      rw [List.replicate_succ', after_append]
      generalize List.replicate ticks (.tick 0 : Operation EmptyWorld) = operations
        at current left ⊢
      obtain ⟨inst, _, isCurrent, node⟩ :=
        exists_current none (.outermost 0) operations current rfl
      have turns := turn_of_current none (.outermost 0) Graph.tireless operations
        (Run.mem_chain_self _) isCurrent (fun hasWorld => by rw [node]; rfl)
      obtain ⟨departure, last, turn⟩ := turns.2.2 0
        ((after none (.outermost 0) Graph.tireless operations).run.tick 0
          (after none (.outermost 0) Graph.tireless operations).world).world
      have kind := congrArg Node.kind (turn.node.trans node)
      have successor := Instance.successor?_of_loop kind (by decide) turn.follows
      rw [if_pos (.inl (by decide))] at successor
      have destination := turn.destination
      rw [successor, Level.onward, Level.graph_left, graph_eq] at destination
      have again : departure.destination = .successor 0 := destination.trans (by rfl)
      have goesTo := turn.goesTo
      rw [again] at goesTo
      have same : departure.index = 0 := by
        rw [← Option.some.injEq, ← turn.current, current]
      refine ⟨goesTo, ?_⟩
      rw [perform, turn.departed, Option.toList_some, timesLeft_append_singleton, left, if_pos same]

/-- A Loop counts its visits up to the greatest limit and no further, so that this limit is never
exceeded. -/
theorem tireless_goes_on (ticks : Nat) :
    let session := after (none : Option EmptyWorld) (.outermost 0) Graph.tireless
      (List.replicate ticks (.tick 0))
    ∃ inst, session.run.level.current? = some inst ∧
      inst.activity.kind = .loop (some "again") (UInt32.ofNat (UInt32.size - 1)) ∧
      (session.enteredBy session.run.level.id).count inst.id = ticks + 1 ∧
      inst.next? = none ∧ inst.successor? = some "again" := by
  obtain ⟨current, left⟩ := current_of_tireless ticks
  generalize List.replicate ticks (.tick 0 : Operation EmptyWorld) = operations at current left ⊢
  obtain ⟨inst, found, isCurrent, node⟩ :=
    exists_current none (.outermost 0) operations current rfl
  have told := told none (.outermost 0) Graph.tireless operations
  have follows := told.history.follows 0 inst found
  have kind := congrArg Node.kind node
  have successor := Instance.successor?_of_loop kind (by decide) follows
  rw [if_pos (.inl (by decide))] at successor
  refine ⟨inst, isCurrent, kind, ?_, congrArg Node.next? node, successor⟩
  rw [enteredBy, told.count_eq current found, left]

theorem greatest_limit_is_never_exceeded :
    let session := after (none : Option EmptyWorld) (.outermost 0) Graph.tireless
      (List.replicate UInt32.size (.tick 0))
    ∃ inst, session.run.level.current? = some inst ∧
      inst.activity.kind = .loop (some "again") (UInt32.ofNat (UInt32.size - 1)) ∧
      (session.enteredBy session.run.level.id).count inst.id = UInt32.size + 1 ∧
      inst.next? = none ∧ inst.successor? = some "again" :=
  tireless_goes_on UInt32.size

variable {σ : Type} [World σ] (world : Option σ) (id : RunId) (graph : Graph)

/-- A Sequence node goes through its steps, one at each visit. It puts itself on the stack as long
as there is a step, so a step without an id brings control back at once. After the last step its
chain ends. -/
theorem sequences_hand_out_steps (operations : List (Operation σ)) {nested : Run}
    {inst : Instance} {steps : List String}
    (member : nested ∈ (after world id graph operations).run.chain)
    (current : nested.level.current? = some inst)
    (kind : inst.activity.kind = .sequence steps) (withSteps : steps ≠ []) :
    let visit := ((after world id graph operations).enteredBy nested.level.id).count inst.id
    0 < visit ∧ inst.activity = .sequence steps (some (min (visit - 1) steps.length)) ∧
    ∀ (seconds : Float32) (now : Option σ), ∃ departure,
      nested.departure? seconds now = some departure ∧
      nested.level.current = some departure.index ∧
      (nested.level.left seconds now departure.index).returns.entries =
        (if visit ≤ steps.length then departure.index :: nested.level.returns.entries
        else nested.level.returns.entries) ∧
      departure.destination =
        (match steps[visit - 1]? with
        | none => nested.level.onward none
        | some step =>
            if step = "" then .resumption departure.index nested.level.returns
            else nested.level.onward (some step)) ∧
      (nested.advance seconds now).1.level.current = departure.destination.entered? := by
  have immediate : ∀ hasWorld, inst.node.isImmediate hasWorld = true := by
    intro hasWorld
    simp only [Node.isImmediate, show inst.node.kind = .sequence steps from kind]
  have turns := turn_of_current world id graph operations member current immediate
  generalize ((after world id graph operations).enteredBy nested.level.id).count inst.id = visit
    at turns ⊢
  obtain ⟨visited, follows, ends⟩ := turns
  obtain ⟨earlier, rfl⟩ : ∃ earlier, visit = earlier + 1 := Nat.exists_eq_add_one.mpr visited
  refine ⟨visited, ?_, fun seconds now => ?_⟩
  · rw [follows.eq_sequence kind, Activity.stepAfter_of_ne_nil withSteps, Nat.add_sub_cancel]
  · obtain ⟨departure, last, turn⟩ := ends seconds now
    have kindLast : last.activity.kind = .sequence steps :=
      (congrArg Node.kind turn.node).trans kind
    have ownSteps : inst.activity.kind.steps = steps := by rw [kind]; rfl
    have returns := turn.returns
    rw [ownSteps] at returns
    refine ⟨departure, turn.departed, turn.current, returns, ?_, turn.goesTo⟩
    rw [turn.destination, Instance.successor?_of_sequence kindLast turn.follows,
      Nat.add_sub_cancel]
    cases atVisit : steps[earlier]? with
    | none =>
        have beyond : ¬ earlier + 1 ≤ steps.length := by
          have := List.getElem?_eq_none_iff.mp atVisit
          omega
        rw [if_neg beyond] at returns
        exact Level.onward_congr (Level.graph_left seconds now _ _) returns none
    | some step =>
        have inRange : earlier + 1 ≤ steps.length := by
          have := (List.getElem?_eq_some_iff.mp atVisit).1
          omega
        rw [if_pos inRange] at returns
        by_cases isEmpty : step = ""
        · have nothing : nonEmpty? (some step) = none := by simp [nonEmpty?, isEmpty]
          dsimp only
          rw [nothing, if_pos isEmpty, Level.onward, returns]
        · have named : nonEmpty? (some step) = some step := by simp [nonEmpty?, isEmpty]
          dsimp only
          rw [named, if_neg isEmpty, Level.onward, Level.graph_left]
          rfl

end Session

/-- A Sequence whose second step has no id, with a node behind it that it never goes to. -/
def Graph.pausedActs : Graph :=
  ⟨"acts", [(Node.sequence "acts" ["line", ""]).followedBy "never", Node.start "line",
    Node.start "never"], []⟩

theorem Session.sequences_hand_out_steps_paused :
    let session := after (none : Option EmptyWorld) (.outermost 0) Graph.pausedActs
      (List.replicate 2 (.tick 0))
    ∃ inst, session.run.level.current? = some inst ∧
      inst.activity = .sequence ["line", ""] (some 1) ∧
      ∃ departure, session.run.departure? 0 session.world = some departure ∧
        departure.destination = .resumption departure.index session.run.level.returns := by
  intro session
  have counted : (session.enteredBy session.run.level.id).count "acts" = 2 := by decide +kernel
  have atActs : session.run.level.current = some 0 := by decide +kernel
  obtain ⟨inst, _, current, node⟩ := exists_current none (.outermost 0) _ atActs rfl
  have kind : inst.activity.kind = .sequence ["line", ""] := congrArg Node.kind node
  have sameId : inst.id = "acts" := congrArg Node.id node
  obtain ⟨_, activity, ends⟩ := sequences_hand_out_steps (none : Option EmptyWorld) (.outermost 0)
    Graph.pausedActs (List.replicate 2 (.tick 0)) (Run.mem_chain_self session.run) current kind
    (by decide)
  obtain ⟨departure, departed, _, _, destination, _⟩ := ends 0 session.world
  rw [sameId] at activity destination
  change inst.activity = .sequence _ (some (min
    ((session.enteredBy session.run.level.id).count "acts" - 1) _)) at activity
  change departure.destination =
    match ["line", ""][(session.enteredBy session.run.level.id).count "acts" - 1]? with
    | none => _
    | some step => if step = "" then _ else _ at destination
  rw [counted] at activity destination
  exact ⟨inst, current, activity, departure, departed, destination⟩

end SceneFlow
