import SceneFlow.Proofs.Run.Trails

/-!
# What a run that is over leaves behind

A run ends in one of two ways. Its last node asks for an id that no node has, or there is nothing
more to return to. The return stack holds every Sequence with a step to run, so in the second case
each Sequence that was ever entered has run all of its steps, in whatever order control came to it.
-/

set_option autoImplicit false

namespace SceneFlow

/-- The node that was left asks for an id that no node of the graph has. -/
def Departure.Misses (departure : Departure) (graph : Graph) : Prop :=
  ∃ missing, departure.destination = .unresolved missing ∧ missing ≠ "" ∧
    graph.index? missing = none

theorem Activity.target?_ne_empty {activity : Activity} {id : String}
    (goes : activity.target? = some id) : id ≠ "" := by
  cases activity with
  | branch | sequence => exact ne_empty_of_nonEmpty? goes
  | loop body limit iteration finished =>
      cases finished with
      | true => cases goes
      | false => exact ne_empty_of_nonEmpty? goes
  | _ => cases goes

/-- No node asks for the empty id. -/
theorem Instance.successor?_ne_empty {inst : Instance} {id : String}
    (asked : inst.successor? = some id) : id ≠ "" := by
  rcases Option.or_eq_some_iff.mp asked with target | ⟨_, onwards⟩
  · exact Activity.target?_ne_empty target
  · split at onwards
    · exact ne_empty_of_nonEmpty? onwards
    · cases onwards

/-- A Sequence that was visited and has no step to run has run them all. -/
theorem Activity.Follows.isComplete {activity : Activity} {visits : Nat}
    (follows : activity.Follows visits) (visited : 0 < visits)
    (withSteps : activity.kind.steps ≠ []) (idle : activity.hasStep = false) :
    activity.isComplete = true := by
  cases activity with
  | sequence steps step =>
      change steps ≠ [] at withSteps
      obtain ⟨before, rfl⟩ := Nat.exists_eq_succ_of_ne_zero (Nat.ne_of_gt visited)
      have reached : step = stepAfter steps (before + 1) := follows
      rw [stepAfter_of_ne_nil withSteps] at reached
      subst reached
      simpa [hasStep, Activity.isComplete] using idle
  | _ => exact absurd rfl withSteps

theorem Node.steps_ne_nil_of_hasSteps {node : Node Graph} (withSteps : node.hasSteps = true) :
    node.kind.steps ≠ [] := by
  unfold hasSteps at withSteps
  split at withSteps
  next steps kind =>
    rw [kind]
    change steps ≠ []
    simpa using withSteps
  · cases withSteps

namespace Level

variable {σ : Type} [World σ] {level : Level} {id : RunId} {graph : Graph}
  {departures : List Departure}

/-- Nothing is left to return to, and each Sequence with steps among the entered nodes has run all
of them. -/
structure Completed (entered : List String) (level : Level) : Prop where
  returns : level.returns.size = 0
  sequences : ∀ (index : Nat) (inst : Instance), level.instances[index]? = some inst →
    level.graph.index? inst.id = some index → inst.node.hasSteps = true → inst.id ∈ entered →
      inst.activity.isComplete = true

theorem Sound.misses_of_unresolved (sound : level.Sound) {index : Nat} {missing : String}
    (goes : level.destination index = .unresolved missing) :
    missing ≠ "" ∧ level.graph.index? missing = none := by
  rw [sound.destination_eq] at goes
  split at goes
  next asked =>
    split at goes
    · cases goes
    next unknown =>
      cases goes
      obtain ⟨inst, _, successor⟩ := Option.bind_eq_some_iff.mp asked
      exact ⟨Instance.successor?_ne_empty successor, unknown⟩
  · split at goes <;> cases goes

/-- A level that is over has missed a node with its last departure, or its stack is empty. -/
theorem History.misses_or_returns (history : History σ id graph departures level)
    (isOver : level.current = none) :
    (∃ last, departures.getLast? = some last ∧ last.Misses graph) ∨
      level.returns.entries = [] := by
  induction history with
  | begin world =>
      rw [current_begin] at isOver
      refine .inr ?_
      unfold Level.begin
      rw [isOver]
      rfl
  | @tick world departures level after departure before step ih =>
      cases step with
      | idle =>
          rw [Option.toList_none, List.append_nil]
          exact ih isOver
      | stay current =>
          have goesOn := current.symm.trans isOver
          cases goesOn
      | @move seconds index inst current =>
          have left := before.sound.left current seconds world
          rw [current_follow] at isOver
          cases goes : (level.departure seconds world index).destination with
          | successor | resumption =>
              rw [goes] at isOver
              cases isOver
          | ending => exact .inr rfl
          | unresolved missing =>
              have misses := left.misses_of_unresolved goes
              rw [before.graph_left] at misses
              exact .inl ⟨_, List.getLast?_concat .., missing, goes, misses⟩
  | signal trigger _ ih =>
      rw [current_signal] at isOver
      rw [returns_signal]
      exact ih isOver

/-- Of the nodes with an id, the one that the id stands for was entered. -/
theorem History.mem_trail_of_id (history : History σ id graph departures level) {index : Nat}
    {name : String} (found : graph.index? name = some index)
    (entered : name ∈ graph.idsAt (graph.trail departures)) : index ∈ graph.trail departures := by
  obtain ⟨other, onTrail, same⟩ := List.mem_filterMap.mp entered
  obtain ⟨node, atOther, rfl⟩ := Option.map_eq_some_iff.mp same
  obtain ⟨winner, atWinner, resolved⟩ := history.isWinner_of_mem_trail onTrail
  have sameNode : winner = node := Option.some.inj (atWinner.symm.trans atOther)
  rw [sameNode, found, Option.some.injEq] at resolved
  exact resolved ▸ onTrail

/-- Without control and without anything on the stack, no Sequence has a step to run. -/
theorem History.completed (history : History σ id graph departures level)
    (isOver : level.current = none) (empty : level.returns.entries = []) :
    level.Completed (graph.idsAt (graph.trail departures)) where
  returns := by rw [ReturnStack.size, empty]; rfl
  sequences index inst found resolved withSteps entered := by
    rw [history.graph_eq] at resolved
    have visited : 0 < graph.visits departures index :=
      List.count_pos_iff.mpr (history.mem_trail_of_id resolved entered)
    have idle : ¬ level.HasStepAt index := fun waiting => by
      have member := (history.stackKept.mem_iff index).mpr ⟨waiting, isOver ▸ nofun⟩
      rw [empty] at member
      cases member
    rw [Level.hasStepAt_iff found, Bool.not_eq_true] at idle
    exact (history.follows index inst found).isComplete visited
      (Node.steps_ne_nil_of_hasSteps withSteps) idle

/-- Without a first node no visit ever begins or ends. -/
theorem History.departures_eq_nil (history : History σ id graph departures level)
    (missing : graph.startIndex? = none) : level.current = none ∧ departures = [] := by
  induction history with
  | begin world => exact ⟨(current_begin world id graph).trans missing, rfl⟩
  | tick before step ih =>
      obtain ⟨isOver, rfl⟩ := ih
      cases step with
      | idle => exact ⟨isOver, rfl⟩
      | stay current | move current =>
          have goesOn := current.symm.trans isOver
          cases goesOn
  | signal trigger _ ih => exact ⟨(current_signal trigger _).trans ih.1, ih.2⟩

theorem Told.misses_or_completed {events : List Event} (told : level.Told σ events departures)
    (isOver : level.current = none) :
    (∃ last, departures.getLast? = some last ∧ last.Misses level.graph) ∨
      level.Completed ((Run.own level.id events).filterMap Event.enteredNode?) := by
  rw [told.trail]
  exact (told.history.misses_or_returns isOver).imp_right (told.history.completed isOver)

end Level

namespace Session

variable {σ : Type} [World σ] (world : Option σ) (id : RunId) (graph : Graph)

/-- If the run of a session is over, then its last node has asked for an id that no node has, or
nothing is left to return to and each Sequence with steps that was ever entered has run them all. A
hosted run that is over is found in a session only if its graph has no first node, and it has never
entered one. All other hosted runs end in a tick, and so does the outermost one: in one of the two
ways again. -/
theorem finished_runs_are_complete (operations : List (Operation σ)) :
    let session := after world id graph operations
    (session.run.isFinished = true →
      (∃ last, session.departures.getLast? = some last ∧ last.Misses graph) ∨
        session.run.level.Completed (session.enteredBy id)) ∧
    (∀ nested ∈ session.run.hosted, nested.isFinished = true →
      nested.level.Completed (session.enteredBy nested.level.id)) ∧
    ∀ nested ∈ session.run.chain, ∀ seconds : Float32,
      let ticked := session.perform (.tick seconds)
      let later := (nested.advance seconds ticked.world).1
      nested.isFinished = false → later.isFinished = true →
        ∃ last, nested.departure? seconds ticked.world = some last ∧
          (last.Misses nested.level.graph ∨
            later.level.Completed (ticked.enteredBy nested.level.id)) := by
  intro session
  refine ⟨fun isOver => ?_, fun nested member isOver => ?_, fun nested member seconds => ?_⟩
  · have told := told world id graph operations
    have ended := told.misses_or_completed (Option.isNone_iff_eq_none.mp isOver)
    rw [id_eq, graph_eq] at ended
    exact ended
  · obtain ⟨departures, told⟩ := told_of_mem_hosted world id graph operations member
    have missing := startIndex?_of_mem_hosted world id graph operations member isOver
    obtain ⟨noControl, noDepartures⟩ := told.history.departures_eq_nil missing
    rcases told.misses_or_completed noControl with ⟨last, found, _⟩ | completed
    · rw [noDepartures] at found
      cases found
    · exact completed
  · intro ticked later running isOver
    have sound : session.run.Sound := sound world id graph operations
    have innerSound := sound.of_mem_chain member
    obtain ⟨departures, told⟩ := told_of_mem_chain world id graph operations member
    have wasRunning : nested.level.current ≠ none := by
      intro none
      rw [Run.isFinished, Level.isFinished, none] at running
      cases running
    have noControl : later.level.current = none := Option.isNone_iff_eq_none.mp isOver
    have step := innerSound.tickStep seconds ticked.world
    obtain ⟨last, departed, _⟩ := step.departed_of_over wasRunning noControl
    have toldLater := innerSound.told_advance told seconds ticked.world
      (sound.own_of_mem_chain member seconds ticked.world)
    have ended := toldLater.misses_or_completed noControl
    rw [departed, Option.toList_some, List.getLast?_concat, step.id_eq, step.graph_eq] at ended
    refine ⟨last, departed, ended.imp_left ?_⟩
    rintro ⟨other, same, misses⟩
    cases same
    exact misses

end Session

end SceneFlow
