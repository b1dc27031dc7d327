import SceneFlow.Proofs.Run.Commands
import SceneFlow.Proofs.Run.Correspondence
import SceneFlow.World.Scripted

/-!
# Empty ids

An empty id is no id. Where a node names the one that comes next, or a Loop its body, nothing can
tell an empty id from a missing one, at any depth and in any world. With the sequence of a Dialogue
node it is so only as long as there is no world: a world is told to play the sequence with the empty
name, and decides when that ends.
-/

set_option autoImplicit false

namespace SceneFlow

/-! ## Graphs without empty ids -/

namespace Graph

section Cleared

variable (sequences : Bool)

mutual

/-- The graph with empty ids taken out where a node or a body is named, at every depth, and empty
names of sequences as well if `sequences` is set. -/
def cleared : Graph → Graph
  | ⟨id, nodes, slots⟩ => ⟨id, clearedNodes nodes, slots⟩

def clearedNodes : List (Node Graph) → List (Node Graph)
  | [] => []
  | node :: rest => clearedNode node :: clearedNodes rest

def clearedNode : Node Graph → Node Graph
  | ⟨id, nextId, kind⟩ => ⟨id, nonEmpty? nextId, clearedKind kind⟩

def clearedKind : NodeKind Graph → NodeKind Graph
  | .dialogue name waits => .dialogue (if sequences then nonEmpty? name else name) waits
  | .subFlow graph => .subFlow (clearedNested graph)
  | .loop body limit => .loop (nonEmpty? body) limit
  | .start => .start
  | .delay seconds => .delay seconds
  | .waitForTrigger trigger => .waitForTrigger trigger
  | .objective goal action => .objective goal action
  | .branch conditions targets => .branch conditions targets
  | .sequence steps => .sequence steps

def clearedNested : Option Graph → Option Graph
  | none => none
  | some graph => some (cleared graph)

end

@[simp] theorem clearedNodes_eq_map (nodes : List (Node Graph)) :
    clearedNodes sequences nodes = nodes.map (clearedNode sequences) := by
  induction nodes with
  | nil => rfl
  | cons node rest ih => simp [clearedNodes, ih]

@[simp] theorem clearedNested_eq_map (graph : Option Graph) :
    clearedNested sequences graph = graph.map (cleared sequences) := by
  cases graph <;> rfl

@[simp] theorem id_clearedNode (node : Node Graph) : (clearedNode sequences node).id = node.id := by
  cases node
  rfl

@[simp] theorem id_cleared (graph : Graph) : (graph.cleared sequences).id = graph.id := by
  cases graph
  rfl

theorem nodes_cleared (graph : Graph) :
    (graph.cleared sequences).nodes = graph.nodes.map (clearedNode sequences) := by
  cases graph
  exact clearedNodes_eq_map sequences _

theorem named_cleared (graph : Graph) :
    (graph.cleared sequences).named = graph.named.map (clearedNode sequences) := by
  rw [named, nodes_cleared, List.filter_map]
  exact congrArg _ (List.filter_congr fun node _ => by simp)

theorem start?_cleared (graph : Graph) :
    (graph.cleared sequences).start? = graph.start?.map (clearedNode sequences) := by
  simp [start?, nodes_cleared]

end Cleared

end Graph

theorem nonEmpty?_nonEmpty? (id : Option String) : nonEmpty? (nonEmpty? id) = nonEmpty? id := by
  cases id with
  | none => rfl
  | some id => by_cases empty : id = "" <;> simp [nonEmpty?, Option.filter, empty]

/-! ## Activities without empty ids -/

def Activity.cleared (sequences : Bool) : Activity → Activity
  | .dialogue name waits started =>
      .dialogue (if sequences then nonEmpty? name else name) waits started
  | .subFlow graph => .subFlow (graph.map (Graph.cleared sequences))
  | .loop body limit iteration finished => .loop (nonEmpty? body) limit iteration finished
  | activity => activity

def Instance.cleared (sequences : Bool) (inst : Instance) : Instance :=
  ⟨inst.id, nonEmpty? inst.nextId, inst.activity.cleared sequences⟩

section Cleared

variable {σ : Type} [World σ] {sequences : Bool}

namespace Activity

theorem cleared_ofKind (kind : NodeKind Graph) :
    ofKind (Graph.clearedKind sequences kind) = (ofKind kind).cleared sequences := by
  cases kind with
  | subFlow graph => simp [ofKind, cleared, Graph.clearedKind]
  | _ => rfl

theorem type_cleared (activity : Activity) :
    (activity.cleared sequences).kind.type = activity.kind.type := by
  cases activity <;> rfl

theorem enter_cleared (world : Option σ) (activity : Activity) :
    (activity.cleared sequences).enter world = (activity.enter world).cleared sequences := by
  cases activity <;> rfl

/-- Names of sequences matter to a world only. -/
theorem work_cleared {world : Option σ} (nowhere : sequences = true → world = none)
    (seconds : Float32) (activity : Activity) :
    (activity.cleared sequences).work seconds world =
      ((activity.work seconds world).1.cleared sequences, (activity.work seconds world).2) := by
  cases activity with
  | dialogue name waits started =>
      cases sequences with
      | false => cases name <;> cases world <;> rfl
      | true =>
          rw [nowhere rfl]
          simp [work, cleared]
  | _ => rfl

theorem signalled_cleared (activity : Activity) :
    (activity.cleared sequences).signalled = activity.signalled.cleared sequences := by
  cases activity <;> rfl

theorem command?_cleared (activity : Activity) :
    (activity.cleared false).command? = activity.command? := by
  cases activity <;> rfl

theorem target?_cleared (activity : Activity) :
    (activity.cleared sequences).target? = activity.target? := by
  cases activity with
  | loop body limit iteration finished => simp only [cleared, target?, nonEmpty?_nonEmpty?]
  | _ => rfl

theorem nested?_cleared (activity : Activity) :
    (activity.cleared sequences).kind.nested? =
      activity.kind.nested?.map (Graph.cleared sequences) := by
  cases activity <;> rfl

end Activity

theorem Instance.treatedAlike_cleared (inst : Instance) :
    inst.TreatedAlike (inst.cleared sequences) := by
  obtain ⟨id, nextId, activity⟩ := inst
  refine ⟨rfl, ?_, ?_, ?_, ?_, ?_, ?_⟩
  · have falls : (activity.cleared sequences).fallsThrough = activity.fallsThrough := by
      cases activity <;> rfl
    simp only [successor?, cleared, Activity.target?_cleared, falls, next?, nonEmpty?_nonEmpty?]
  all_goals cases activity <;> intros <;> rfl

/-- Runs of a graph and of the cleared one in the same world. Names of sequences are cleared only
where there is none. -/
def Correspondence.cleared (σ : Type) (sequences : Bool) : Correspondence σ σ where
  worlds world world' := world' = world ∧ (sequences = true → world = none)
  graphs graph graph' := graph' = graph.cleared sequences
  instances inst inst' := inst' = inst.cleared sequences
  types _ := Eq

theorem Correspondence.faithful_cleared (σ : Type) [World σ] (sequences : Bool) :
    (Correspondence.cleared σ sequences).Faithful where
  graphId := by
    rintro graph _ rfl
    simp
  startId := by
    rintro graph _ rfl
    simp [Graph.start?_cleared, Function.comp_def]
  named := by
    rintro graph _ rfl
    rw [Graph.named_cleared, List.forall₂_map_right_iff]
    refine List.forall₂_same.mpr fun node _ => ?_
    obtain ⟨id, nextId, kind⟩ := node
    exact congrArg (Instance.mk id _) (Activity.cleared_ofKind kind)
  treated := by
    rintro inst _ rfl
    exact inst.treatedAlike_cleared
  type := by
    rintro inst _ rfl
    exact (Activity.type_cleared inst.activity).symm
  nested := by
    rintro inst _ rfl
    simp only [Instance.cleared, Activity.nested?_cleared]
    cases inst.activity.kind.nested? with
    | none => exact .none
    | some graph => exact .some rfl
  enter := by
    rintro inst _ world _ rfl ⟨rfl, _⟩
    exact congrArg (Instance.mk _ _) (Activity.enter_cleared _ inst.activity)
  work := by
    rintro inst _ world _ seconds rfl ⟨rfl, nowhere⟩
    have worked := Activity.work_cleared nowhere seconds inst.activity
    refine ⟨(congrArg Prod.snd worked).symm, ?_⟩
    exact congrArg (Instance.mk _ _) (congrArg Prod.fst worked)
  signalled := by
    rintro inst _ rfl
    exact congrArg (Instance.mk _ _) (Activity.signalled_cleared inst.activity)
  commanded := by
    rintro inst _ world _ rfl ⟨rfl, nowhere⟩
    cases sequences with
    | false =>
        have same : (inst.activity.cleared false).commanded = inst.activity.commanded (σ := σ) := by
          funext now
          rw [Activity.commanded, Activity.command?_cleared, Activity.commanded]
        exact ⟨congrArg (Option.map · _) same, nofun⟩
    | true => simp [Correspondence.cleared, nowhere rfl]

end Cleared

/-! ## The innermost level -/

namespace Run

/-- The level that a tick reaches. -/
def innermost : Run → Level
  | .alone level => level
  | .hosting _ inner => inner.innermost

theorem Sound.command?_innermost {run : Run} (sound : run.Sound) :
    run.command? = run.innermost.current?.bind (·.activity.command?) := by
  induction sound with
  | alone => rfl
  | hosting sound current hosted identity within ih =>
      rw [(Sound.hosting sound current hosted identity within).command?_of_hosting]
      exact ih

/-- A tick ends the visit of the innermost level if that is what the node's work comes to, and
reports nothing otherwise. -/
theorem Advances.innermost {σ : Type} [World σ] {seconds : Float32} {world : Option σ}
    {run after : Run} {departure : Option Departure} {events : List Event}
    (step : Advances seconds world run departure after events) {inst : Instance}
    (current : run.innermost.current? = some inst) :
    ((inst.activity.work seconds world).2 = true ∧
      run.innermost.event (.nodeExited inst.id inst.type (run.innermost.ticks + 1)) ∈ events) ∨
    ((inst.activity.work seconds world).2 = false ∧ events = [] ∧ after.isFinished = false) := by
  induction step with
  | @idle level sound isOver =>
      have nothing : level.current? = none := by simp [Level.current?, isOver]
      cases nothing.symm.trans current
  | @stay level index other sound here found free working =>
      have reached := Level.current?_of_found here found
      cases reached.symm.trans current
      exact .inr ⟨Bool.eq_false_iff.mpr working, rfl, Level.isFinished_of_current here⟩
  | @move level index other sound here found free done =>
      have reached := Level.current?_of_found here found
      cases reached.symm.trans current
      have exited := Level.exitedReport_left found seconds world
      refine .inl ⟨done, ?_⟩
      rw [events_moveOn]
      apply List.mem_append_left
      rw [← Level.left, exited]
      exact List.mem_singleton.mpr rfl
  | inside sound here found hosted identity step running ih =>
      rcases ih current with ended | ⟨working, quiet, _⟩
      · exact .inl ended
      · exact .inr ⟨working, quiet, Level.isFinished_of_current here⟩
  | outside sound here found hosted identity step isOver ih =>
      rcases ih current with ⟨done, exited⟩ | ⟨_, _, running⟩
      · exact .inl ⟨done, List.mem_append_left _ exited⟩
      · cases running.symm.trans isOver

end Run

/-! ## Sessions -/

namespace Session

variable {σ : Type} [World σ]

theorem corresponds_cleared (world : Option σ) (id : RunId) (graph : Graph)
    (operations : List (Operation σ)) :
    Corresponds (.cleared σ world.isNone) (after world id graph operations)
      (after world id (graph.cleared world.isNone) operations) := by
  apply corresponds_after (Correspondence.faithful_cleared σ world.isNone)
  · exact ⟨rfl, Option.isNone_iff_eq_none.mp⟩
  · rfl
  · refine Operation.forall₂_same ?_ operations
    rintro become now _ ⟨rfl, nowhere⟩
    exact ⟨rfl, fun taken => by rw [nowhere taken, Option.map_none]⟩

theorem issued?_cleared (world : Option σ) (id : RunId) (graph : Graph)
    (operations : List (Operation σ)) (operation : Operation σ) :
    (after world id graph operations).issued? operation =
      (after world id (graph.cleared world.isNone) operations).issued? operation := by
  have sessions := corresponds_cleared world id graph operations
  refine sessions.issued?_eq sessions.worlds.1.symm (fun known inst _ pair => ?_) operation
  rw [isSome_world] at known
  rw [pair, Option.isNone_eq_false_iff.mpr known]
  exact (Activity.command?_cleared inst.activity).symm

theorem commands_cleared (world : Option σ) (id : RunId) (graph : Graph)
    (operations : List (Operation σ)) :
    (begin world id graph).commands operations =
      (begin world id (graph.cleared world.isNone)).commands operations :=
  commands_congr (issued?_cleared world id graph) operations

/-- Empty ids count as missing ones: a run goes the same way without them, whatever its host does.
Of the names of sequences that holds as long as there is no world. Where there is one, a dialogue
without a sequence is over in the tick that comes to it, and nothing is played. One with the empty
name is played like any other, and its end awaited. -/
theorem empty_ids_count_as_missing (world : Option σ) (id : RunId) (graph : Graph)
    (operations : List (Operation σ)) :
    let session := after world id graph operations
    let cleared := after world id (graph.cleared world.isNone) operations
    let level := session.run.innermost
    let ended := fun seconds (inst : Instance) =>
      level.event (.nodeExited inst.id .dialogue (level.ticks + 1)) ∈
        (session.run.tick seconds session.world).events
    session.run.standings = cleared.run.standings ∧
    session.events = cleared.events ∧
    session.world = cleared.world ∧
    (begin world id graph).commands operations =
      (begin world id (graph.cleared world.isNone)).commands operations ∧
    (∀ trigger, (session.run.signal trigger).woken = (cleared.run.signal trigger).woken) ∧
    (∀ inst waits seconds, level.current? = some inst →
      inst.activity.kind = .dialogue none waits →
        session.issued? (.tick seconds) = none ∧ ended seconds inst) ∧
    ∀ inst waits now seconds, level.current? = some inst →
      inst.activity = .dialogue (some "") waits false → session.world = some now →
        session.issued? (.tick seconds) = some (.play "") ∧
        (ended seconds inst ↔
          waits = false ∨ World.isPlaying (World.perform (.play "") now) "" = false) := by
  intro session cleared level ended
  have faithful := Correspondence.faithful_cleared σ world.isNone
  have sessions : Corresponds (.cleared σ world.isNone) session cleared :=
    corresponds_cleared world id graph operations
  have sound : session.run.Sound := Session.sound world id graph operations
  have commanded := sound.command?_innermost
  refine ⟨?_, Event.eq_of_corresponds sessions.events, sessions.worlds.1.symm,
    commands_cleared world id graph operations, fun trigger =>
      (sessions.runs.signal faithful trigger).2, ?_, ?_⟩
  · apply sessions.runs.standings_eq
    · exact fun _ _ => faithful.graphId
    · intro inst inst' pair
      exact ⟨(faithful.treated pair).id, faithful.type pair⟩
  · intro inst waits seconds current silent
    have step := sound.advances seconds (session.run.tick seconds session.world).world
    obtain ⟨_, _, activity⟩ := inst
    cases activity <;> cases silent
    refine ⟨?_, ?_⟩
    · rw [issued?, commanded, current]
      cases session.world <;> rfl
    · rcases step.innermost current with ⟨_, exited⟩ | ⟨working, _⟩
      · exact exited
      · cases working
  · intro inst waits now seconds current named here
    have step := sound.advances seconds (session.run.tick seconds session.world).world
    obtain ⟨_, _, activity⟩ := inst
    cases named
    have command : session.run.command? = some (.play "") := by
      rw [commanded, current]
      rfl
    have told : (session.run.tick seconds session.world).world =
        some (World.perform (.play "") now) := by
      rw [Run.tick, here, command]
      rfl
    refine ⟨by rw [issued?, here, command]; rfl, ?_⟩
    rcases step.innermost current with ⟨done, exited⟩ | ⟨working, quiet, _⟩
    · rw [told] at done
      simp only [Activity.work, Bool.or_eq_true, Bool.not_eq_true'] at done
      exact ⟨fun _ => done, fun _ => exited⟩
    · rw [told] at working
      simp only [Activity.work, Bool.or_eq_false_iff, Bool.not_eq_false'] at working
      have silent : (session.run.tick seconds session.world).events = [] := quiet
      simp [ended, silent, working]

end Session

/-- A dialogue whose sequence has the empty name. -/
def Graph.unnamedDialogue : Graph :=
  ⟨"scene", [Node.dialogue "talk" "" true], []⟩

/-- A world in which every dialogue lasts two seconds. -/
def ScriptedWorld.lasting : ScriptedWorld :=
  ofScript (Script.empty.withDefaultSeconds 2)

theorem Session.unnamed_dialogue_is_awaited :
    let session := after (some ScriptedWorld.lasting) (.outermost 0) Graph.unnamedDialogue []
    session.run.innermost.current? = some ⟨"talk", none, .dialogue (some "") true false⟩ ∧
      session.issued? (.tick 0) = some (.play "") := by
  have started : (after (some ScriptedWorld.lasting) (.outermost 0) Graph.unnamedDialogue []).run =
      .alone (Level.enter (some ScriptedWorld.lasting) 0
        (Level.ofGraph (.outermost 0) Graph.unnamedDialogue)) := by
    have found : Graph.unnamedDialogue.startIndex? = some 0 := by decide
    rw [after, List.foldl_nil, begin, Run.start_of_some found, Run.enter_of_none rfl]
  have current : (after (some ScriptedWorld.lasting) (.outermost 0) Graph.unnamedDialogue
      []).run.innermost.current? = some ⟨"talk", none, .dialogue (some "") true false⟩ := by
    rw [started]
    rfl
  have same := empty_ids_count_as_missing (some ScriptedWorld.lasting) (.outermost 0)
    Graph.unnamedDialogue []
  exact ⟨current, (same.2.2.2.2.2.2 _ true _ 0 current rfl rfl).1⟩

/-- Without the empty name the dialogue is over at once, and nothing is played. -/
theorem Session.empty_name_is_not_missing :
    ¬ ∀ (world : Option ScriptedWorld) (id : RunId) (graph : Graph)
      (operations : List (Operation ScriptedWorld)),
      (after world id graph operations).run.standings =
          (after world id (graph.cleared true) operations).run.standings ∧
        (after world id graph operations).events =
          (after world id (graph.cleared true) operations).events ∧
        (begin world id graph).commands operations =
          (begin world id (graph.cleared true)).commands operations := by
  intro same
  obtain ⟨_, _, commands⟩ :=
    same (some ScriptedWorld.lasting) (.outermost 0) Graph.unnamedDialogue [.tick 0]
  revert commands
  decide +kernel

end SceneFlow
