import Mathlib.Data.List.Induction
import SceneFlow.Proofs.Run.Nesting

/-!
# Sessions

A session is a run in the hands of a host, which ticks it, signals triggers to it and may change the
world in between, in any order. The outermost level of a session's run has a history, and the nodes
it reports to have entered and left are those that its history names.
-/

set_option autoImplicit false

namespace SceneFlow

/-- A list with one more element at its end splits there or further to the front. -/
theorem split_append_singleton {α : Type} {list before after : List α} {last chosen : α}
    (split : list ++ [last] = before ++ chosen :: after) :
    (before = list ∧ chosen = last) ∨
      ∃ front, after = front ++ [last] ∧ list = before ++ chosen :: front := by
  rcases List.eq_nil_or_concat after with rfl | ⟨front, other, rfl⟩
  · obtain ⟨sameFront, sameLast⟩ := List.append_inj' split rfl
    exact .inl ⟨sameFront.symm, (List.singleton_inj.mp sameLast).symm⟩
  · rw [List.concat_eq_append, ← List.cons_append, ← List.append_assoc] at split
    obtain ⟨sameFront, sameLast⟩ := List.append_inj' split rfl
    rw [List.concat_eq_append, sameLast]
    exact .inr ⟨front, rfl, sameFront⟩

/-- What a host does. -/
inductive Operation (σ : Type) where
  | tick (seconds : Float32)
  | signal (trigger : String)
  /-- The world goes its own way; without a world nothing happens. -/
  | change (become : σ → σ)

/-- Whether an operation is a tick. -/
def Operation.isTick {σ : Type} : Operation σ → Bool
  | .tick _ => true
  | _ => false

/-- A run with its world, all events so far, and the visits of the outermost level that ended. -/
structure Session (σ : Type) where
  run : Run
  world : Option σ
  events : List Event
  departures : List Departure

/-- The node whose entry an event reports. -/
def Event.enteredNode? (event : Event) : Option String :=
  match event.report with
  | .nodeEntered node .. => some node
  | _ => none

/-- The node whose end of a visit an event reports, by the number that its id has in a graph, and
the tick in which the visit ended. -/
def Event.exitedNode? (graph : Graph) (event : Event) : Option (Option Nat × Nat) :=
  match event.report with
  | .nodeExited node _ tick => some (graph.index? node, tick)
  | _ => none

/-- The numbers of the nodes that the outermost level of a graph entered, in order. -/
def Graph.trail (graph : Graph) (departures : List Departure) : List Nat :=
  graph.startIndex?.toList ++ departures.filterMap (·.destination.entered?)

/-- The ids of numbered nodes. -/
def Graph.idsAt (graph : Graph) (indices : List Nat) : List String :=
  indices.filterMap fun index => graph.named[index]?.map (·.id)

namespace Session

variable {σ : Type} [World σ]

/-- The session once the run has started. -/
def begin (world : Option σ) (id : RunId) (graph : Graph) : Session σ :=
  let (run, events) := Run.start world id graph
  { run, world, events, departures := [] }

/-- The session after one more operation. -/
def perform (session : Session σ) : Operation σ → Session σ
  | .tick seconds =>
      let ticked := session.run.tick seconds session.world
      { run := ticked.run
        world := ticked.world
        events := session.events ++ ticked.events
        departures :=
          session.departures ++ (session.run.departure? seconds ticked.world).toList }
  | .signal trigger =>
      let signalled := session.run.signal trigger
      { session with run := signalled.run, events := session.events ++ signalled.events }
  | .change become => { session with world := session.world.map become }

/-- The session of a graph after some operations. -/
def after (world : Option σ) (id : RunId) (graph : Graph) (operations : List (Operation σ)) :
    Session σ :=
  operations.foldl perform (begin world id graph)

/-- The ids of the nodes that the outermost level entered, as it reported them. -/
def entered (session : Session σ) : List String :=
  (Run.own session.run.level.id session.events).filterMap Event.enteredNode?

/-- The nodes that the outermost level left, with the ticks in which it did so, as it reported
them. -/
def exited (session : Session σ) : List (Option Nat × Nat) :=
  (Run.own session.run.level.id session.events).filterMap
    (Event.exitedNode? session.run.level.graph)

variable (world : Option σ) (id : RunId) (graph : Graph)

variable {world id graph} in
theorem after_induction {motive : Session σ → Prop} (begins : motive (begin world id graph))
    (performs : ∀ session operation, motive session → motive (session.perform operation))
    (operations : List (Operation σ)) : motive (after world id graph operations) :=
  List.foldlRecOn operations perform begins fun session kept operation _ =>
    performs session operation kept

theorem after_append_list (before later : List (Operation σ)) :
    after world id graph (before ++ later) = later.foldl perform (after world id graph before) :=
  List.foldl_append

theorem after_append (operations : List (Operation σ)) (operation : Operation σ) :
    after world id graph (operations ++ [operation]) =
      (after world id graph operations).perform operation :=
  after_append_list world id graph operations [operation]

theorem events_prefix_perform (session : Session σ) (operation : Operation σ) :
    session.events <+: (session.perform operation).events := by
  cases operation with
  | tick | signal => exact List.prefix_append _ _
  | change => exact List.prefix_rfl

theorem events_prefix {earlier operations : List (Operation σ)} (before : earlier <+: operations) :
    (after world id graph earlier).events <+: (after world id graph operations).events := by
  obtain ⟨later, rfl⟩ := before
  induction later using List.reverseRecOn with
  | nil => exact (List.append_nil earlier).symm ▸ List.prefix_rfl
  | append_singleton later operation ih =>
      rw [← List.append_assoc, after_append]
      exact ih.trans (events_prefix_perform _ operation)

/-! ## Moments of a session -/

/-- Of the sessions on the way of the operations, just the one after `before` and all later ones
have the property. -/
def Since (world : Option σ) (id : RunId) (graph : Graph) (before operations : List (Operation σ))
    (holds : Session σ → Prop) : Prop :=
  ∀ earlier, earlier <+: operations → (holds (after world id graph earlier) ↔ before <+: earlier)

section Since

variable {world id graph} {before operations : List (Operation σ)} {operation : Operation σ}
  {holds : Session σ → Prop}

theorem since_begin (begun : holds (begin world id graph)) : Since world id graph [] [] holds := by
  intro earlier front
  rw [List.prefix_nil.mp front]
  exact iff_of_true begun List.prefix_rfl

theorem Since.append (since : Since world id graph before operations holds)
    (past : before <+: operations)
    (goesOn : holds (after world id graph (operations ++ [operation]))) :
    Since world id graph before (operations ++ [operation]) holds := by
  intro earlier front
  rcases List.prefix_concat_iff.mp front with rfl | front
  · exact iff_of_true goesOn (past.trans (List.prefix_append _ _))
  · exact since earlier front

theorem since_now
    (never : ∀ earlier, earlier <+: operations → ¬ holds (after world id graph earlier))
    (begun : holds (after world id graph (operations ++ [operation]))) :
    Since world id graph (operations ++ [operation]) (operations ++ [operation]) holds := by
  intro earlier front
  rcases List.prefix_concat_iff.mp front with rfl | front
  · exact iff_of_true begun List.prefix_rfl
  · refine iff_of_false (never earlier front) fun longer => ?_
    have shorter := (longer.trans front).length_le
    rw [List.length_append, List.length_singleton] at shorter
    omega

/-- What began with the last operation did not begin earlier. -/
theorem Since.eq_of_now (since : Since world id graph before operations holds)
    (past : before <+: operations) (now : Since world id graph operations operations holds) :
    before = operations := by
  have begun := (since before past).mpr List.prefix_rfl
  exact past.eq_of_length_le ((now before past).mp begun).length_le

end Since

/-- A host that has a world keeps it. -/
theorem isSome_world (operations : List (Operation σ)) :
    (after world id graph operations).world.isSome = world.isSome := by
  induction operations using List.reverseRecOn with
  | nil => rfl
  | append_singleton operations operation ih =>
      rw [after_append, ← ih]
      cases operation with
      | tick seconds => exact Option.isSome_map
      | signal trigger => rfl
      | change become => exact Option.isSome_map

/-! ## The run and its history -/

private theorem sound_and_history (operations : List (Operation σ)) :
    (after world id graph operations).run.Sound ∧
      Level.History σ id graph (after world id graph operations).departures
        (after world id graph operations).run.level := by
  refine after_induction (motive := fun session => session.run.Sound ∧
    Level.History σ id graph session.departures session.run.level) ?_ ?_ operations
  · have begun : Level.History σ id graph [] (Level.begin world id graph) := .begin world
    rw [← Run.level_start] at begun
    exact ⟨Run.sound_start world id graph, begun⟩
  · rintro session operation ⟨sound, history⟩
    cases operation with
    | tick seconds => exact ⟨sound.advance seconds _, history.tick (sound.tickStep seconds _)⟩
    | signal trigger =>
        have signalled := history.signal trigger
        rw [← Run.level_signal] at signalled
        exact ⟨sound.signal trigger, signalled⟩
    | change become => exact ⟨sound, history⟩

theorem sound (operations : List (Operation σ)) :
    (after world id graph operations).run.Sound :=
  (sound_and_history world id graph operations).1

theorem history (operations : List (Operation σ)) :
    Level.History σ id graph (after world id graph operations).departures
      (after world id graph operations).run.level :=
  (sound_and_history world id graph operations).2

theorem graph_eq (operations : List (Operation σ)) :
    (after world id graph operations).run.level.graph = graph :=
  (history world id graph operations).graph_eq

theorem id_eq (operations : List (Operation σ)) :
    (after world id graph operations).run.level.id = id :=
  (history world id graph operations).id_eq

/-! ## The nodes entered -/

theorem enteredNodes_exitedReport (index : Nat) (level : Level) :
    (level.exitedReport index).filterMap Event.enteredNode? = [] := by
  unfold Level.exitedReport
  split <;> rfl

theorem enteredNodes_enteredReport {level : Level} (sound : level.Sound) (index : Nat) :
    (level.enteredReport index).filterMap Event.enteredNode? = level.graph.idsAt [index] := by
  have atIndex : level.graph.named[index]? = level.instances[index]?.map Instance.node := by
    rw [← sound.nodes, List.getElem?_map]
  simp only [Level.enteredReport, Graph.idsAt, List.filterMap_cons, atIndex]
  cases level.instances[index]? <;> rfl

theorem enteredNodes_arrivalReport {level : Level} (sound : level.Sound) (index : Nat)
    (world : Option σ) :
    (level.arrivalReport world (level.destination index)).filterMap Event.enteredNode? =
      level.graph.idsAt (level.destination index).entered?.toList := by
  have arrived := sound.follow index world
  cases goes : level.destination index with
  | successor next =>
      rw [goes] at arrived
      have entered := enteredNodes_enteredReport arrived next
      rw [Level.graph_follow] at entered
      exact entered
  | resumption next returns =>
      rw [goes] at arrived
      have entered := enteredNodes_enteredReport arrived next
      rw [Level.graph_follow] at entered
      exact entered
  | ending => rfl
  | unresolved id => rfl

private theorem filterMap_entered_singleton (departure : Departure) :
    [departure].filterMap (·.destination.entered?) = departure.destination.entered?.toList := by
  rw [List.filterMap_cons]
  cases departure.destination.entered? <;> rfl

theorem enteredNodes_advance {run : Run} (sound : run.Sound) (seconds : Float32)
    (world : Option σ) :
    (Run.own run.level.id (run.advance seconds world).2).filterMap Event.enteredNode? =
      run.level.graph.idsAt
        ((run.departure? seconds world).toList.filterMap (·.destination.entered?)) := by
  rw [sound.own_advance]
  cases departed : run.departure? seconds world with
  | none => rfl
  | some departure =>
      obtain ⟨index, current, rfl⟩ := Run.departure_of_departure? departed
      have left := sound.level.left current seconds world
      have arrived := enteredNodes_arrivalReport left index world
      rw [Level.left, Level.graph_leave] at arrived
      refine (List.filterMap_append).trans ?_
      rw [enteredNodes_exitedReport, List.nil_append, Option.toList_some,
        filterMap_entered_singleton]
      exact arrived

theorem enteredNodes_start (world : Option σ) (id : RunId) (graph : Graph) :
    (Run.own id (Run.start world id graph).2).filterMap Event.enteredNode? =
      graph.idsAt graph.startIndex?.toList := by
  rw [Run.own_start]
  cases found : graph.startIndex? with
  | none => rfl
  | some index =>
      have entered := enteredNodes_enteredReport (Level.Sound.begin world id graph) index
      rw [Level.graph_begin] at entered
      exact entered

theorem enteredNodes_signal (trigger : String) (run : Run) (id : RunId) :
    (Run.own id (run.signal trigger).events).filterMap Event.enteredNode? = [] := by
  rw [List.filterMap_eq_nil_iff]
  intro event member
  rw [List.mem_singleton.mp (List.mem_filter.mp member).1]
  rfl

theorem idsAt_append (graph : Graph) (before after : List Nat) :
    graph.idsAt (before ++ after) = graph.idsAt before ++ graph.idsAt after :=
  List.filterMap_append

theorem idsAt_singleton {graph : Graph} {index : Nat} {node : Node Graph}
    (atIndex : graph.named[index]? = some node) : graph.idsAt [index] = [node.id] := by
  simp only [Graph.idsAt, List.filterMap_cons, atIndex, Option.map_some, List.filterMap_nil]

theorem trail_append (graph : Graph) (before after : List Departure) :
    graph.trail (before ++ after) =
      graph.trail before ++ after.filterMap (·.destination.entered?) := by
  simp only [Graph.trail, List.filterMap_append, List.append_assoc]

private theorem enteredNodes_events (operations : List (Operation σ)) :
    (Run.own id (after world id graph operations).events).filterMap Event.enteredNode? =
      graph.idsAt (graph.trail (after world id graph operations).departures) := by
  induction operations using List.reverseRecOn with
  | nil =>
      have started := enteredNodes_start world id graph
      rw [← List.append_nil graph.startIndex?.toList] at started
      exact started
  | append_singleton operations operation ih =>
      have sound := Session.sound world id graph operations
      have sameId := Session.id_eq world id graph operations
      have sameGraph := Session.graph_eq world id graph operations
      rw [after_append]
      cases operation with
      | tick seconds =>
          have ticked := enteredNodes_advance sound seconds
            ((after world id graph operations).run.tick seconds
              (after world id graph operations).world).world
          rw [sameId, sameGraph] at ticked
          simp only [perform, Run.own_append, List.filterMap_append, trail_append, idsAt_append, ih]
          exact congrArg _ ticked
      | signal trigger =>
          have quiet := enteredNodes_signal trigger (after world id graph operations).run id
          simp only [perform, Run.own_append, List.filterMap_append, ih, quiet, List.append_nil]
      | change become => exact ih

/-- A session's reports of entered nodes follow its history. -/
theorem entered_eq (operations : List (Operation σ)) :
    (after world id graph operations).entered =
      graph.idsAt (graph.trail (after world id graph operations).departures) := by
  rw [entered, id_eq, enteredNodes_events]

/-! ## The nodes left -/

theorem exitedNodes_enteredReport (graph : Graph) (index : Nat) (level : Level) :
    (level.enteredReport index).filterMap (Event.exitedNode? graph) = [] := by
  unfold Level.enteredReport
  split <;> rfl

theorem exitedNodes_arrivalReport (graph : Graph) (world : Option σ) (level : Level)
    (destination : Destination) :
    (level.arrivalReport world destination).filterMap (Event.exitedNode? graph) = [] := by
  cases destination with
  | successor next => exact exitedNodes_enteredReport graph next _
  | resumption next returns => exact exitedNodes_enteredReport graph next _
  | ending => rfl
  | unresolved id => rfl

/-- A node that has control is the one that its id stands for. -/
theorem exitedNodes_exitedReport {level : Level} (sound : level.Sound) {index : Nat}
    (wins : level.graph.IsWinner index) :
    (level.exitedReport index).filterMap (Event.exitedNode? level.graph) =
      [(some index, level.ticks)] := by
  obtain ⟨node, atIndex, standsFor⟩ := wins
  obtain ⟨inst, found, rfl⟩ := sound.instance_of_named atIndex
  have reported : level.exitedReport index =
      [level.event (.nodeExited inst.id inst.type level.ticks)] := by
    rw [Level.exitedReport, found]
  rw [reported]
  exact congrArg (fun number => [(number, level.ticks)]) standsFor

theorem exitedNodes_advance {run : Run} (sound : run.Sound) (seconds : Float32)
    (world : Option σ) :
    (Run.own run.level.id (run.advance seconds world).2).filterMap
        (Event.exitedNode? run.level.graph) =
      (run.departure? seconds world).toList.map fun departure =>
        (some departure.index, departure.tick) := by
  rw [sound.own_advance]
  cases departed : run.departure? seconds world with
  | none => rfl
  | some departure =>
      obtain ⟨index, current, rfl⟩ := Run.departure_of_departure? departed
      have left := sound.level.left current seconds world
      have sameGraph := Level.graph_left seconds world index run.level
      have exited := exitedNodes_exitedReport left (sameGraph ▸ sound.level.current index current)
      rw [sameGraph] at exited
      refine (List.filterMap_append).trans ?_
      rw [exitedNodes_arrivalReport, List.append_nil]
      exact exited

theorem exitedNodes_start (world : Option σ) (id : RunId) (graph : Graph) :
    (Run.own id (Run.start world id graph).2).filterMap (Event.exitedNode? graph) = [] := by
  rw [Run.own_start]
  cases found : graph.startIndex? with
  | none => rfl
  | some index => exact exitedNodes_enteredReport graph index (Level.begin world id graph)

theorem exitedNodes_signal (graph : Graph) (trigger : String) (run : Run) (id : RunId) :
    (Run.own id (run.signal trigger).events).filterMap (Event.exitedNode? graph) = [] := by
  rw [List.filterMap_eq_nil_iff]
  intro event member
  rw [List.mem_singleton.mp (List.mem_filter.mp member).1]
  rfl

private theorem exitedNodes_events (operations : List (Operation σ)) :
    (Run.own id (after world id graph operations).events).filterMap (Event.exitedNode? graph) =
      (after world id graph operations).departures.map fun departure =>
        (some departure.index, departure.tick) := by
  induction operations using List.reverseRecOn with
  | nil => exact exitedNodes_start world id graph
  | append_singleton operations operation ih =>
      have sound := Session.sound world id graph operations
      have sameId := Session.id_eq world id graph operations
      have sameGraph := Session.graph_eq world id graph operations
      rw [after_append]
      cases operation with
      | tick seconds =>
          have ticked := exitedNodes_advance sound seconds
            ((after world id graph operations).run.tick seconds
              (after world id graph operations).world).world
          rw [sameId, sameGraph] at ticked
          simp only [perform, Run.own_append, List.filterMap_append, List.map_append, ih]
          exact congrArg _ ticked
      | signal trigger =>
          have quiet := exitedNodes_signal graph trigger (after world id graph operations).run id
          simp only [perform, Run.own_append, List.filterMap_append, ih, quiet, List.append_nil]
      | change become => exact ih

/-- A session's reports of nodes that were left are the departures of its history. -/
theorem exited_eq (operations : List (Operation σ)) :
    (after world id graph operations).exited =
      (after world id graph operations).departures.map fun departure =>
        (some departure.index, departure.tick) := by
  rw [exited, id_eq, graph_eq, exitedNodes_events]

end Session

end SceneFlow
