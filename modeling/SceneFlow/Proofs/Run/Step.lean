import SceneFlow.Proofs.Run.Level

/-!
# The steps of a level

A level changes in three ways only: it begins, it takes part in a tick, and it is signalled. What a
tick does to it is one of three things as well, whatever the world, the duration and the nested run
are: nothing, if no node has control; the work of a visit that goes on; or the end of that visit and
the way to the next node. A level's history is made of these steps.
-/

set_option autoImplicit false

namespace SceneFlow

/-- The end of a visit. -/
structure Departure where
  /-- The number of the node that is left. -/
  index : Nat
  /-- The tick in which it is left. -/
  tick : Nat
  destination : Destination

/-- The number of the node that control goes to. -/
def Destination.entered? : Destination → Option Nat
  | .successor index => some index
  | .resumption index _ => some index
  | .ending => none
  | .unresolved _ => none

namespace Level

variable {σ : Type} [World σ]

/-- The level of a graph once its first node was entered. -/
def begin (world : Option σ) (id : RunId) (graph : Graph) : Level :=
  match graph.startIndex? with
  | none => ofGraph id graph
  | some index => (ofGraph id graph).enter world index

/-- The level once its node did the work of a tick and was left. -/
def left (seconds : Float32) (world : Option σ) (index : Nat) (level : Level) : Level :=
  (level.worked seconds world index).leave index

/-- The level once control went on from a node that was left. -/
def follow (world : Option σ) (level : Level) : Destination → Level
  | .successor next => level.enter world next
  | .resumption next returns => { level with returns }.enter world next
  | .ending => { level with returns := .empty }.finish
  | .unresolved _ => level.finish

/-- The end of a visit with the work of a tick. -/
def departure (seconds : Float32) (world : Option σ) (index : Nat) (level : Level) : Departure :=
  let left := level.left seconds world index
  ⟨index, left.ticks, left.destination index⟩

/-- The id of the node that comes after a node. -/
def successor? (index : Nat) (level : Level) : Option String :=
  level.instances[index]?.bind (·.successor?)

/-! ## Sound levels -/

/-- The instances are those of the graph's nodes, and control is only ever with the nodes that ids
stand for. -/
structure Sound (level : Level) : Prop where
  nodes : level.instances.map Instance.node = level.graph.named
  current : ∀ index, level.current = some index → level.graph.IsWinner index
  returns : ∀ index ∈ level.returns.entries, level.graph.IsWinner index

namespace Sound

variable {level : Level} {index : Nat}

theorem instance_of_named (sound : level.Sound) {node : Node Graph}
    (atIndex : level.graph.named[index]? = some node) :
    ∃ inst, level.instances[index]? = some inst ∧ inst.node = node := by
  rw [← sound.nodes, List.getElem?_map, Option.map_eq_some_iff] at atIndex
  exact atIndex

theorem named_of_instance (sound : level.Sound) {inst : Instance}
    (found : level.instances[index]? = some inst) :
    level.graph.named[index]? = some inst.node := by
  rw [← sound.nodes, List.getElem?_map, found, Option.map_some]

theorem instance_of_isWinner (sound : level.Sound) (wins : level.graph.IsWinner index) :
    ∃ inst, level.instances[index]? = some inst := by
  obtain ⟨node, atIndex, _⟩ := wins
  obtain ⟨inst, found, _⟩ := sound.instance_of_named atIndex
  exact ⟨inst, found⟩

theorem instance_of_current (sound : level.Sound) (current : level.current = some index) :
    ∃ inst, level.instances[index]? = some inst :=
  sound.instance_of_isWinner (sound.current index current)

theorem lt_length_of_mem_returns (sound : level.Sound)
    (member : index ∈ level.returns.entries) : index < level.instances.length := by
  obtain ⟨inst, found⟩ := sound.instance_of_isWinner (sound.returns index member)
  exact (List.getElem?_eq_some_iff.mp found).1

end Sound

private theorem map_node_eq {before after : List Instance} (change : Nat → Instance → Instance)
    (keeps : ∀ index inst, (change index inst).node = inst.node)
    (equation : ∀ index : Nat, after[index]? = before[index]?.map (change index)) :
    after.map Instance.node = before.map Instance.node := by
  apply List.ext_getElem?
  intro index
  rw [List.getElem?_map, List.getElem?_map, equation, Option.map_map]
  congr 1
  funext inst
  exact keeps index inst

theorem nodes_worked (seconds : Float32) (world : Option σ) (index : Nat) (level : Level) :
    (level.worked seconds world index).instances.map Instance.node =
      level.instances.map Instance.node := by
  apply map_node_eq _ _ (fun other => getElem?_worked seconds world index other level)
  intro other inst
  split
  · exact inst.node_changed (Activity.kind_work seconds world)
  · rfl

theorem nodes_enter (world : Option σ) (index : Nat) (level : Level) :
    (level.enter world index).instances.map Instance.node =
      level.instances.map Instance.node := by
  apply map_node_eq _ _ (fun other => getElem?_enter world index other level)
  intro other inst
  split
  · exact inst.node_changed (Activity.kind_enter world)
  · rfl

theorem nodes_signal (trigger : String) (level : Level) :
    (level.signal trigger).1.instances.map Instance.node =
      level.instances.map Instance.node := by
  apply map_node_eq _ _ (fun other => getElem?_signal trigger other level)
  intro other inst
  split
  · exact inst.node_changed Activity.kind_signalled
  · rfl

theorem entries_returnsOnEntry_subset (index : Nat) (activity : Activity) (returns : ReturnStack) :
    (returnsOnEntry index activity returns).entries ⊆ returns.entries := by
  cases activity with
  | sequence steps step =>
      simp only [returnsOnEntry]
      split
      · exact fun _ member => member
      · exact fun _ member => (List.mem_filter.mp member).1
  | _ => exact fun _ member => member

theorem entries_returnsOnExit (index : Nat) (activity : Activity) (returns : ReturnStack) :
    (returnsOnExit index activity returns).entries =
      if activity.hasStep then index :: returns.entries else returns.entries := by
  unfold returnsOnExit
  split <;> rfl

section Sound

variable {level : Level}

theorem sound_ofGraph (id : RunId) (graph : Graph) : (ofGraph id graph).Sound where
  nodes := by simp [ofGraph, Function.comp_def]
  current := by simp [ofGraph]
  returns := by simp [ofGraph, ReturnStack.empty]

theorem Sound.enter (sound : level.Sound) {next : Nat} (wins : level.graph.IsWinner next)
    (world : Option σ) : (level.enter world next).Sound where
  nodes := by rw [nodes_enter, sound.nodes, graph_enter]
  current := by
    intro index current
    rw [current_enter, Option.some.injEq] at current
    rw [graph_enter]
    exact current ▸ wins
  returns := by
    intro index member
    obtain ⟨inst, found⟩ := sound.instance_of_isWinner wins
    rw [returns_enter found] at member
    rw [graph_enter]
    exact sound.returns index (entries_returnsOnEntry_subset _ _ _ member)

theorem Sound.begin (world : Option σ) (id : RunId) (graph : Graph) :
    (Level.begin world id graph).Sound := by
  unfold Level.begin
  split
  · exact sound_ofGraph id graph
  next index found =>
    exact (sound_ofGraph id graph).enter (Graph.isWinner_of_startIndex? found) world

theorem Sound.worked (sound : level.Sound) (seconds : Float32) (world : Option σ) (index : Nat) :
    (level.worked seconds world index).Sound where
  nodes := by rw [nodes_worked, sound.nodes]; rfl
  current := sound.current
  returns := sound.returns

theorem Sound.leave (sound : level.Sound) {index : Nat} (wins : level.graph.IsWinner index) :
    (level.leave index).Sound where
  nodes := by rw [instances_leave, sound.nodes, graph_leave]
  current := by
    intro other current
    obtain ⟨_, _, whole⟩ := leave_eq index level
    rw [whole] at current
    rw [graph_leave]
    exact sound.current other current
  returns := by
    intro other member
    obtain ⟨inst, found⟩ := sound.instance_of_isWinner wins
    rw [returns_leave found, entries_returnsOnExit] at member
    rw [graph_leave]
    split at member
    · rcases List.mem_cons.mp member with rfl | older
      · exact wins
      · exact sound.returns other older
    · exact sound.returns other member

theorem Sound.left (sound : level.Sound) {index : Nat} (current : level.current = some index)
    (seconds : Float32) (world : Option σ) : (level.left seconds world index).Sound :=
  (sound.worked seconds world index).leave (sound.current index current)

theorem Sound.finish (sound : level.Sound) : level.finish.Sound where
  nodes := sound.nodes
  current := by simp [Level.finish]
  returns := sound.returns

theorem Sound.withReturns (sound : level.Sound) {returns : ReturnStack}
    (fewer : returns.entries ⊆ level.returns.entries) : ({ level with returns } : Level).Sound where
  nodes := sound.nodes
  current := sound.current
  returns := fun index member => sound.returns index (fewer member)

theorem Sound.signal (sound : level.Sound) (trigger : String) :
    (level.signal trigger).1.Sound where
  nodes := by rw [nodes_signal, sound.nodes, graph_signal]
  current := by simpa using sound.current
  returns := by simpa using sound.returns

end Sound

/-! ## What comes next -/

theorem popValid_of_forall {isValid : Nat → Bool} {stack : ReturnStack}
    (valid : ∀ node ∈ stack.entries, isValid node = true) :
    stack.popValid isValid = (stack.entries.head?, ⟨stack.entries.tail⟩) := by
  rcases stack with ⟨entries⟩
  cases entries with
  | nil => rfl
  | cons node rest =>
      have top : isValid node = true := valid node List.mem_cons_self
      simp [ReturnStack.popValid, top]

/-- Nothing on the stack of a sound level is ever thrown away. -/
theorem Sound.popValid {level : Level} (sound : level.Sound) :
    level.returns.popValid (· < level.instances.length) =
      (level.returns.entries.head?, ⟨level.returns.entries.tail⟩) :=
  popValid_of_forall fun _ member => decide_eq_true (sound.lt_length_of_mem_returns member)

theorem Sound.destination_eq {level : Level} (sound : level.Sound) (index : Nat) :
    level.destination index =
      match level.successor? index with
      | some id =>
          match level.graph.index? id with
          | some next => .successor next
          | none => .unresolved id
      | none =>
          match level.returns.entries with
          | [] => .ending
          | next :: rest => .resumption next ⟨rest⟩ := by
  unfold destination successor?
  rw [sound.popValid]
  cases level.instances[index]?.bind (·.successor?) with
  | some id => rfl
  | none => cases level.returns.entries <;> rfl

theorem Sound.isWinner_of_entered {level : Level} (sound : level.Sound) {index next : Nat}
    (goes : (level.destination index).entered? = some next) : level.graph.IsWinner next := by
  rw [sound.destination_eq] at goes
  split at goes
  · split at goes
    next found =>
      cases goes
      exact Graph.isWinner_of_index? found
    · cases goes
  · split at goes
    · cases goes
    next top =>
      cases goes
      exact sound.returns next (top ▸ List.mem_cons_self)

theorem Sound.successor?_of_successor {level : Level} (sound : level.Sound) {index next : Nat}
    (goes : level.destination index = .successor next) :
    ∃ id, level.successor? index = some id ∧ level.graph.index? id = some next := by
  rw [sound.destination_eq] at goes
  split at goes
  next id asked =>
    split at goes
    next other leads =>
      cases goes
      exact ⟨id, asked, leads⟩
    · cases goes
  · split at goes <;> cases goes

theorem Sound.entries_of_resumption {level : Level} (sound : level.Sound) {index next : Nat}
    {returns : ReturnStack} (goes : level.destination index = .resumption next returns) :
    level.returns.entries = next :: returns.entries := by
  rw [sound.destination_eq] at goes
  split at goes
  · split at goes <;> cases goes
  · split at goes
    · cases goes
    next top =>
      cases goes
      exact top

theorem Sound.entries_of_ending {level : Level} (sound : level.Sound) {index : Nat}
    (goes : level.destination index = .ending) : level.returns.entries = [] := by
  rw [sound.destination_eq] at goes
  split at goes
  · split at goes <;> cases goes
  · split at goes
    next empty => exact empty
    · cases goes

theorem Sound.returns_subset_of_resumption {level : Level} (sound : level.Sound)
    {index next : Nat} {returns : ReturnStack}
    (goes : level.destination index = .resumption next returns) :
    returns.entries ⊆ level.returns.entries := by
  rw [sound.entries_of_resumption goes]
  exact List.subset_cons_self _ _

theorem Sound.follow {level : Level} (sound : level.Sound) (index : Nat) (world : Option σ) :
    (level.follow world (level.destination index)).Sound := by
  have wins : ∀ next, (level.destination index).entered? = some next →
      level.graph.IsWinner next := fun _ goes => sound.isWinner_of_entered goes
  cases goes : level.destination index with
  | successor next =>
      exact sound.enter (wins next (by rw [goes]; rfl)) world
  | resumption next returns =>
      exact (sound.withReturns (sound.returns_subset_of_resumption goes)).enter
        (wins next (by rw [goes]; rfl)) world
  | ending => exact (sound.withReturns (by simp [ReturnStack.empty])).finish
  | unresolved id => exact sound.finish

/-! ## Steps -/

/-- What a tick does to a level, with the visit that it ends. A visit with work left goes on, and so
may one that hosts a run. -/
inductive TickStep (world : Option σ) (level : Level) : Option Departure → Level → Prop where
  | idle (isOver : level.current = none) : TickStep world level none level
  | stay {seconds : Float32} {index : Nat} {inst : Instance}
      (current : level.current = some index) (found : level.instances[index]? = some inst)
      (goesOn : (inst.activity.work seconds world).2 = true → inst.activity.kind.nested?.isSome) :
      TickStep world level none (level.worked seconds world index)
  | move {seconds : Float32} {index : Nat} {inst : Instance}
      (current : level.current = some index) (found : level.instances[index]? = some inst)
      (done : (inst.activity.work seconds world).2 = true) :
      TickStep world level (some (level.departure seconds world index))
        ((level.left seconds world index).follow world
          (level.departure seconds world index).destination)

theorem graph_follow (world : Option σ) (level : Level) (destination : Destination) :
    (level.follow world destination).graph = level.graph := by
  cases destination <;> simp [follow, finish]

theorem graph_left (seconds : Float32) (world : Option σ) (index : Nat) (level : Level) :
    (level.left seconds world index).graph = level.graph :=
  graph_leave index _

theorem id_follow (world : Option σ) (level : Level) (destination : Destination) :
    (level.follow world destination).id = level.id := by
  cases destination <;> simp [follow, finish]

theorem current_follow (world : Option σ) (level : Level) (destination : Destination) :
    (level.follow world destination).current = destination.entered? := by
  cases destination <;> simp [follow, finish, Destination.entered?]

theorem enters_follow (world : Option σ) (level : Level) (destination : Destination) :
    (level.follow world destination).enters =
      level.enters + destination.entered?.toList.length := by
  cases destination <;> simp [follow, finish, Destination.entered?]

theorem ticks_left (seconds : Float32) (world : Option σ) (index : Nat) (level : Level) :
    (level.left seconds world index).ticks = level.ticks + 1 :=
  ticks_leave index _

theorem enters_left (seconds : Float32) (world : Option σ) (index : Nat) (level : Level) :
    (level.left seconds world index).enters = level.enters :=
  enters_leave index _

theorem id_left (seconds : Float32) (world : Option σ) (index : Nat) (level : Level) :
    (level.left seconds world index).id = level.id :=
  id_leave index _

section TickStep

variable {world : Option σ} {level after : Level} {departure : Option Departure}

theorem TickStep.graph_eq (step : TickStep world level departure after) :
    after.graph = level.graph := by
  cases step with
  | idle => rfl
  | stay => rfl
  | move => rw [graph_follow, graph_left]

theorem TickStep.id_eq (step : TickStep world level departure after) : after.id = level.id := by
  cases step with
  | idle => rfl
  | stay => rfl
  | move => rw [id_follow, left, id_leave]; rfl

theorem TickStep.enters_le (step : TickStep world level departure after) :
    level.enters ≤ after.enters := by
  cases step with
  | idle => exact Nat.le_refl _
  | stay => exact Nat.le_refl _
  | move =>
      rw [enters_follow, enters_left]
      exact Nat.le_add_right _ _

theorem TickStep.sound (step : TickStep world level departure after) (sound : level.Sound) :
    after.Sound := by
  cases step with
  | idle => exact sound
  | stay => exact sound.worked _ _ _
  | @move seconds index _ current => exact (sound.left current seconds world).follow index world

/-- A tick that ends no visit leaves a level in its visit. -/
theorem TickStep.eq_of_none (step : TickStep world level none after) :
    after.current = level.current ∧ after.enters = level.enters := by
  cases step with
  | idle => exact ⟨rfl, rfl⟩
  | stay => exact ⟨rfl, rfl⟩

theorem TickStep.returns_of_none (step : TickStep world level none after) :
    after.returns = level.returns := by
  cases step with
  | idle => rfl
  | stay => rfl

/-- A level only ends with a visit, where no node is next. -/
theorem TickStep.departed_of_over (step : TickStep world level departure after)
    (running : level.current ≠ none) (isOver : after.current = none) :
    ∃ departed, departure = some departed ∧ departed.destination.entered? = none := by
  cases step with
  | idle isOver => exact absurd isOver running
  | stay => exact absurd isOver running
  | move =>
      rw [current_follow] at isOver
      exact ⟨_, rfl, isOver⟩

end TickStep

/-! ## Histories -/

/-- The levels that a graph's level can come to be, with the visits that ended on the way, in
order. -/
inductive History (σ : Type) [World σ] (id : RunId) (graph : Graph) :
    List Departure → Level → Prop where
  | begin (world : Option σ) : History σ id graph [] (Level.begin world id graph)
  | tick {world : Option σ} {departures : List Departure} {level after : Level}
      {departure : Option Departure} (before : History σ id graph departures level)
      (step : TickStep world level departure after) :
      History σ id graph (departures ++ departure.toList) after
  | signal {departures : List Departure} {level : Level} (trigger : String)
      (before : History σ id graph departures level) :
      History σ id graph departures (level.signal trigger).1

section History

variable {id : RunId} {graph : Graph} {departures : List Departure} {level : Level}

theorem History.sound (history : History σ id graph departures level) : level.Sound := by
  induction history with
  | begin world => exact .begin world id graph
  | tick _ step ih => exact step.sound ih
  | signal trigger _ ih => exact ih.signal trigger

theorem graph_begin (world : Option σ) (id : RunId) (graph : Graph) :
    (begin world id graph).graph = graph := by
  unfold begin
  split
  · rfl
  · exact graph_enter _ _ _

theorem id_begin (world : Option σ) (id : RunId) (graph : Graph) :
    (begin world id graph).id = id := by
  unfold begin
  split
  · rfl
  · exact id_enter _ _ _

theorem History.graph_eq (history : History σ id graph departures level) :
    level.graph = graph := by
  induction history with
  | begin world => exact graph_begin world id graph
  | tick _ step ih => exact step.graph_eq.trans ih
  | signal trigger _ ih => exact (graph_signal trigger _).trans ih

theorem History.id_eq (history : History σ id graph departures level) : level.id = id := by
  induction history with
  | begin world => exact id_begin world id graph
  | tick _ step ih => exact step.id_eq.trans ih
  | signal trigger _ ih => exact (id_signal trigger _).trans ih

end History

end Level

end SceneFlow
