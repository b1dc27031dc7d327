import SceneFlow.Proofs.Run.Waits
import SceneFlow.Run.Status

/-!
# Numbers of nodes

A level keeps numbers of nodes: that of the node which has control, those on the return stack, those
of the nodes that wait for triggers, and those that ids stand for. A run passes over a number
without an instance in silence. So that this cannot hide a mistake, the operations of a run are
written down once more, with such a number as a failure, and no run that can be reached ever fails.
-/

set_option autoImplicit false

namespace SceneFlow

/-! ## Which number an id stands for -/

theorem lastPosition?_cons (id head : String) (rest : List String) :
    lastPosition? id (head :: rest) =
      match lastPosition? id rest with
      | some position => some (position + 1)
      | none => if head = id then some 0 else none := rfl

/-- An id stands last where it is given and no later one is the same. -/
theorem lastPosition?_append_cons {id : String} (before : List String) {after : List String}
    (last : id ∉ after) : lastPosition? id (before ++ id :: after) = some before.length := by
  induction before with
  | nil =>
      have absent := lastPosition?_eq_none_iff.mpr last
      simp only [List.nil_append, lastPosition?_cons, absent, if_pos, List.length_nil]
  | cons head before ih =>
      simp only [List.cons_append, lastPosition?_cons, ih, List.length_cons]

theorem exists_split_of_lastPosition? {id : String} {ids : List String} {position : Nat}
    (found : lastPosition? id ids = some position) :
    ∃ before after, ids = before ++ id :: after ∧ before.length = position ∧ id ∉ after := by
  induction ids generalizing position with
  | nil => cases found
  | cons head rest ih =>
      cases later : lastPosition? id rest with
      | some place =>
          simp only [lastPosition?_cons, later, Option.some.injEq] at found
          obtain ⟨before, after, rfl, placed, last⟩ := ih later
          exact ⟨head :: before, after, rfl, (congrArg (· + 1) placed).trans found, last⟩
      | none =>
          simp only [lastPosition?_cons, later, Option.ite_none_right_eq_some,
            Option.some.injEq] at found
          obtain ⟨rfl, rfl⟩ := found
          exact ⟨[], rest, rfl, rfl, lastPosition?_eq_none_iff.mp later⟩

namespace Graph

variable {graph : Graph} {node : Node Graph} {index : Nat}

/-- The node is the last one that has its id, and so many nodes with an id come before it. -/
inductive LastNamed (graph : Graph) (node : Node Graph) : Nat → Prop where
  | intro {before after : List (Node Graph)} (split : graph.nodes = before ++ node :: after)
      (named : node.id ≠ "") (last : ∀ later ∈ after, later.id ≠ node.id) :
      LastNamed graph node (before.countP (·.id ≠ ""))

theorem named_of_split {before after : List (Node Graph)}
    (split : graph.nodes = before ++ node :: after) (named : node.id ≠ "") :
    graph.named = before.filter (·.id ≠ "") ++ node :: after.filter (·.id ≠ "") := by
  rw [Graph.named, split, List.filter_append, List.filter_cons_of_pos (by simpa using named)]

theorem LastNamed.getElem?_named (isLast : graph.LastNamed node index) :
    graph.named[index]? = some node := by
  obtain ⟨split, named, _⟩ := isLast
  rw [named_of_split split named, List.countP_eq_length_filter,
    List.getElem?_append_right (Nat.le_refl _), Nat.sub_self, List.getElem?_cons_zero]

theorem LastNamed.index?_eq (isLast : graph.LastNamed node index) :
    graph.index? node.id = some index := by
  obtain @⟨before, after, split, named, last⟩ := isLast
  have absent : node.id ∉ (after.filter (·.id ≠ "")).map (·.id) := by
    intro member
    obtain ⟨later, inside, same⟩ := List.mem_map.mp member
    exact last later (List.mem_filter.mp inside).1 same
  have placed := lastPosition?_append_cons ((before.filter (·.id ≠ "")).map (·.id)) absent
  rw [List.length_map, ← List.countP_eq_length_filter] at placed
  rw [index?, named_of_split split named, List.map_append, List.map_cons, placed]

theorem exists_lastNamed_of_index? {id : String} (found : graph.index? id = some index) :
    ∃ node, node.id = id ∧ graph.LastNamed node index := by
  obtain ⟨_, _, ids, counted, absent⟩ := exists_split_of_lastPosition? found
  obtain ⟨front, back, whole, rfl, restIds⟩ := List.map_eq_append_iff.mp ids
  obtain ⟨node, behind, rfl, rfl, rfl⟩ := List.map_eq_cons_iff.mp restIds
  obtain ⟨before, rest, split, rfl, restNamed⟩ := List.filter_eq_append_iff.mp whole
  obtain ⟨unnamed, after, rfl, noIds, named, rfl⟩ := List.filter_eq_cons_iff.mp restNamed
  have none : unnamed.countP (·.id ≠ "") = 0 := List.countP_eq_zero.mpr noIds
  have isNamed : node.id ≠ "" := of_decide_eq_true named
  have whole : graph.nodes = (before ++ unnamed) ++ node :: after := by
    rw [split, List.append_assoc]
  have isLast := LastNamed.intro whole isNamed fun later member same => by
    have isNamedToo := same ▸ named
    exact absent (List.mem_map.mpr ⟨later, List.mem_filter.mpr ⟨member, isNamedToo⟩, same⟩)
  rw [List.countP_append, none, Nat.add_zero, List.countP_eq_length_filter] at isLast
  rw [List.length_map] at counted
  exact ⟨node, rfl, counted ▸ isLast⟩

/-- Ids stand for the last nodes that have them, and for nothing else. -/
theorem index?_eq_some_iff {id : String} :
    graph.index? id = some index ↔ ∃ node, node.id = id ∧ graph.LastNamed node index := by
  constructor
  · exact exists_lastNamed_of_index?
  · rintro ⟨node, rfl, isLast⟩
    exact isLast.index?_eq

end Graph

/-! ## Operations that fail at a number without an instance -/

namespace Run

variable {σ : Type} [World σ]

mutual

def start? (world : Option σ) (id : RunId) (graph : Graph) : Option (Run × List Event) :=
  let level := Level.ofGraph id graph
  let started := level.event (.runStarted graph.id)
  match graph.startIndex? with
  | none => some (.alone level, [started, level.finishedReport])
  | some index =>
      (enter? world index (Level.ofGraph id graph)).map fun (run, events) =>
        (run, started :: events)
termination_by 2 * graph.nesting + 1
decreasing_by
  simp only [Level.ofGraph]
  omega

def enter? (world : Option σ) (index : Nat) (level : Level) : Option (Run × List Event) :=
  if index < level.instances.length then
    let entered := level.enter world index
    match _found : level.graph.nestedAt? index with
    | none => some (.alone entered, entered.enteredReport index)
    | some graph =>
        (start? world (entered.id.nested entered.enters) graph).map fun (inner, events) =>
          (.hosting entered inner, events ++ entered.enteredReport index)
  else none
termination_by 2 * level.graph.nesting
decreasing_by
  have := Graph.nesting_lt_of_nestedAt? _found
  omega

end

def moveOn? (world : Option σ) (index : Nat) (level : Level) : Option (Run × List Event) :=
  if index < level.instances.length then
    let left := level.leave index
    let arrived :=
      match left.destination index with
      | .successor next => enter? world next left
      | .resumption next returns => enter? world next { left with returns }
      | .ending => some (finish { left with returns := .empty })
      | .unresolved _ => some (finish left)
    arrived.map fun (run, events) => (run, left.exitedReport index ++ events)
  else none

def advance? (seconds : Float32) (world : Option σ) : Run → Option (Run × List Event)
  | .alone level =>
      match level.current with
      | none => some (.alone level, [])
      | some index => do
          let inst ← level.instances[index]?
          let level := { level with ticks := level.ticks + 1 }
          let (activity, done) := inst.activity.work seconds world
          let level := level.withActivity index activity
          if done then moveOn? world index level else some (.alone level, [])
  | .hosting level inner =>
      match level.current with
      | none => some (.hosting level inner, [])
      | some index => do
          let _ ← level.instances[index]?
          let level := { level with ticks := level.ticks + 1 }
          let (inner, events) ← inner.advance? seconds world
          if inner.isFinished then
            (moveOn? world index level).map fun (run, moved) => (run, events ++ moved)
          else some (.hosting level inner, events)

def signal? (trigger : String) (run : Run) : Option Signalled :=
  if ∀ index ∈ run.level.waits.waiting trigger, index < run.level.instances.length then
    some (run.signal trigger)
  else none

/-! ## Nothing fails -/

mutual

theorem start?_eq (world : Option σ) (id : RunId) (graph : Graph) :
    start? world id graph = some (start world id graph) := by
  rw [start?]
  match found : graph.startIndex? with
  | none => simp only [start_of_none found]
  | some index =>
      have entered := enter?_eq world index (Level.sound_ofGraph id graph)
        (Graph.isWinner_of_startIndex? found)
      simp only [start_of_some found, entered, Option.map_some]
termination_by 2 * graph.nesting + 1
decreasing_by
  simp only [Level.ofGraph]
  omega

theorem enter?_eq (world : Option σ) (index : Nat) {level : Level} (sound : level.Sound)
    (wins : level.graph.IsWinner index) :
    enter? world index level = some (enter world index level) := by
  obtain ⟨inst, atIndex⟩ := sound.instance_of_isWinner wins
  have inRange := (List.getElem?_eq_some_iff.mp atIndex).1
  rw [enter?, if_pos inRange]
  match hosted : level.graph.nestedAt? index with
  | none =>
      rw [enter_of_none hosted]
  | some graph =>
      have started := start?_eq world
        ((level.enter world index).id.nested (level.enter world index).enters) graph
      rw [enter_of_some hosted]
      split
      next found => cases found
      next other found =>
        cases found
        simp only [started, Option.map_some]
termination_by 2 * level.graph.nesting
decreasing_by
  have := Graph.nesting_lt_of_nestedAt? hosted
  omega

end

theorem moveOn?_eq {level : Level} {index : Nat} (sound : level.Sound)
    (current : level.current = some index) (world : Option σ) :
    moveOn? world index level = some (moveOn world index level) := by
  have wins := sound.current index current
  obtain ⟨inst, atIndex⟩ := sound.instance_of_isWinner wins
  have inRange := (List.getElem?_eq_some_iff.mp atIndex).1
  have left := sound.leave wins
  have next : ∀ next, ((level.leave index).destination index).entered? = some next →
      (level.leave index).graph.IsWinner next := fun _ goes => left.isWinner_of_entered goes
  rw [moveOn?, if_pos inRange, moveOn_eq]
  dsimp only
  cases goes : (level.leave index).destination index with
  | successor other =>
      have entered := enter?_eq world other left (next other (by rw [goes]; rfl))
      simp only [entered, Option.map_some, arrive]
  | resumption other returns =>
      have entered := enter?_eq world other
        (left.withReturns (left.returns_subset_of_resumption goes)) (next other (by rw [goes]; rfl))
      simp only [entered, Option.map_some, arrive]
  | ending => rfl
  | unresolved => rfl

theorem advance?_alone {level : Level} {index : Nat} {inst : Instance}
    (current : level.current = some index) (found : level.instances[index]? = some inst)
    (seconds : Float32) (world : Option σ) :
    (alone level).advance? seconds world =
      if (inst.activity.work seconds world).2 then
        moveOn? world index (level.worked seconds world index)
      else some (.alone (level.worked seconds world index), []) := by
  unfold advance?
  split
  next missing => cases current.symm.trans missing
  next other same =>
    cases current.symm.trans same
    simp only [found, Option.bind_eq_bind, Option.bind_some]
    rw [Level.worked_eq_withActivity found]

theorem advance?_hosting {level : Level} {index : Nat} {inst : Instance}
    (current : level.current = some index) (found : level.instances[index]? = some inst)
    {inner : Run} {seconds : Float32} {world : Option σ}
    (inside : inner.advance? seconds world = some (inner.advance seconds world)) :
    (hosting level inner).advance? seconds world =
      let ticked := { level with ticks := level.ticks + 1 }
      if (inner.advance seconds world).1.isFinished then
        (moveOn? world index ticked).map fun (run, moved) =>
          (run, (inner.advance seconds world).2 ++ moved)
      else some (.hosting ticked (inner.advance seconds world).1,
        (inner.advance seconds world).2) := by
  rw [advance?]
  split
  next missing => cases current.symm.trans missing
  next other same =>
    cases current.symm.trans same
    simp only [found, inside, Option.bind_eq_bind, Option.bind_some]

theorem Sound.advance?_eq {run : Run} (sound : run.Sound) (seconds : Float32) (world : Option σ) :
    run.advance? seconds world = some (run.advance seconds world) := by
  induction sound with
  | @alone level sound free =>
      cases current : level.current with
      | none =>
          have isOver : (Run.alone level).level.current = none := current
          rw [advance_of_current_none isOver]
          simp only [advance?, current]
      | some index =>
          obtain ⟨inst, found⟩ := sound.instance_of_current current
          have moved := moveOn?_eq (sound.worked seconds world index) current world
          rw [advance_alone current found, advance?_alone current found]
          split
          · exact moved
          · rfl
  | @hosting level inner index sound current hosted identity within ih =>
      obtain ⟨inst, found⟩ := sound.instance_of_current current
      have moved := moveOn?_eq (sound.worked seconds world index) current world
      rw [sound.worked_eq_of_nested hosted] at moved
      rw [advance_hosting_of_current current, advance?_hosting current found ih]
      dsimp only
      split
      · simp only [moved, Option.map_some]
      · rfl

end Run

/-! ## The numbers that a level keeps -/

namespace Level

variable {level : Level} {index : Nat}

/-- The level keeps the number: for the node in control, for an id, on the stack or for a wait. -/
inductive Keeps (level : Level) (index : Nat) : Prop where
  | current (current : level.current = some index)
  | lookup {name : String} (found : level.graph.index? name = some index)
  | returns (member : index ∈ level.returns.entries)
  | waits {registration : Registration} (member : registration ∈ level.waits.registrations)
      (node : registration.node = index)

theorem Sound.lt_length_of_isWinner (sound : level.Sound) (wins : level.graph.IsWinner index) :
    index < level.instances.length := by
  obtain ⟨inst, found⟩ := sound.instance_of_isWinner wins
  exact (List.getElem?_eq_some_iff.mp found).1

theorem WaitKept.current_of_mem (kept : level.WaitKept) {registration : Registration}
    (member : registration ∈ level.waits.registrations) :
    level.current = some registration.node := by
  rw [WaitKept] at kept
  rw [kept, Option.mem_toList] at member
  exact (instance_of_wait? member).1

theorem Sound.lt_length_of_keeps (sound : level.Sound) (kept : level.WaitKept)
    (keeps : level.Keeps index) : index < level.instances.length := by
  apply sound.lt_length_of_isWinner
  cases keeps with
  | current current => exact sound.current index current
  | lookup found => exact Graph.isWinner_of_index? found
  | returns member => exact sound.returns index member
  | waits member node => exact node ▸ sound.current _ (kept.current_of_mem member)

/-- Only the node that its own id stands for has control. -/
theorem Sound.current?_eq (sound : level.Sound) (current : level.current = some index) :
    ∃ inst, level.current? = some inst ∧ level.instances[index]? = some inst ∧
      level.graph.index? inst.id = some index := by
  obtain ⟨node, atIndex, resolved⟩ := sound.current index current
  obtain ⟨inst, found, rfl⟩ := sound.instance_of_named atIndex
  exact ⟨inst, current?_of_found current found, found, resolved⟩

end Level

namespace Run

variable {σ : Type} [World σ] {run : Run}

theorem signal?_eq (sound : run.Sound) (kept : run.level.WaitKept) (trigger : String) :
    run.signal? trigger = some (run.signal trigger) := by
  refine if_pos fun index woken => ?_
  obtain ⟨registration, member, node⟩ := List.mem_map.mp woken
  exact sound.level.lt_length_of_keeps kept (.waits (List.mem_filter.mp member).1 node)

theorem isSome_current?_of_sound {level : Level} (sound : level.Sound) :
    level.current?.isSome = !level.isFinished := by
  cases current : level.current with
  | none => simp [Level.current?, Level.isFinished, current]
  | some index =>
      obtain ⟨inst, found, _⟩ := sound.current?_eq current
      simp [found, Level.isFinished, current]

theorem Sound.isSome_status? (sound : run.Sound) (world : Option σ) :
    (run.status? world).isSome = !run.isFinished := by
  have shown := isSome_current?_of_sound sound.level
  cases run <;> exact Option.isSome_map.trans shown

/-- The entry of the node in control is marked active. -/
theorem map_active_nodeStatuses (run : Run) (world : Option σ) :
    (run.nodeStatuses world).map (·.active) =
      (List.range run.level.instances.length).map (run.level.current == some ·) := by
  apply List.ext_getElem
  · simp only [nodeStatuses, List.length_map, List.length_mapIdx, List.length_range]
  · intro index _ _
    simp only [nodeStatuses, List.getElem_map, List.getElem_mapIdx, List.getElem_range]

theorem Sound.countP_active_nodeStatuses (sound : run.Sound) (world : Option σ) :
    (run.nodeStatuses world).countP (·.active) = if run.isFinished then 0 else 1 := by
  have marks : (run.nodeStatuses world).countP (·.active) =
      (List.range run.level.instances.length).countP (run.level.current == some ·) := by
    have same := congrArg (List.countP id) (map_active_nodeStatuses run world)
    rw [List.countP_map, List.countP_map] at same
    exact same
  cases current : run.level.current with
  | none =>
      have isOver : run.isFinished = true := Option.isNone_iff_eq_none.mpr current
      rw [marks, if_pos isOver]
      simp [current]
  | some index =>
      have running : run.isFinished = false := Level.isFinished_of_current current
      have inRange : index ∈ List.range run.level.instances.length :=
        List.mem_range.mpr (sound.level.lt_length_of_isWinner (sound.level.current index current))
      rw [marks, current, running]
      calc (List.range run.level.instances.length).countP (some index == some ·)
          = (List.range run.level.instances.length).count index :=
            List.countP_congr fun other _ => by
              rw [beq_iff_eq, beq_iff_eq, Option.some.injEq, eq_comm]
        _ = 1 := List.nodup_range.count.trans (if_pos inRange)

end Run

namespace Session

variable {σ : Type} [World σ] (world : Option σ) (id : RunId) (graph : Graph)

/-- No run ever comes to a number without an instance. -/
theorem indices_in_range (operations : List (Operation σ)) :
    Run.start? world id graph = some (Run.start world id graph) ∧
    ∀ nested ∈ (after world id graph operations).run.chain,
      (∀ index, nested.level.Keeps index → index < nested.level.instances.length) ∧
      (∀ name index, nested.level.graph.index? name = some index ↔
        ∃ node, node.id = name ∧ nested.level.graph.LastNamed node index) ∧
      (∀ node index, nested.level.graph.LastNamed node index →
        ∃ inst, nested.level.instances[index]? = some inst ∧ inst.node = node) ∧
      (∀ index, nested.level.current = some index →
        ∃ inst, nested.level.current? = some inst ∧ nested.level.instances[index]? = some inst ∧
          nested.level.graph.index? inst.id = some index) ∧
      (∀ (seconds : Float32) (now : Option σ),
        nested.advance? seconds now = some (nested.advance seconds now)) ∧
      (∀ trigger, nested.signal? trigger = some (nested.signal trigger)) ∧
      ∀ now : Option σ, (nested.status? now).isSome = !nested.isFinished ∧
        (nested.nodeStatuses now).countP (·.active) = if nested.isFinished then 0 else 1 := by
  refine ⟨Run.start?_eq world id graph, fun nested member => ?_⟩
  have sound := (sound world id graph operations).of_mem_chain member
  obtain ⟨_, history⟩ := historic_of_mem_chain world id graph operations member
  have kept := history.waitKept
  refine ⟨fun index => sound.level.lt_length_of_keeps kept, fun _ _ => Graph.index?_eq_some_iff,
    fun node index isLast => sound.level.instance_of_named isLast.getElem?_named,
    fun index => sound.level.current?_eq, sound.advance?_eq, Run.signal?_eq sound kept,
    fun now => ⟨sound.isSome_status? now, sound.countP_active_nodeStatuses now⟩⟩

end Session

end SceneFlow
