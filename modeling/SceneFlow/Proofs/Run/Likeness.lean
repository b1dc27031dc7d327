import Mathlib.Data.List.Forall2
import SceneFlow.Proofs.Graph.Pairing
import SceneFlow.Proofs.Run.Commands

/-!
# Runs of graphs that resolve ids alike

Two runs are alike if they agree in everything but the numbers that their graphs give to nodes, and
where one run holds a number, the other holds its partner. Runs of graphs in which ids stand for the
same nodes are alike from their beginning on. So they do and report the same, and nothing depends on
the order of nodes, on nodes whose id is given again later, or on nodes without an id.
-/

set_option autoImplicit false

namespace SceneFlow

/-! ## What can be seen of a run -/

/-- What can be seen of a level, with ids in place of numbers. -/
structure Level.View where
  id : RunId
  graph : String
  finished : Bool
  current : Option (String × NodeType)
  ticks : Nat
  enters : Nat
  /-- The nodes to return to, the one on top first. -/
  returns : List (Option String)
  /-- Triggers with the nodes that wait for them, the oldest wait first. -/
  waits : List (String × Option String)
  /-- What the node that an id stands for remembers. -/
  activity : String → Option Activity

namespace Level

def idAt? (level : Level) (index : Nat) : Option String :=
  level.instances[index]?.map (·.id)

def view (level : Level) : View :=
  { id := level.id
    graph := level.graph.id
    finished := level.isFinished
    current := level.current?.map fun inst => (inst.id, inst.type)
    ticks := level.ticks
    enters := level.enters
    returns := level.returns.entries.map level.idAt?
    waits := level.waits.registrations.map fun wait => (wait.trigger, level.idAt? wait.node)
    activity := fun id =>
      (level.graph.index? id).bind fun index => level.instances[index]?.map (·.activity) }

end Level

/-- What can be seen of a run and of those nested in it, from the outside inwards. -/
def Run.views (run : Run) : List Level.View :=
  run.chain.map (·.level.view)

/-! ## Pairs in options and lists -/

theorem none_or_some_of_rel {α β : Type} {related : α → β → Prop} {left : Option α}
    {right : Option β} (pair : Option.Rel related left right) :
    (left = none ∧ right = none) ∨ ∃ a b, left = some a ∧ right = some b ∧ related a b := by
  cases pair with
  | none => exact .inl ⟨rfl, rfl⟩
  | @some a b pair => exact .inr ⟨a, b, rfl, rfl, pair⟩

theorem forall₂_erase {α β : Type} [BEq α] [LawfulBEq α] [BEq β] [LawfulBEq β]
    {related : α → β → Prop} {left : List α} {right : List β}
    (all : List.Forall₂ related left right) {old : α} {other : β}
    (only : ∀ a b, related a b → (a = old ↔ b = other)) :
    List.Forall₂ related (left.erase old) (right.erase other) := by
  induction all with
  | nil => exact .nil
  | @cons a b left right pair rest ih =>
      have sameTest := only a b pair
      by_cases same : a = old
      · rw [same, sameTest.mp same, List.erase_cons_head, List.erase_cons_head]
        exact rest
      · have different : ¬ b = other := fun equal => same (sameTest.mpr equal)
        rw [List.erase_cons_tail (by simpa using same),
          List.erase_cons_tail (by simpa using different)]
        exact .cons pair ih

namespace Level

variable {σ : Type} [World σ] {first second : Graph} {left right : Level} {index other : Nat}

/-- The waits of the two sides are for the same trigger, and those of partners. -/
def WaitsPaired (first second : Graph) (wait wait' : Registration) : Prop :=
  wait.trigger = wait'.trigger ∧ first.Paired second wait.node wait'.node

/-- The levels run the two graphs and differ in the numbers of nodes alone. -/
structure Alike (first second : Graph) (left right : Level) : Prop where
  id : left.id = right.id
  leftGraph : left.graph = first
  rightGraph : right.graph = second
  instances : ∀ index other, first.Paired second index other →
    left.instances[index]? = right.instances[other]?
  current : Option.Rel (first.Paired second) left.current right.current
  waits : List.Forall₂ (WaitsPaired first second) left.waits.registrations
    right.waits.registrations
  returns : List.Forall₂ (first.Paired second) left.returns.entries right.returns.entries
  ticks : left.ticks = right.ticks
  enters : left.enters = right.enters

theorem waits_enter {inst : Instance} (found : left.instances[index]? = some inst)
    (world : Option σ) :
    (left.enter world index).waits = waitsOnEntry index inst.activity left.waits := by
  simp only [enter, found]

theorem waits_leave {inst : Instance} (found : left.instances[index]? = some inst) :
    (left.leave index).waits = waitsOnExit index inst.activity left.waits := by
  simp only [leave, found]

section Pairs

variable (paired : first.Paired second index other) (activity : Activity)
include paired

theorem forall₂_waitsOnEntry {waits waits' : TriggerRegistry}
    (all : List.Forall₂ (WaitsPaired first second) waits.registrations waits'.registrations) :
    List.Forall₂ (WaitsPaired first second) (waitsOnEntry index activity waits).registrations
      (waitsOnEntry other activity waits').registrations := by
  cases activity with
  | waitForTrigger trigger fired =>
      simp only [waitsOnEntry]
      split
      · exact all
      · exact List.rel_append all (.cons ⟨rfl, paired⟩ .nil)
  | _ => exact all

theorem forall₂_waitsOnExit {waits waits' : TriggerRegistry}
    (all : List.Forall₂ (WaitsPaired first second) waits.registrations waits'.registrations) :
    List.Forall₂ (WaitsPaired first second) (waitsOnExit index activity waits).registrations
      (waitsOnExit other activity waits').registrations := by
  cases activity with
  | waitForTrigger trigger fired =>
      simp only [waitsOnExit]
      split
      · exact all
      · refine forall₂_erase all fun wait wait' pair => ?_
        rcases wait with ⟨trigger, node⟩
        rcases wait' with ⟨trigger', node'⟩
        obtain ⟨sameTrigger, pairedNodes⟩ := pair
        cases sameTrigger
        simp only [Registration.mk.injEq, pairedNodes.eq_iff paired]
  | _ => exact all

theorem forall₂_returnsOnEntry {returns returns' : ReturnStack}
    (all : List.Forall₂ (first.Paired second) returns.entries returns'.entries) :
    List.Forall₂ (first.Paired second) (returnsOnEntry index activity returns).entries
      (returnsOnEntry other activity returns').entries := by
  cases activity with
  | sequence steps step =>
      simp only [returnsOnEntry]
      split
      · exact all
      · refine List.rel_filter (fun node node' pair => ?_) all
        simp only [ne_eq, pair.eq_iff paired]
  | _ => exact all

theorem forall₂_returnsOnExit {returns returns' : ReturnStack}
    (all : List.Forall₂ (first.Paired second) returns.entries returns'.entries) :
    List.Forall₂ (first.Paired second) (returnsOnExit index activity returns).entries
      (returnsOnExit other activity returns').entries := by
  simp only [returnsOnExit]
  split
  · exact .cons paired all
  · exact all

end Pairs

section Alike

variable (alike : Alike first second left right)
include alike

theorem Alike.current_cases :
    (left.current = none ∧ right.current = none) ∨
      ∃ index other, left.current = some index ∧ right.current = some other ∧
        first.Paired second index other :=
  none_or_some_of_rel alike.current

theorem Alike.isFinished : left.isFinished = right.isFinished := by
  unfold Level.isFinished
  rcases alike.current_cases with ⟨isOver, isOver'⟩ | ⟨index, other, current, current', _⟩
  · rw [isOver, isOver']
  · rw [current, current']
    rfl

theorem Alike.current?_eq : left.current? = right.current? := by
  unfold Level.current?
  rcases alike.current_cases with ⟨isOver, isOver'⟩ | ⟨index, other, current, current', paired⟩
  · rw [isOver, isOver']
    rfl
  · rw [current, current', Option.bind_some, Option.bind_some, alike.instances index other paired]

theorem Alike.exists_instance (sound : left.Sound) (paired : first.Paired second index other) :
    ∃ inst, left.instances[index]? = some inst ∧ right.instances[other]? = some inst := by
  have wins := paired.isWinner_left
  rw [← alike.leftGraph] at wins
  obtain ⟨inst, found⟩ := sound.instance_of_isWinner wins
  exact ⟨inst, found, (alike.instances index other paired).symm.trans found⟩

/-- Whatever is done to partners alike leaves partners alike. -/
theorem Alike.instances_of_changes {after after' : Level} {change : Instance → Instance}
    (paired : first.Paired second index other)
    (equation : ∀ node : Nat, after.instances[node]? =
      left.instances[node]?.map fun inst => if index = node then change inst else inst)
    (equation' : ∀ node : Nat, after'.instances[node]? =
      right.instances[node]?.map fun inst => if other = node then change inst else inst) :
    ∀ node node', first.Paired second node node' →
      after.instances[node]? = after'.instances[node']? := by
  intro node node' pair
  rw [equation, equation', alike.instances node node' pair]
  congr 1
  funext inst
  simp only [paired.eq_iff pair]

theorem Alike.enter (sound : left.Sound) (paired : first.Paired second index other)
    (world : Option σ) : Alike first second (left.enter world index) (right.enter world other) := by
  obtain ⟨inst, found, found'⟩ := alike.exists_instance sound paired
  constructor
  · rw [id_enter, id_enter, alike.id]
  · rw [graph_enter, alike.leftGraph]
  · rw [graph_enter, alike.rightGraph]
  · exact alike.instances_of_changes paired
      (fun node => getElem?_enter world index node left)
      (fun node => getElem?_enter world other node right)
  · rw [current_enter, current_enter]
    exact .some paired
  · rw [waits_enter found, waits_enter found']
    exact forall₂_waitsOnEntry paired inst.activity alike.waits
  · rw [returns_enter found, returns_enter found']
    exact forall₂_returnsOnEntry paired inst.activity alike.returns
  · rw [ticks_enter, ticks_enter, alike.ticks]
  · rw [enters_enter, enters_enter, alike.enters]

theorem Alike.worked (paired : first.Paired second index other) (seconds : Float32)
    (world : Option σ) :
    Alike first second (left.worked seconds world index) (right.worked seconds world other) where
  id := alike.id
  leftGraph := alike.leftGraph
  rightGraph := alike.rightGraph
  instances := alike.instances_of_changes paired
    (fun node => getElem?_worked seconds world index node left)
    (fun node => getElem?_worked seconds world other node right)
  current := alike.current
  waits := alike.waits
  returns := alike.returns
  ticks := congrArg (· + 1) alike.ticks
  enters := alike.enters

theorem Alike.leave (sound : left.Sound) (paired : first.Paired second index other) :
    Alike first second (left.leave index) (right.leave other) := by
  obtain ⟨inst, found, found'⟩ := alike.exists_instance sound paired
  have current : ∀ (level : Level) (node : Nat), (level.leave node).current = level.current := by
    intro level node
    obtain ⟨_, _, whole⟩ := leave_eq node level
    rw [whole]
  constructor
  · rw [id_leave, id_leave, alike.id]
  · rw [graph_leave, alike.leftGraph]
  · rw [graph_leave, alike.rightGraph]
  · rw [instances_leave, instances_leave]
    exact alike.instances
  · rw [current, current]
    exact alike.current
  · rw [waits_leave found, waits_leave found']
    exact forall₂_waitsOnExit paired inst.activity alike.waits
  · rw [returns_leave found, returns_leave found']
    exact forall₂_returnsOnExit paired inst.activity alike.returns
  · rw [ticks_leave, ticks_leave, alike.ticks]
  · rw [enters_leave, enters_leave, alike.enters]

theorem Alike.finish : Alike first second left.finish right.finish where
  id := alike.id
  leftGraph := alike.leftGraph
  rightGraph := alike.rightGraph
  instances := alike.instances
  current := .none
  waits := alike.waits
  returns := alike.returns
  ticks := alike.ticks
  enters := alike.enters

theorem Alike.withReturns {returns returns' : ReturnStack}
    (pairs : List.Forall₂ (first.Paired second) returns.entries returns'.entries) :
    Alike first second { left with returns } { right with returns := returns' } where
  id := alike.id
  leftGraph := alike.leftGraph
  rightGraph := alike.rightGraph
  instances := alike.instances
  current := alike.current
  waits := alike.waits
  returns := pairs
  ticks := alike.ticks
  enters := alike.enters

theorem Alike.withActivity (paired : first.Paired second index other) (activity : Activity) :
    Alike first second (left.withActivity index activity) (right.withActivity other activity) where
  id := alike.id
  leftGraph := alike.leftGraph
  rightGraph := alike.rightGraph
  instances := alike.instances_of_changes paired
    (fun node => getElem?_withActivity index node activity left)
    (fun node => getElem?_withActivity other node activity right)
  current := alike.current
  waits := alike.waits
  returns := alike.returns
  ticks := alike.ticks
  enters := alike.enters

/-! ## Reports and destinations -/

theorem Alike.enteredReport (paired : first.Paired second index other) :
    left.enteredReport index = right.enteredReport other := by
  simp only [Level.enteredReport, alike.instances index other paired, event, alike.id, alike.ticks]

theorem Alike.exitedReport (paired : first.Paired second index other) :
    left.exitedReport index = right.exitedReport other := by
  simp only [Level.exitedReport, alike.instances index other paired, event, alike.id, alike.ticks]

theorem Alike.finishedReport (same : first.SameResolution second) :
    left.finishedReport = right.finishedReport := by
  rw [Level.finishedReport, Level.finishedReport, event, event, alike.id, alike.ticks,
    alike.leftGraph, alike.rightGraph, same.id]

end Alike

end Level

/-- The destinations lead to partners, or nowhere for the same reason. -/
inductive Destination.Alike (first second : Graph) : Destination → Destination → Prop where
  | successor {index other : Nat} (paired : first.Paired second index other) :
      Alike first second (.successor index) (.successor other)
  | resumption {index other : Nat} {returns returns' : ReturnStack}
      (paired : first.Paired second index other)
      (pairs : List.Forall₂ (first.Paired second) returns.entries returns'.entries) :
      Alike first second (.resumption index returns) (.resumption other returns')
  | ending : Alike first second .ending .ending
  | unresolved (id : String) : Alike first second (.unresolved id) (.unresolved id)

theorem Level.Alike.destination {first second : Graph} {left right : Level} {index other : Nat}
    (alike : Level.Alike first second left right) (same : first.SameResolution second)
    (sound : left.Sound) (sound' : right.Sound) (paired : first.Paired second index other) :
    Destination.Alike first second (left.destination index) (right.destination other) := by
  have asked : left.successor? index = right.successor? other := by
    rw [successor?, successor?, alike.instances index other paired]
  rw [sound.destination_eq, sound'.destination_eq, asked, alike.leftGraph, alike.rightGraph]
  cases right.successor? other with
  | some id =>
      dsimp only
      cases found : first.index? id with
      | none =>
          rw [same.index?_none found]
          exact .unresolved id
      | some next =>
          obtain ⟨partner, found', pair⟩ := same.exists_paired found
          rw [found']
          exact .successor pair
  | none =>
      have pairs := alike.returns
      dsimp only
      cases onTop : left.returns.entries with
      | nil =>
          rw [onTop] at pairs
          rw [List.forall₂_nil_left_iff.mp pairs]
          exact .ending
      | cons next rest =>
          rw [onTop] at pairs
          obtain ⟨partner, rest', pair, pairs, onTop'⟩ := List.forall₂_cons_left_iff.mp pairs
          rw [onTop']
          exact .resumption pair pairs

/-! ## Runs -/

namespace Run

variable {σ : Type} [World σ] {first second : Graph}

/-- The outermost levels are alike, and they host the same run or none. -/
inductive Alike (first second : Graph) : Run → Run → Prop where
  | alone {left right : Level} (levels : Level.Alike first second left right) :
      Alike first second (.alone left) (.alone right)
  | hosting {left right : Level} (levels : Level.Alike first second left right) (inner : Run) :
      Alike first second (.hosting left inner) (.hosting right inner)

theorem Alike.level {left right : Run} (alike : Alike first second left right) :
    Level.Alike first second left.level right.level := by
  cases alike with
  | alone levels => exact levels
  | hosting levels => exact levels

theorem Alike.command?_eq {left right : Run} (alike : Alike first second left right) :
    left.command? = right.command? := by
  cases alike with
  | alone levels => rw [command?, command?, levels.current?_eq]
  | hosting levels inner => rw [command?, command?, levels.isFinished]

/-- The runs are alike and the events are the same. -/
structure AlikeWith (first second : Graph) (left right : Run × List Event) : Prop where
  runs : Alike first second left.1 right.1
  events : left.2 = right.2

section Steps

variable {left right : Level} {index other : Nat}
  (alike : Level.Alike first second left right) (same : first.SameResolution second)
include alike same

theorem alike_enter (sound : left.Sound) (paired : first.Paired second index other)
    (world : Option σ) :
    AlikeWith first second (enter world index left) (enter world other right) := by
  have levels := alike.enter sound paired world
  have reported := levels.enteredReport paired
  have hosts := paired.nestedAt?_eq same
  rw [← alike.leftGraph, ← alike.rightGraph] at hosts
  cases hosted : left.graph.nestedAt? index with
  | none =>
      rw [enter_of_none hosted, enter_of_none (hosts.symm.trans hosted)]
      exact ⟨.alone levels, reported⟩
  | some graph =>
      rw [enter_hosting hosted, enter_hosting (hosts.symm.trans hosted), alike.id, alike.enters,
        reported]
      exact ⟨.hosting levels _, rfl⟩

theorem alike_arrive (sound : left.Sound) {destination destination' : Destination}
    (goes : Destination.Alike first second destination destination')
    (popped : ∀ next returns, destination = .resumption next returns →
      returns.entries ⊆ left.returns.entries) (world : Option σ) :
    AlikeWith first second (arrive world left destination) (arrive world right destination') := by
  cases goes with
  | successor paired => exact alike_enter alike same sound paired world
  | resumption paired pairs =>
      exact alike_enter (alike.withReturns pairs) same (sound.withReturns (popped _ _ rfl)) paired
        world
  | ending =>
      have ended : Level.Alike first second { left with returns := .empty }
          { right with returns := .empty } := alike.withReturns .nil
      exact ⟨.alone ended.finish, congrArg ([·]) (ended.finishedReport same)⟩
  | unresolved id => exact ⟨.alone alike.finish, congrArg ([·]) (alike.finishedReport same)⟩

theorem alike_moveOn (sound : left.Sound) (sound' : right.Sound)
    (paired : first.Paired second index other) (world : Option σ) :
    AlikeWith first second (moveOn world index left) (moveOn world other right) := by
  have levels := alike.leave sound paired
  have wins := paired.isWinner_left
  have wins' := paired.isWinner_right
  rw [← alike.leftGraph] at wins
  rw [← alike.rightGraph] at wins'
  have goes := levels.destination same (sound.leave wins) (sound'.leave wins') paired
  have arrived := alike_arrive levels same (sound.leave wins) goes
    (fun _ _ resumed => (sound.leave wins).returns_subset_of_resumption resumed) world
  have exited := levels.exitedReport paired
  rw [moveOn_eq, moveOn_eq]
  refine ⟨arrived.runs, ?_⟩
  dsimp only
  rw [exited, arrived.events]

end Steps

theorem alike_start (same : first.SameResolution second) (world : Option σ) (id : RunId) :
    AlikeWith first second (start world id first) (start world id second) := by
  have fresh : Level.Alike first second (Level.ofGraph id first) (Level.ofGraph id second) := by
    refine ⟨rfl, rfl, rfl, fun index other paired => ?_, .none, .nil, .nil, rfl, rfl⟩
    rw [Level.ofGraph, Level.ofGraph, List.getElem?_map, List.getElem?_map, paired.named_eq same]
  have started : (Level.ofGraph id first).event (.runStarted first.id) =
      (Level.ofGraph id second).event (.runStarted second.id) := by
    rw [same.id]
    rfl
  obtain ⟨missing, missing'⟩ | ⟨index, other, found, found', paired⟩ :=
    none_or_some_of_rel same.startIndex?
  · rw [start_of_none missing, start_of_none missing', started, fresh.finishedReport same]
    exact ⟨.alone fresh, rfl⟩
  · have entered := alike_enter fresh same (Level.sound_ofGraph id first) paired world
    rw [start_of_some found, start_of_some found', started]
    exact ⟨entered.runs, congrArg (List.cons _) entered.events⟩

theorem Alike.advance {left right : Run} (alike : Alike first second left right)
    (same : first.SameResolution second) (sound : left.Sound) (sound' : right.Sound)
    (seconds : Float32) (world : Option σ) :
    AlikeWith first second (left.advance seconds world) (right.advance seconds world) := by
  cases alike with
  | @alone left right levels =>
      have sound := sound.level
      have sound' := sound'.level
      rcases levels.current_cases with ⟨isOver, isOver'⟩ | ⟨index, other, current, current', paired⟩
      · have leftOver : (Run.alone left).level.current = none := isOver
        have rightOver : (Run.alone right).level.current = none := isOver'
        rw [advance_of_current_none leftOver, advance_of_current_none rightOver]
        exact ⟨.alone levels, rfl⟩
      · obtain ⟨inst, found, found'⟩ := levels.exists_instance sound paired
        have worked := levels.worked paired seconds world
        rw [advance_alone current found, advance_alone current' found']
        split
        · exact alike_moveOn worked same (sound.worked seconds world index)
            (sound'.worked seconds world other) paired world
        · exact ⟨.alone worked, rfl⟩
  | @hosting left right levels inner =>
      cases sound with
      | hosting sound current hosted =>
      cases sound' with
      | hosting sound' current' hosted' =>
          obtain ⟨isOver, _⟩ | ⟨index, other, here, here', paired⟩ := levels.current_cases
          · exact absurd (isOver.symm.trans current) nofun
          · cases current.symm.trans here
            cases current'.symm.trans here'
            have worked := levels.worked paired seconds world
            -- Both host the very same run, so only what the levels do around it is to be compared.
            rw [advance_hosting sound current hosted, advance_hosting sound' current' hosted']
            split
            · have moved := alike_moveOn worked same (sound.worked seconds world _)
                (sound'.worked seconds world _) paired world
              exact ⟨moved.runs, congrArg (_ ++ ·) moved.events⟩
            · exact ⟨.hosting worked _, rfl⟩

end Run

/-! ## Signals -/

namespace Level

variable {first second : Graph} {left right : Level}

/-- The levels are alike, and as many nodes have been woken in both. -/
def WokenAlike (first second : Graph) (state state' : Level × Nat) : Prop :=
  Alike first second state.1 state'.1 ∧ state.2 = state'.2

theorem WokenAlike.wake {state state' : Level × Nat} (alike : WokenAlike first second state state')
    {index other : Nat} (paired : first.Paired second index other) :
    WokenAlike first second (Level.wake state index) (Level.wake state' other) := by
  obtain ⟨levels, counted⟩ := alike
  simp only [Level.wake, levels.instances index other paired]
  cases state'.1.instances[other]?.bind (·.activity.signalled?) with
  | none => exact ⟨levels, counted⟩
  | some activity => exact ⟨levels.withActivity paired activity, congrArg (· + 1) counted⟩

theorem Alike.signal (alike : Alike first second left right) (trigger : String) :
    WokenAlike first second (left.signal trigger) (right.signal trigger) := by
  have waiting : List.Forall₂ (first.Paired second) (left.waits.waiting trigger)
      (right.waits.waiting trigger) := by
    refine List.rel_map (fun wait wait' pair => pair.2)
      (List.rel_filter (fun wait wait' pair => ?_) alike.waits)
    dsimp only
    rw [pair.1]
  exact List.rel_foldl (fun _ _ alike _ _ paired => alike.wake paired) ⟨alike, rfl⟩ waiting

/-! ## Alike levels look the same -/

theorem Alike.idAt? (alike : Alike first second left right) {index other : Nat}
    (paired : first.Paired second index other) : left.idAt? index = right.idAt? other := by
  rw [Level.idAt?, Level.idAt?, alike.instances index other paired]

theorem Alike.view (alike : Alike first second left right) (same : first.SameResolution second) :
    left.view = right.view := by
  have returns : left.returns.entries.map left.idAt? = right.returns.entries.map right.idAt? :=
    List.forall₂_eq_eq_eq ▸ List.rel_map (fun _ _ paired => alike.idAt? paired) alike.returns
  have waits : (left.waits.registrations.map fun wait => (wait.trigger, left.idAt? wait.node)) =
      right.waits.registrations.map fun wait => (wait.trigger, right.idAt? wait.node) :=
    List.forall₂_eq_eq_eq ▸ List.rel_map (fun _ _ pair => by rw [pair.1, alike.idAt? pair.2])
      alike.waits
  have activity : (fun id => (left.graph.index? id).bind fun index =>
        left.instances[index]?.map (·.activity)) =
      fun id => (right.graph.index? id).bind fun index =>
        right.instances[index]?.map (·.activity) := by
    funext id
    rw [alike.leftGraph, alike.rightGraph]
    cases found : first.index? id with
    | none =>
        rw [same.index?_none found]
        rfl
    | some index =>
        obtain ⟨other, found', paired⟩ := same.exists_paired found
        rw [found', Option.bind_some, Option.bind_some, alike.instances index other paired]
  simp only [Level.view, alike.id, alike.isFinished, alike.current?_eq, alike.ticks, alike.enters,
    returns, waits, activity]
  rw [alike.leftGraph, alike.rightGraph, same.id]

end Level

namespace Run

variable {first second : Graph} {left right : Run}

theorem Alike.signal (alike : Alike first second left right) (trigger : String) :
    AlikeWith first second ((left.signal trigger).run, (left.signal trigger).events)
        ((right.signal trigger).run, (right.signal trigger).events) ∧
      (left.signal trigger).woken = (right.signal trigger).woken := by
  obtain ⟨levels, woken⟩ := alike.level.signal trigger
  have events : (left.signal trigger).events = (right.signal trigger).events := by
    simp only [Run.signal, Level.event, levels.id, woken]
  cases alike with
  | alone => exact ⟨⟨.alone levels, events⟩, woken⟩
  | hosting _ inner => exact ⟨⟨.hosting levels inner, events⟩, woken⟩

theorem Alike.views (alike : Alike first second left right) (same : first.SameResolution second) :
    left.views = right.views := by
  have outermost := alike.level.view same
  cases alike with
  | alone => exact congrArg ([·]) outermost
  | hosting levels inner => exact congrArg (· :: inner.views) outermost

end Run

/-! ## Sessions -/

namespace Session

variable {σ : Type} [World σ] {first second : Graph}

/-- The sessions have alike runs in the same world, and whatever happened is the same in both. -/
structure Alike (first second : Graph) (left right : Session σ) : Prop where
  runs : Run.Alike first second left.run right.run
  world : left.world = right.world
  events : left.events = right.events

omit [World σ] in
theorem Alike.issued?_eq {left right : Session σ} (alike : Alike first second left right)
    (operation : Operation σ) : left.issued? operation = right.issued? operation := by
  cases operation with
  | tick => rw [issued?, issued?, alike.world, alike.runs.command?_eq]
  | signal | change => rfl

theorem Alike.perform {left right : Session σ} (alike : Alike first second left right)
    (same : first.SameResolution second) (sound : left.run.Sound) (sound' : right.run.Sound)
    (operation : Operation σ) :
    Alike first second (left.perform operation) (right.perform operation) := by
  have worlds : (left.perform operation).world = (right.perform operation).world := by
    rw [world_perform, world_perform, alike.world, alike.issued?_eq operation]
  cases operation with
  | tick seconds =>
      change (left.run.tick seconds left.world).world = (right.run.tick seconds right.world).world
        at worlds
      have ticked := alike.runs.advance same sound sound' seconds
        (left.run.tick seconds left.world).world
      refine ⟨?_, worlds, ?_⟩
      · change Run.Alike first second (left.run.advance seconds _).1
          (right.run.advance seconds (right.run.tick seconds right.world).world).1
        rw [← worlds]
        exact ticked.runs
      · change left.events ++ (left.run.advance seconds _).2 =
          right.events ++
            (right.run.advance seconds (right.run.tick seconds right.world).world).2
        rw [alike.events, ← worlds]
        exact congrArg (right.events ++ ·) ticked.events
  | signal trigger =>
      have signalled := (alike.runs.signal trigger).1
      refine ⟨signalled.runs, worlds, ?_⟩
      change left.events ++ (left.run.signal trigger).events =
        right.events ++ (right.run.signal trigger).events
      rw [alike.events]
      exact congrArg (right.events ++ ·) signalled.events
  | change become => exact ⟨alike.runs, worlds, alike.events⟩

section SameResolution

variable (same : first.SameResolution second) (world : Option σ) (id : RunId)
  (operations : List (Operation σ))
include same

theorem alike :
    Alike first second (after world id first operations) (after world id second operations) := by
  induction operations using List.reverseRecOn with
  | nil =>
      have started := Run.alike_start same world id
      exact ⟨started.runs, rfl, started.events⟩
  | append_singleton operations operation ih =>
      rw [after_append, after_append]
      exact ih.perform same (sound world id first operations) (sound world id second operations)
        operation

theorem commands_eq :
    (begin world id first).commands operations = (begin world id second).commands operations := by
  induction operations using List.reverseRecOn with
  | nil => rfl
  | append_singleton operations operation ih =>
      have issued := (alike same world id operations).issued?_eq operation
      change issued? (operations.foldl Session.perform (begin world id first)) operation =
        issued? (operations.foldl Session.perform (begin world id second)) operation at issued
      rw [commands, commands, gather_append, gather_append, issued]
      exact congrArg (· ++ _) ih

/-- Runs of graphs in which ids stand for the same nodes cannot be told apart, however deep one
looks into them and whatever is done to them: they look the same, report the same, command the same
and leave the same world, and signals wake as many nodes in both. -/
theorem runs_alike_of_sameResolution :
    let left := after world id first operations
    let right := after world id second operations
    left.run.views = right.run.views ∧
    left.events = right.events ∧
    left.world = right.world ∧
    (begin world id first).commands operations = (begin world id second).commands operations ∧
    ∀ trigger, (left.run.signal trigger).woken = (right.run.signal trigger).woken := by
  intro left right
  have alike : Alike first second left right := alike same world id operations
  exact ⟨alike.runs.views same, alike.events, alike.world, commands_eq same world id operations,
    fun trigger => (alike.runs.signal trigger).2⟩

end SameResolution

end Session

/-- A scene that ends once a bell has rung. -/
def Graph.bell : Graph :=
  ⟨"bell",
    [(Node.start "open").followedBy "wait", (Node.waitForTrigger "wait" "ring").followedBy "done",
      Node.objective "done" "goal" .complete],
    []⟩

/-- The same scene in disorder, with a node without an id and one whose id is given again. -/
def Graph.bellInDisorder : Graph :=
  ⟨"bell",
    [(Node.start "open").followedBy "wait", Node.start "wait", Node.start "",
      Node.objective "done" "goal" .complete,
      (Node.waitForTrigger "wait" "ring").followedBy "done"],
    []⟩

theorem Graph.sameResolution_bell : bellInDisorder.SameResolution bell where
  id := rfl
  last? id named := by
    by_cases opens : "open" = id
    · subst opens
      rfl
    by_cases waits : "wait" = id
    · subst waits
      rfl
    by_cases ends : "done" = id
    · subst ends
      rfl
    simp [last?, bell, bellInDisorder, Node.followedBy, Node.start, Node.objective,
      Node.waitForTrigger, Node.ofKind, opens, waits, ends, named.symm]
  start := rfl

theorem Session.runs_alike_bell :
    Graph.bellInDisorder.SameResolution Graph.bell ∧
      let ring := [.tick 0, .signal "ring", .tick 0, .tick 0]
      (after (some EmptyWorld.empty) (.outermost 0) Graph.bellInDisorder ring).run.views =
          (after (some EmptyWorld.empty) (.outermost 0) Graph.bell ring).run.views ∧
        (after (some EmptyWorld.empty) (.outermost 0) Graph.bellInDisorder ring).events =
          (after (some EmptyWorld.empty) (.outermost 0) Graph.bell ring).events := by
  have alike := runs_alike_of_sameResolution Graph.sameResolution_bell (some EmptyWorld.empty)
    (.outermost 0) [.tick 0, .signal "ring", .tick 0, .tick 0]
  exact ⟨Graph.sameResolution_bell, alike.1, alike.2.1⟩

end SceneFlow
