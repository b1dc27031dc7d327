import SceneFlow.Proofs.Run.Likeness

/-!
# Corresponding runs

Two runs may go the same way although their graphs are not the same and their worlds are of
different kinds. It is enough to say which graphs, which instances and which worlds correspond, and
to show that one operation of a single activity keeps them so. Then whole runs correspond, however
deep they are nested and whatever their hosts do, and they report the same, except perhaps for the
types of nodes.
-/

set_option autoImplicit false

namespace SceneFlow

/-! ## What can be seen from outside -/

/-- Where a level stands, without what its nodes are given and remember. -/
structure Level.Standing where
  id : RunId
  graph : String
  finished : Bool
  current : Option (String × NodeType)
  ticks : Nat
  enters : Nat
  returns : ReturnStack
  waits : TriggerRegistry

def Level.standing (level : Level) : Standing :=
  { id := level.id
    graph := level.graph.id
    finished := level.isFinished
    current := level.current?.map fun inst => (inst.id, inst.type)
    ticks := level.ticks
    enters := level.enters
    returns := level.returns
    waits := level.waits }

/-- Where a run and those nested in it stand, from the outside inwards. -/
def Run.standings (run : Run) : List Level.Standing :=
  run.chain.map (·.level.standing)

/-- Places that differ in the type of the node in control at most, as `types` allows for the node's
id. -/
structure Level.Standing.Corresponds (types : String → NodeType → NodeType → Prop)
    (left right : Standing) : Prop where
  id : left.id = right.id
  graph : left.graph = right.graph
  finished : left.finished = right.finished
  current : Option.Rel (fun node node' => node.1 = node'.1 ∧ types node.1 node.2 node'.2)
    left.current right.current
  ticks : left.ticks = right.ticks
  enters : left.enters = right.enters
  returns : left.returns = right.returns
  waits : left.waits = right.waits

theorem Level.Standing.eq_of_corresponds {left right : Standing}
    (alike : Corresponds (fun _ => Eq) left right) : left = right := by
  obtain ⟨id, graph, finished, current, ticks, enters, returns, waits⟩ := left
  obtain ⟨rfl, rfl, rfl, sameCurrent, rfl, rfl, rfl, rfl⟩ := alike
  refine congrArg (fun current => Standing.mk _ _ _ current _ _ _ _) ?_
  cases shown : right.current with
  | none =>
      rw [shown] at sameCurrent
      cases sameCurrent
      rfl
  | some node' =>
      rw [shown] at sameCurrent
      obtain @⟨node, _, same⟩ := sameCurrent
      exact congrArg some (Prod.ext same.1 same.2)

/-- Reports that differ in the type of a node at most, as `types` allows for the node's id. -/
inductive Report.Corresponds (types : String → NodeType → NodeType → Prop) :
    Report → Report → Prop where
  | same (report : Report) : Corresponds types report report
  | entered {node : String} {type type' : NodeType} (pair : types node type type') (tick : Nat) :
      Corresponds types (.nodeEntered node type tick) (.nodeEntered node type' tick)
  | exited {node : String} {type type' : NodeType} (pair : types node type type') (tick : Nat) :
      Corresponds types (.nodeExited node type tick) (.nodeExited node type' tick)

structure Event.Corresponds (types : String → NodeType → NodeType → Prop) (left right : Event) :
    Prop where
  run : left.run = right.run
  report : Report.Corresponds types left.report right.report

theorem Event.eq_of_corresponds {left right : List Event}
    (events : List.Forall₂ (Event.Corresponds fun _ => Eq) left right) : left = right := by
  induction events with
  | nil => rfl
  | @cons event event' _ _ pair _ ih =>
      obtain ⟨run, report⟩ := event
      obtain ⟨run', report'⟩ := event'
      obtain ⟨sameRun, reports⟩ := pair
      subst ih
      cases sameRun
      cases reports with
      | same => rfl
      | entered pair => cases pair; rfl
      | exited pair => cases pair; rfl

theorem Event.forall₂_same (types : String → NodeType → NodeType → Prop) (events : List Event) :
    List.Forall₂ (Event.Corresponds types) events events :=
  List.forall₂_same.mpr fun _ _ => ⟨rfl, .same _⟩

/-! ## Correspondences -/

/-- Which worlds, graphs and instances take each other's place, and for which types of the node with
an id. -/
structure Correspondence (σ τ : Type) where
  worlds : Option σ → Option τ → Prop
  graphs : Graph → Graph → Prop
  instances : Instance → Instance → Prop
  types : String → NodeType → NodeType → Prop

/-- A level treats the instances alike: it reports them by the same id, goes on from them to the
same node, and entering and leaving them does the same to its waits and returns. -/
structure Instance.TreatedAlike (left right : Instance) : Prop where
  id : left.id = right.id
  successor? : left.successor? = right.successor?
  waitsOnEntry : ∀ index waits,
    Level.waitsOnEntry index left.activity waits = Level.waitsOnEntry index right.activity waits
  waitsOnExit : ∀ index waits,
    Level.waitsOnExit index left.activity waits = Level.waitsOnExit index right.activity waits
  returnsOnEntry : ∀ index returns,
    Level.returnsOnEntry index left.activity returns =
      Level.returnsOnEntry index right.activity returns
  returnsOnExit : ∀ index returns,
    Level.returnsOnExit index left.activity returns =
      Level.returnsOnExit index right.activity returns
  signalled? : left.activity.signalled?.isSome = right.activity.signalled?.isSome

theorem rel_map {α β γ δ : Type} {related : α → β → Prop} {images : γ → δ → Prop}
    {left : Option α} {right : Option β} {change : α → γ} {change' : β → δ}
    (pair : Option.Rel related left right)
    (keeps : ∀ a b, related a b → images (change a) (change' b)) :
    Option.Rel images (left.map change) (right.map change') := by
  cases pair with
  | none => exact .none
  | some pair => exact .some (keeps _ _ pair)

/-- The world once it has received the command of an activity. -/
def Activity.commanded {σ : Type} [World σ] (activity : Activity) (world : σ) : σ :=
  (activity.command?.map (World.perform · world)).getD world

namespace Correspondence

variable {σ τ : Type} [World σ] [World τ]

/-- What one operation of an activity has to keep, and what corresponding graphs have in common. -/
structure Faithful (pairs : Correspondence σ τ) : Prop where
  graphId : ∀ {graph graph'}, pairs.graphs graph graph' → graph.id = graph'.id
  startId : ∀ {graph graph'}, pairs.graphs graph graph' →
    graph.start?.map (·.id) = graph'.start?.map (·.id)
  named : ∀ {graph graph'}, pairs.graphs graph graph' →
    List.Forall₂ (fun node node' => pairs.instances (.ofNode node) (.ofNode node'))
      graph.named graph'.named
  treated : ∀ {inst inst'}, pairs.instances inst inst' → inst.TreatedAlike inst'
  type : ∀ {inst inst'}, pairs.instances inst inst' →
    pairs.types inst.id inst.type inst'.type
  nested : ∀ {inst inst'}, pairs.instances inst inst' →
    Option.Rel pairs.graphs inst.activity.kind.nested? inst'.activity.kind.nested?
  enter : ∀ {inst inst' world world'}, pairs.instances inst inst' → pairs.worlds world world' →
    pairs.instances (inst.changed (·.enter world)) (inst'.changed (·.enter world'))
  work : ∀ {inst inst' world world'} (seconds : Float32), pairs.instances inst inst' →
    pairs.worlds world world' →
      (inst.activity.work seconds world).2 = (inst'.activity.work seconds world').2 ∧
      pairs.instances (inst.changed (·.work seconds world |>.1))
        (inst'.changed (·.work seconds world' |>.1))
  signalled : ∀ {inst inst'}, pairs.instances inst inst' →
    pairs.instances (inst.changed Activity.signalled) (inst'.changed Activity.signalled)
  commanded : ∀ {inst inst' world world'}, pairs.instances inst inst' →
    pairs.worlds world world' →
      pairs.worlds (world.map inst.activity.commanded) (world'.map inst'.activity.commanded)

/-! ## Graphs -/

variable {pairs : Correspondence σ τ} {graph graph' : Graph}

theorem Faithful.index? (faithful : pairs.Faithful) (graphs : pairs.graphs graph graph')
    (id : String) : graph.index? id = graph'.index? id := by
  have ids : graph.named.map (·.id) = graph'.named.map (·.id) := by
    have all := (faithful.named graphs).imp fun node node' pair => (faithful.treated pair).id
    rw [← List.forall₂_eq_eq_eq, List.forall₂_map_left_iff, List.forall₂_map_right_iff]
    exact all
  simp only [Graph.index?, ids]

theorem Faithful.startIndex? (faithful : pairs.Faithful) (graphs : pairs.graphs graph graph') :
    graph.startIndex? = graph'.startIndex? := by
  have starts := faithful.startId graphs
  unfold Graph.startIndex?
  cases begins : graph.start? with
  | none =>
      rw [begins] at starts
      simp [Option.map_eq_none_iff.mp starts.symm]
  | some node =>
      rw [begins] at starts
      obtain ⟨node', begins', sameId⟩ := Option.map_eq_some_iff.mp starts.symm
      simp [begins', sameId, faithful.index? graphs]

theorem Faithful.ofNode (faithful : pairs.Faithful) (graphs : pairs.graphs graph graph')
    (index : Nat) :
    Option.Rel pairs.instances (graph.named.map Instance.ofNode)[index]?
      (graph'.named.map Instance.ofNode)[index]? := by
  have all := faithful.named graphs
  generalize graph.named = nodes, graph'.named = nodes' at all ⊢
  induction all generalizing index with
  | nil => exact .none
  | cons pair _ ih =>
      cases index with
      | zero => exact .some pair
      | succ index => exact ih index

theorem Faithful.nestedAt? (faithful : pairs.Faithful) (graphs : pairs.graphs graph graph')
    (index : Nat) :
    Option.Rel pairs.graphs (graph.nestedAt? index) (graph'.nestedAt? index) := by
  have pair := faithful.ofNode graphs index
  simp only [List.getElem?_map] at pair
  unfold Graph.nestedAt?
  cases found : graph.named[index]? <;> cases found' : graph'.named[index]? <;>
    rw [found, found'] at pair <;> cases pair
  · exact .none
  next _ _ pair =>
    have nested := faithful.nested pair
    simpa [Instance.ofNode] using nested

end Correspondence

/-! ## Levels -/

namespace Level

variable {σ τ : Type} [World σ] [World τ]

/-- The levels run corresponding graphs, their instances correspond, and all else is the same. -/
structure Corresponds (pairs : Correspondence σ τ) (left right : Level) : Prop where
  id : left.id = right.id
  graphs : pairs.graphs left.graph right.graph
  instances : ∀ index : Nat,
    Option.Rel pairs.instances left.instances[index]? right.instances[index]?
  current : left.current = right.current
  waits : left.waits = right.waits
  returns : left.returns = right.returns
  ticks : left.ticks = right.ticks
  enters : left.enters = right.enters

namespace Corresponds

variable {pairs : Correspondence σ τ} {left right : Level} (levels : Corresponds pairs left right)
include levels

omit [World σ] [World τ] in
theorem instance_cases (index : Nat) :
    (left.instances[index]? = none ∧ right.instances[index]? = none) ∨
      ∃ inst inst', left.instances[index]? = some inst ∧ right.instances[index]? = some inst' ∧
        pairs.instances inst inst' :=
  none_or_some_of_rel (levels.instances index)

omit [World σ] [World τ] in
theorem current? : Option.Rel pairs.instances left.current? right.current? := by
  unfold Level.current?
  rw [levels.current]
  cases right.current with
  | none => exact .none
  | some index => exact levels.instances index

omit [World σ] [World τ] in
theorem current_cases :
    (left.current? = none ∧ right.current? = none) ∨
      ∃ inst inst', left.current? = some inst ∧ right.current? = some inst' ∧
        pairs.instances inst inst' :=
  none_or_some_of_rel levels.current?

omit [World σ] [World τ] in
theorem length_eq : left.instances.length = right.instances.length := by
  have ends : ∀ index, left.instances.length ≤ index ↔ right.instances.length ≤ index := by
    intro index
    rw [← List.getElem?_eq_none_iff, ← List.getElem?_eq_none_iff]
    rcases levels.instance_cases index with ⟨none, none'⟩ | ⟨inst, inst', found, found', _⟩
    · simp [none, none']
    · simp [found, found']
  exact Nat.le_antisymm ((ends _).mpr (Nat.le_refl _)) ((ends _).mp (Nat.le_refl _))

omit [World σ] [World τ] in
theorem withReturns (returns : ReturnStack) :
    Corresponds pairs { left with returns } { right with returns } where
  id := levels.id
  graphs := levels.graphs
  instances := levels.instances
  current := levels.current
  waits := levels.waits
  returns := rfl
  ticks := levels.ticks
  enters := levels.enters

omit [World σ] [World τ] in
theorem finish : Corresponds pairs left.finish right.finish where
  id := levels.id
  graphs := levels.graphs
  instances := levels.instances
  current := rfl
  waits := levels.waits
  returns := levels.returns
  ticks := levels.ticks
  enters := levels.enters

omit [World σ] [World τ] in
theorem ticked :
    Corresponds pairs { left with ticks := left.ticks + 1 }
      { right with ticks := right.ticks + 1 } where
  id := levels.id
  graphs := levels.graphs
  instances := levels.instances
  current := levels.current
  waits := levels.waits
  returns := levels.returns
  ticks := congrArg (· + 1) levels.ticks
  enters := levels.enters

variable (faithful : pairs.Faithful) {world : Option σ} {world' : Option τ}
include faithful

theorem enter (worlds : pairs.worlds world world') (index : Nat) :
    Corresponds pairs (left.enter world index) (right.enter world' index) := by
  have changed : ∀ other : Nat, Option.Rel pairs.instances
      (left.enter world index).instances[other]? (right.enter world' index).instances[other]? := by
    intro other
    rw [getElem?_enter, getElem?_enter]
    apply rel_map (levels.instances other)
    intro inst inst' pair
    by_cases here : index = other
    · simpa [here] using faithful.enter pair worlds
    · simpa [here] using pair
  have registered : (left.enter world index).waits = (right.enter world' index).waits ∧
      (left.enter world index).returns = (right.enter world' index).returns := by
    rcases levels.instance_cases index with ⟨none, none'⟩ | ⟨inst, inst', found, found', pair⟩
    · simp [Level.enter, none, none', levels.waits, levels.returns]
    · have treated := faithful.treated pair
      simp [Level.enter, found, found', levels.waits, levels.returns, treated.waitsOnEntry,
        treated.returnsOnEntry]
  constructor
  · simp [levels.id]
  · simpa using levels.graphs
  · exact changed
  · simp
  · exact registered.1
  · exact registered.2
  · simp [levels.ticks]
  · simp [levels.enters]

theorem worked (worlds : pairs.worlds world world') (seconds : Float32) (index : Nat) :
    Corresponds pairs (left.worked seconds world index) (right.worked seconds world' index) where
  id := levels.id
  graphs := levels.graphs
  instances := by
    intro other
    rw [getElem?_worked, getElem?_worked]
    apply rel_map (levels.instances other)
    intro inst inst' pair
    by_cases here : index = other
    · simpa [here] using (faithful.work seconds pair worlds).2
    · simpa [here] using pair
  current := levels.current
  waits := levels.waits
  returns := levels.returns
  ticks := congrArg (· + 1) levels.ticks
  enters := levels.enters

theorem leave (index : Nat) : Corresponds pairs (left.leave index) (right.leave index) := by
  rcases levels.instance_cases index with ⟨none, none'⟩ | ⟨inst, inst', found, found', pair⟩
  · simpa [Level.leave, none, none'] using levels
  · have treated := faithful.treated pair
    simp only [Level.leave, found, found']
    exact ⟨levels.id, levels.graphs, levels.instances, levels.current,
      by rw [treated.waitsOnExit, levels.waits], by rw [treated.returnsOnExit, levels.returns],
      levels.ticks, levels.enters⟩

theorem destination (index : Nat) : left.destination index = right.destination index := by
  have successors : left.instances[index]?.bind (·.successor?) =
      right.instances[index]?.bind (·.successor?) := by
    rcases levels.instance_cases index with ⟨none, none'⟩ | ⟨inst, inst', found, found', pair⟩
    · simp [none, none']
    · simp [found, found', (faithful.treated pair).successor?]
  simp only [Level.destination, successors, levels.returns, levels.length_eq,
    faithful.index? levels.graphs]

/-! ### Reports -/

theorem enteredReport (index : Nat) :
    List.Forall₂ (Event.Corresponds pairs.types) (left.enteredReport index)
      (right.enteredReport index) := by
  rcases levels.instance_cases index with ⟨none, none'⟩ | ⟨inst, inst', found, found', pair⟩
  · simp [Level.enteredReport, none, none']
  · simp only [Level.enteredReport, found, found', event, ← (faithful.treated pair).id,
      levels.ticks]
    exact .cons ⟨levels.id, .entered (faithful.type pair) _⟩ .nil

theorem exitedReport (index : Nat) :
    List.Forall₂ (Event.Corresponds pairs.types) (left.exitedReport index)
      (right.exitedReport index) := by
  rcases levels.instance_cases index with ⟨none, none'⟩ | ⟨inst, inst', found, found', pair⟩
  · simp [Level.exitedReport, none, none']
  · simp only [Level.exitedReport, found, found', event, ← (faithful.treated pair).id,
      levels.ticks]
    exact .cons ⟨levels.id, .exited (faithful.type pair) _⟩ .nil

theorem finishedReport : left.finishedReport = right.finishedReport := by
  simp only [Level.finishedReport, event, levels.id, levels.ticks,
    faithful.graphId levels.graphs]

/-! ### Signals -/

theorem withActivity {index : Nat} {inst inst' : Instance}
    (found : left.instances[index]? = some inst) (found' : right.instances[index]? = some inst')
    (pair : pairs.instances inst inst') :
    Corresponds pairs (left.withActivity index inst.activity.signalled)
      (right.withActivity index inst'.activity.signalled) where
  id := levels.id
  graphs := levels.graphs
  instances := by
    intro other
    rw [getElem?_withActivity, getElem?_withActivity]
    by_cases here : index = other
    · subst here
      simpa [found, found', Instance.changed] using Option.Rel.some (faithful.signalled pair)
    · simpa [here] using levels.instances other
  current := levels.current
  waits := levels.waits
  returns := levels.returns
  ticks := levels.ticks
  enters := levels.enters

theorem wake (woken index : Nat) :
    Corresponds pairs (Level.wake (left, woken) index).1 (Level.wake (right, woken) index).1 ∧
      (Level.wake (left, woken) index).2 = (Level.wake (right, woken) index).2 := by
  rcases levels.instance_cases index with ⟨none, none'⟩ | ⟨inst, inst', found, found', pair⟩
  · simpa [Level.wake, none, none'] using levels
  · have signalled := (faithful.treated pair).signalled?
    have after := levels.withActivity faithful found found' pair
    unfold Activity.signalled at after
    cases fires : inst.activity.signalled? <;> cases fires' : inst'.activity.signalled? <;>
      simp [fires, fires'] at signalled
    · simpa [Level.wake, found, found', fires, fires'] using levels
    · simpa [Level.wake, found, found', fires, fires'] using after

theorem signal (trigger : String) :
    Corresponds pairs (left.signal trigger).1 (right.signal trigger).1 ∧
      (left.signal trigger).2 = (right.signal trigger).2 := by
  have waking : ∀ (indices : List Nat) (first second : Level) (woken : Nat),
      Corresponds pairs first second →
        Corresponds pairs (indices.foldl Level.wake (first, woken)).1
            (indices.foldl Level.wake (second, woken)).1 ∧
          (indices.foldl Level.wake (first, woken)).2 =
            (indices.foldl Level.wake (second, woken)).2 := by
    intro indices
    induction indices with
    | nil => exact fun _ _ _ pair => ⟨pair, rfl⟩
    | cons index rest ih =>
        intro first second woken pair
        obtain ⟨after, counted⟩ := pair.wake faithful woken index
        have begun : Level.wake (first, woken) index =
            ((Level.wake (first, woken) index).1, (Level.wake (second, woken) index).2) :=
          Prod.ext rfl counted
        rw [List.foldl_cons, List.foldl_cons, begun]
        exact ih _ _ _ after
  unfold Level.signal
  rw [levels.waits]
  exact waking _ _ _ 0 levels

end Corresponds

end Level

/-! ## Runs -/

namespace Run

variable {σ τ : Type} [World σ] [World τ] {pairs : Correspondence σ τ}

inductive Corresponds (pairs : Correspondence σ τ) : Run → Run → Prop where
  | alone {left right : Level} (levels : Level.Corresponds pairs left right) :
      Corresponds pairs (.alone left) (.alone right)
  | hosting {left right : Level} {inner inner' : Run}
      (levels : Level.Corresponds pairs left right) (runs : Corresponds pairs inner inner') :
      Corresponds pairs (.hosting left inner) (.hosting right inner')

/-- The runs and the events that led to them correspond. -/
structure CorrespondsWith (pairs : Correspondence σ τ) (left right : Run × List Event) :
    Prop where
  runs : Corresponds pairs left.1 right.1
  events : List.Forall₂ (Event.Corresponds pairs.types) left.2 right.2

omit [World σ] [World τ] in
theorem CorrespondsWith.after {left right : Run × List Event}
    (both : CorrespondsWith pairs left right) {before before' : List Event}
    (events : List.Forall₂ (Event.Corresponds pairs.types) before before') :
    CorrespondsWith pairs (left.1, before ++ left.2) (right.1, before' ++ right.2) :=
  ⟨both.runs, List.rel_append events both.events⟩

omit [World σ] [World τ] in
theorem Corresponds.level {left right : Run} (runs : Corresponds pairs left right) :
    Level.Corresponds pairs left.level right.level := by
  cases runs <;> assumption

omit [World σ] [World τ] in
theorem Corresponds.isFinished_eq {left right : Run} (runs : Corresponds pairs left right) :
    left.isFinished = right.isFinished := by
  simp only [isFinished, Level.isFinished, runs.level.current]

omit [World σ] [World τ] in
theorem Corresponds.command?_eq {left right : Run} (runs : Corresponds pairs left right)
    (same : ∀ inst inst', pairs.instances inst inst' →
      inst.activity.command? = inst'.activity.command?) : left.command? = right.command? := by
  induction runs with
  | alone levels =>
      rcases levels.current_cases with ⟨none, none'⟩ | ⟨inst, inst', now, now', pair⟩
      · simp [command?, none, none']
      · simp [command?, now, now', same _ _ pair]
  | @hosting left right _ _ levels _ ih =>
      have ends : left.isFinished = right.isFinished := congrArg Option.isNone levels.current
      rw [command?, command?, ih, ends]

variable (faithful : pairs.Faithful)
include faithful

theorem Corresponds.commanded {left right : Run} (runs : Corresponds pairs left right)
    {world : Option σ} {world' : Option τ} (worlds : pairs.worlds world world') :
    pairs.worlds
      (world.map fun now => (left.command?.map (World.perform · now)).getD now)
      (world'.map fun now => (right.command?.map (World.perform · now)).getD now) := by
  induction runs with
  | alone levels =>
      rcases levels.current_cases with ⟨none, none'⟩ | ⟨inst, inst', now, now', pair⟩
      · simpa [command?, none, none'] using worlds
      · simp only [command?, now, now', Option.bind_some]
        exact faithful.commanded pair worlds
  | @hosting left right inner inner' levels _ ih =>
      simp only [command?, Level.isFinished, levels.current]
      by_cases isOver : right.current.isNone = true
      · simpa [isOver] using worlds
      · simpa [isOver] using ih

mutual

theorem corresponds_start {world : Option σ} {world' : Option τ}
    (worlds : pairs.worlds world world') (id : RunId) (graph graph' : Graph)
    (graphs : pairs.graphs graph graph') :
    CorrespondsWith pairs (start world id graph) (start world' id graph') := by
  have fresh : Level.Corresponds pairs (Level.ofGraph id graph) (Level.ofGraph id graph') :=
    ⟨rfl, graphs, faithful.ofNode graphs, rfl, rfl, rfl, rfl, rfl⟩
  have sameId := faithful.graphId graphs
  have begins := faithful.startIndex? graphs
  match found : graph.startIndex? with
  | none =>
      rw [start_of_none found, start_of_none (begins.symm.trans found),
        fresh.finishedReport faithful, ← sameId]
      exact ⟨.alone fresh, Event.forall₂_same _ _⟩
  | some index =>
      rw [start_of_some found, start_of_some (begins.symm.trans found), ← sameId]
      have entered := corresponds_enter worlds index (Level.ofGraph id graph)
        (Level.ofGraph id graph') fresh
      exact ⟨entered.runs, .cons ⟨rfl, .same _⟩ entered.events⟩
termination_by 2 * graph.nesting + 1
decreasing_by
  simp only [Level.ofGraph]
  omega

theorem corresponds_enter {world : Option σ} {world' : Option τ}
    (worlds : pairs.worlds world world') (index : Nat) (left right : Level)
    (levels : Level.Corresponds pairs left right) :
    CorrespondsWith pairs (enter world index left) (enter world' index right) := by
  have entered := levels.enter faithful worlds index
  have reports := entered.enteredReport faithful index
  rcases none_or_some_of_rel (faithful.nestedAt? levels.graphs index) with
    ⟨free, free'⟩ | ⟨graph, graph', hosted, hosted', graphs⟩
  · rw [enter_of_none free, enter_of_none free']
    exact ⟨.alone entered, reports⟩
  · rw [enter_hosting hosted, enter_hosting hosted', ← levels.id, ← levels.enters]
    have inner := corresponds_start worlds (left.id.nested (left.enters + 1)) graph graph' graphs
    exact ⟨.hosting entered inner.runs, List.rel_append inner.events reports⟩
termination_by 2 * left.graph.nesting
decreasing_by
  have := Graph.nesting_lt_of_nestedAt? hosted
  omega

end

theorem corresponds_moveOn {world : Option σ} {world' : Option τ}
    (worlds : pairs.worlds world world') (index : Nat) {left right : Level}
    (levels : Level.Corresponds pairs left right) :
    CorrespondsWith pairs (moveOn world index left) (moveOn world' index right) := by
  have remaining := levels.leave faithful index
  rw [moveOn_eq, moveOn_eq]
  refine CorrespondsWith.after ?_ (remaining.exitedReport faithful index)
  rw [← remaining.destination faithful index]
  cases (left.leave index).destination index with
  | successor next => exact corresponds_enter faithful worlds next _ _ remaining
  | resumption next returns =>
      exact corresponds_enter faithful worlds next _ _ (remaining.withReturns returns)
  | ending =>
      have ended := remaining.withReturns .empty
      have report := ended.finishedReport faithful
      refine ⟨.alone ended.finish, ?_⟩
      simpa only [arrive, finish, report] using Event.forall₂_same _ _
  | unresolved id =>
      have report := remaining.finishedReport faithful
      refine ⟨.alone remaining.finish, ?_⟩
      simpa only [arrive, finish, report] using Event.forall₂_same _ _

theorem Corresponds.advance {left right : Run} (runs : Corresponds pairs left right)
    {world : Option σ} {world' : Option τ} (worlds : pairs.worlds world world')
    (seconds : Float32) :
    CorrespondsWith pairs (left.advance seconds world) (right.advance seconds world') := by
  induction runs with
  | @alone left right levels =>
      cases current : left.current with
      | none =>
          have isOver : (Run.alone left).level.current = none := current
          have isOver' : (Run.alone right).level.current = none := levels.current ▸ current
          rw [advance_of_current_none isOver, advance_of_current_none isOver']
          exact ⟨.alone levels, .nil⟩
      | some index =>
          have current' : right.current = some index := levels.current ▸ current
          rcases levels.instance_cases index with ⟨none, none'⟩ | ⟨inst, inst', found, found', pair⟩
          · have ticked := levels.ticked
            simp only [Run.advance, current, current', none, none'] at ticked ⊢
            exact ⟨.alone ticked, .nil⟩
          · have worked := levels.worked faithful worlds seconds index
            have done := (faithful.work seconds pair worlds).1
            rw [advance_alone current found, advance_alone current' found', done]
            split
            · exact corresponds_moveOn faithful worlds index worked
            · exact ⟨.alone worked, .nil⟩
  | @hosting left right inner inner' levels nested ih =>
      cases current : left.current with
      | none =>
          have isOver : (Run.hosting left inner).level.current = none := current
          have isOver' : (Run.hosting right inner').level.current = none :=
            levels.current ▸ current
          rw [advance_of_current_none isOver, advance_of_current_none isOver']
          exact ⟨.hosting levels nested, .nil⟩
      | some index =>
          have current' : right.current = some index := levels.current ▸ current
          rw [advance_hosting_of_current current, advance_hosting_of_current current']
          dsimp only
          rw [← ih.runs.isFinished_eq]
          split
          · exact (corresponds_moveOn faithful worlds index levels.ticked).after ih.events
          · exact ⟨.hosting levels.ticked ih.runs, ih.events⟩

theorem Corresponds.signal {left right : Run} (runs : Corresponds pairs left right)
    (trigger : String) :
    CorrespondsWith pairs ((left.signal trigger).run, (left.signal trigger).events)
        ((right.signal trigger).run, (right.signal trigger).events) ∧
      (left.signal trigger).woken = (right.signal trigger).woken := by
  obtain ⟨levels, woken⟩ := runs.level.signal faithful trigger
  have events : (left.signal trigger).events = (right.signal trigger).events := by
    simp only [Run.signal, Level.event, levels.id, woken]
  refine ⟨⟨?_, events ▸ Event.forall₂_same _ _⟩, woken⟩
  cases runs with
  | alone => exact .alone levels
  | hosting _ inner => exact .hosting levels inner

omit [World σ] [World τ] faithful in
/-- As many levels are nested in corresponding runs, and those correspond. -/
theorem Corresponds.forall₂_chain {left right : Run} (runs : Corresponds pairs left right) :
    List.Forall₂ (fun nested nested' => Level.Corresponds pairs nested.level nested'.level)
      left.chain right.chain := by
  induction runs with
  | alone levels => exact .cons levels .nil
  | hosting levels _ ih => exact .cons levels ih

omit [World σ] [World τ] faithful in
/-- Corresponding runs stand at corresponding places. -/
theorem Corresponds.standings {types : String → NodeType → NodeType → Prop} {left right : Run}
    (runs : Corresponds pairs left right)
    (ids : ∀ graph graph', pairs.graphs graph graph' → graph.id = graph'.id)
    (shown : ∀ inst inst', pairs.instances inst inst' →
      inst.id = inst'.id ∧ types inst.id inst.type inst'.type) :
    List.Forall₂ (Level.Standing.Corresponds types) left.standings right.standings := by
  rw [Run.standings, Run.standings, List.forall₂_map_left_iff, List.forall₂_map_right_iff]
  refine runs.forall₂_chain.imp fun _ _ levels => ?_
  exact {
    id := levels.id
    graph := ids _ _ levels.graphs
    finished := congrArg Option.isNone levels.current
    current := rel_map levels.current? shown
    ticks := levels.ticks
    enters := levels.enters
    returns := levels.returns
    waits := levels.waits }

omit [World σ] [World τ] faithful in
/-- Corresponding runs stand at the same places, if corresponding instances have the same types. -/
theorem Corresponds.standings_eq {left right : Run} (runs : Corresponds pairs left right)
    (ids : ∀ graph graph', pairs.graphs graph graph' → graph.id = graph'.id)
    (shown : ∀ inst inst', pairs.instances inst inst' →
      inst.id = inst'.id ∧ inst.type = inst'.type) :
    left.standings = right.standings := by
  have alike : List.Forall₂ (Level.Standing.Corresponds fun _ => Eq) left.standings
      right.standings := runs.standings ids shown
  rw [← List.forall₂_eq_eq_eq]
  exact alike.imp fun _ _ => Level.Standing.eq_of_corresponds

end Run

/-! ## Sessions -/

/-- Operations do the same to runs and keep worlds in correspondence. -/
inductive Operation.Corresponds {σ τ : Type} (pairs : Correspondence σ τ) :
    Operation σ → Operation τ → Prop where
  | tick (seconds : Float32) : Corresponds pairs (.tick seconds) (.tick seconds)
  | signal (trigger : String) : Corresponds pairs (.signal trigger) (.signal trigger)
  | change {become : σ → σ} {become' : τ → τ}
      (keeps : ∀ world world', pairs.worlds world world' →
        pairs.worlds (world.map become) (world'.map become')) :
      Corresponds pairs (.change become) (.change become')

theorem Operation.forall₂_same {σ : Type} {pairs : Correspondence σ σ}
    (keeps : ∀ (become : σ → σ) world world', pairs.worlds world world' →
      pairs.worlds (world.map become) (world'.map become)) (operations : List (Operation σ)) :
    List.Forall₂ (Operation.Corresponds pairs) operations operations := by
  refine List.forall₂_same.mpr fun operation _ => ?_
  cases operation with
  | tick seconds => exact .tick seconds
  | signal trigger => exact .signal trigger
  | change become => exact .change (keeps become)

namespace Session

variable {σ τ : Type} [World σ] [World τ] {pairs : Correspondence σ τ}

/-- Runs, worlds and reports correspond. -/
structure Corresponds (pairs : Correspondence σ τ) (left : Session σ) (right : Session τ) :
    Prop where
  runs : Run.Corresponds pairs left.run right.run
  worlds : pairs.worlds left.world right.world
  events : List.Forall₂ (Event.Corresponds pairs.types) left.events right.events

variable (faithful : pairs.Faithful)
include faithful

theorem Corresponds.perform {left : Session σ} {right : Session τ}
    (sessions : Corresponds pairs left right) {operation : Operation σ} {operation' : Operation τ}
    (pair : operation.Corresponds pairs operation') :
    Corresponds pairs (left.perform operation) (right.perform operation') := by
  cases pair with
  | tick seconds =>
      have worlds := sessions.runs.commanded faithful sessions.worlds
      have advanced := sessions.runs.advance faithful worlds seconds
      exact ⟨advanced.runs, worlds, List.rel_append sessions.events advanced.events⟩
  | signal trigger =>
      obtain ⟨signalled, _⟩ := sessions.runs.signal faithful trigger
      exact ⟨signalled.runs, sessions.worlds, List.rel_append sessions.events signalled.events⟩
  | change keeps => exact ⟨sessions.runs, keeps _ _ sessions.worlds, sessions.events⟩

omit [World σ] faithful in
/-- In the same world corresponding instances issue the same commands, if all do that at once. -/
theorem Corresponds.issued?_eq {pairs : Correspondence σ σ} {left right : Session σ}
    (sessions : Corresponds pairs left right) (world : left.world = right.world)
    (same : left.world.isSome = true → ∀ inst inst', pairs.instances inst inst' →
      inst.activity.command? = inst'.activity.command?) (operation : Operation σ) :
    left.issued? operation = right.issued? operation := by
  cases operation with
  | signal | change => rfl
  | tick seconds =>
      simp only [issued?, ← world]
      cases known : left.world with
      | none => rfl
      | some now =>
          rw [known] at same
          exact sessions.runs.command?_eq (same rfl)

/-- One operation of each activity kept in correspondence keeps whole sessions so. -/
theorem corresponds_after {world : Option σ} {world' : Option τ}
    (worlds : pairs.worlds world world') (id : RunId) {graph graph' : Graph}
    (graphs : pairs.graphs graph graph') {operations : List (Operation σ)}
    {operations' : List (Operation τ)}
    (same : List.Forall₂ (Operation.Corresponds pairs) operations operations') :
    Corresponds pairs (after world id graph operations) (after world' id graph' operations') := by
  have begun : Corresponds pairs (begin world id graph) (begin world' id graph') := by
    have started := Run.corresponds_start faithful worlds id graph graph' graphs
    exact ⟨started.runs, worlds, started.events⟩
  unfold after
  generalize begin world id graph = session, begin world' id graph' = session' at begun
  induction same generalizing session session' with
  | nil => exact begun
  | cons pair _ ih => exact ih _ _ (begun.perform faithful pair)

end Session

end SceneFlow
