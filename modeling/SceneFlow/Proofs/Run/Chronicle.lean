import SceneFlow.Proofs.Run.Nesting

/-!
# Chronicles

What a level reports of itself, signals left out, is the tale of its visits: it starts, enters and
leaves one node after the other, and finishes. Each node is entered in the tick in which the one
before it was left. A chronicle is such a tale together with the level that it has led to.
-/

set_option autoImplicit false

namespace SceneFlow

/-- A visit that ended, as it was reported. -/
structure Visit where
  node : String
  type : NodeType
  entered : Nat
  exited : Nat

def Visit.reports (visit : Visit) : List Report :=
  [.nodeEntered visit.node visit.type visit.entered, .nodeExited visit.node visit.type visit.exited]

/-- The first visit begins in tick 0 and each later one in the tick in which the one before it
ended, and all take time. The last one ended in the tick that is given. -/
inductive Contiguous : List Visit → Nat → Prop where
  | nil : Contiguous [] 0
  | append {visits : List Visit} {tick later : Nat} (before : Contiguous visits tick)
      (node : String) (type : NodeType) (lasts : tick < later) :
      Contiguous (visits ++ [⟨node, type, tick, later⟩]) later

/-- The start of a run and its visits. -/
def visitsTold (graph : String) (visits : List Visit) : List Report :=
  .runStarted graph :: visits.flatMap Visit.reports

theorem visitsTold_append (graph : String) (visits : List Visit) (visit : Visit) :
    visitsTold graph (visits ++ [visit]) = visitsTold graph visits ++ visit.reports := by
  simp [visitsTold]

def Report.isSignal : Report → Bool
  | .triggerSignalled .. => true
  | _ => false

/-- The reports under one identity, without those of signals. -/
def Run.reports (id : RunId) (events : List Event) : List Report :=
  ((own id events).map (·.report)).filter (!·.isSignal)

namespace Run

theorem reports_append (id : RunId) (before after : List Event) :
    reports id (before ++ after) = reports id before ++ reports id after := by
  simp only [reports, own_append, List.map_append, List.filter_append]

theorem reports_of_own_eq_nil {id : RunId} {events : List Event} (silent : own id events = []) :
    reports id events = [] := by
  rw [reports, silent]
  rfl

theorem reports_append_of_own_eq_nil {id : RunId} {events new : List Event}
    (silent : own id new = []) : reports id (events ++ new) = reports id events := by
  rw [reports_append, reports_of_own_eq_nil silent, List.append_nil]

end Run

namespace Level

variable {σ : Type} [World σ] {level : Level} {reports : List Report}

/-- The reports of a level that has control or is over. -/
inductive Chronicle (level : Level) : List Report → Prop where
  | running {visits : List Visit} {tick index : Nat} {inst : Instance}
      (contiguous : Contiguous visits tick) (past : tick ≤ level.ticks)
      (current : level.current = some index) (found : level.instances[index]? = some inst)
      (counted : level.enters = visits.length + 1) :
      Chronicle level
        (visitsTold level.graph.id visits ++ [.nodeEntered inst.id inst.type tick])
  | finished {visits : List Visit} (contiguous : Contiguous visits level.ticks)
      (isOver : level.current = none) (counted : level.enters = visits.length) :
      Chronicle level
        (visitsTold level.graph.id visits ++ [.runFinished level.graph.id level.ticks])

/-- The reports of a level between two visits. -/
def Between (level : Level) (reports : List Report) : Prop :=
  ∃ visits, Contiguous visits level.ticks ∧ level.enters = visits.length ∧
    reports = visitsTold level.graph.id visits

theorem between_ofGraph (id : RunId) (graph : Graph) :
    (ofGraph id graph).Between [.runStarted graph.id] :=
  ⟨[], .nil, rfl, rfl⟩

theorem Between.finish (between : level.Between reports) :
    level.finish.Chronicle (reports ++ [.runFinished level.graph.id level.ticks]) := by
  obtain ⟨visits, contiguous, counted, rfl⟩ := between
  have chronicle : level.finish.Chronicle _ := .finished contiguous rfl counted
  exact chronicle

theorem enteredReport_enter {index : Nat} {inst : Instance}
    (found : level.instances[index]? = some inst) (world : Option σ) :
    (level.enter world index).enteredReport index =
      [level.event (.nodeEntered inst.id inst.type level.ticks)] := by
  have entered := getElem?_enter world index index level
  rw [found, Option.map_some] at entered
  simp only [enteredReport, entered, event, id_enter, ticks_enter, Instance.changed, Instance.type,
    ↓reduceIte, Activity.kind_enter]

theorem Between.enter (between : level.Between reports) {index : Nat} {inst : Instance}
    (found : level.instances[index]? = some inst) (world : Option σ) :
    (level.enter world index).Chronicle
      (reports ++ [.nodeEntered inst.id inst.type level.ticks]) := by
  obtain ⟨visits, contiguous, counted, rfl⟩ := between
  have entered := getElem?_enter world index index level
  rw [found, Option.map_some, if_pos rfl] at entered
  have chronicle : (level.enter world index).Chronicle _ :=
    .running contiguous (Nat.le_of_eq (ticks_enter world index level).symm)
      (current_enter world index level) entered (by rw [enters_enter, counted])
  rw [graph_enter] at chronicle
  simpa only [Instance.changed, Instance.type, Activity.kind_enter] using chronicle

/-- What a chronicle says of a level is not touched by work and signals. -/
private theorem Chronicle.of_changes {after : Level} (chronicle : level.Chronicle reports)
    {change : Nat → Instance → Instance}
    (keeps : ∀ index inst, (change index inst).node = inst.node)
    (equation : ∀ index : Nat, after.instances[index]? = level.instances[index]?.map (change index))
    (sameGraph : after.graph = level.graph) (sameCurrent : after.current = level.current)
    (sameEnters : after.enters = level.enters) (later : level.ticks ≤ after.ticks)
    (frozen : level.current = none → after.ticks = level.ticks) : after.Chronicle reports := by
  cases chronicle with
  | @running visits tick index inst contiguous past current found counted =>
      have atIndex := equation index
      rw [found, Option.map_some] at atIndex
      have sameNode := keeps index inst
      have chronicle : after.Chronicle _ :=
        .running contiguous (Nat.le_trans past later) (sameCurrent.trans current) atIndex
          (sameEnters.trans counted)
      rw [sameGraph] at chronicle
      have sameId : (change index inst).id = inst.id := congrArg Node.id sameNode
      have sameType : (change index inst).type = inst.type := congrArg Node.type sameNode
      rw [sameId, sameType] at chronicle
      exact chronicle
  | finished contiguous isOver counted =>
      have sameTicks := frozen isOver
      rw [← sameTicks] at contiguous ⊢
      rw [← sameGraph]
      exact .finished contiguous (sameCurrent.trans isOver) (sameEnters.trans counted)

theorem Chronicle.worked (chronicle : level.Chronicle reports) {index : Nat}
    (current : level.current = some index) (seconds : Float32) (world : Option σ) :
    (level.worked seconds world index).Chronicle reports := by
  refine chronicle.of_changes ?_ (fun other => getElem?_worked seconds world index other level)
    rfl rfl rfl (Nat.le_succ _) ?_
  · intro other inst
    split
    · exact inst.node_changed (Activity.kind_work seconds world)
    · rfl
  · intro isOver
    rw [isOver] at current
    cases current

theorem Chronicle.signal (chronicle : level.Chronicle reports) (trigger : String) :
    (level.signal trigger).1.Chronicle reports := by
  refine chronicle.of_changes ?_ (fun other => getElem?_signal trigger other level)
    (graph_signal trigger level) (current_signal trigger level) (enters_signal trigger level)
    (Nat.le_of_eq (ticks_signal trigger level).symm) fun _ => ticks_signal trigger level
  intro other inst
  split
  · exact inst.node_changed Activity.kind_signalled
  · rfl

theorem Chronicle.left (chronicle : level.Chronicle reports) {index : Nat} {inst : Instance}
    (current : level.current = some index) (found : level.instances[index]? = some inst)
    (seconds : Float32) (world : Option σ) :
    (level.left seconds world index).Between
      (reports ++ [.nodeExited inst.id inst.type (level.ticks + 1)]) := by
  cases chronicle with
  | @running visits tick other inst' contiguous past current' found' counted =>
      have sameIndex : other = index := Option.some.inj (current'.symm.trans current)
      subst sameIndex
      have sameInst : inst' = inst := Option.some.inj (found'.symm.trans found)
      subst sameInst
      have ended := contiguous.append inst'.id inst'.type (Nat.lt_succ_of_le past)
      refine ⟨visits ++ [⟨inst'.id, inst'.type, tick, level.ticks + 1⟩], ?_, ?_, ?_⟩
      · rw [ticks_left]
        exact ended
      · rw [enters_left, counted, List.length_append, List.length_singleton]
      · rw [graph_left, visitsTold_append, List.append_assoc]
        rfl
  | finished contiguous isOver =>
      rw [isOver] at current
      cases current

end Level

end SceneFlow
