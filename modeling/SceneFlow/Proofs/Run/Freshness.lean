import SceneFlow.Proofs.Run.Beginnings
import SceneFlow.Proofs.Run.Trails
import SceneFlow.Proofs.Run.Waits

/-!
# Fresh visits

Instances are used again on each visit, and all but those of Sequences and Loops begin it as if they
had just been made. So a visit goes as it would in a run of a graph that has that node alone and
starts as the visit begins: what went on before leaves no trace in it. And nothing is changed by the
way, since an operation touches no node of a level but those that have control before and after it.
-/

set_option autoImplicit false

namespace SceneFlow

/-! ## Forgetting -/

/-- Nodes of this kind begin each visit as if it were their first. -/
def NodeKind.forgets {γ : Type} : NodeKind γ → Bool
  | .sequence _ | .loop .. => false
  | _ => true

theorem Activity.enter_of_forgets {σ : Type} [World σ] {activity : Activity}
    (forgets : activity.kind.forgets = true) (world : Option σ) :
    activity.enter world = (ofKind activity.kind).enter world := by
  cases activity with
  | sequence | loop => cases forgets
  | _ => rfl

/-- An instance of the node that was just made, once it is entered. -/
def Instance.afresh {σ : Type} [World σ] (world : Option σ) (node : Node Graph) : Instance :=
  (ofNode node).changed (·.enter world)

theorem Instance.changed_enter {σ : Type} [World σ] {inst : Instance}
    (forgets : inst.node.kind.forgets = true) (world : Option σ) :
    inst.changed (·.enter world) = afresh world inst.node := by
  simp only [afresh, changed, Activity.enter_of_forgets forgets]
  rfl

namespace Level

/-- What the node in control is given. -/
def currentNode? (level : Level) : Option (Node Graph) :=
  level.current.bind (level.graph.named[·]?)

variable {σ : Type} [World σ] {level : Level} {index : Nat}

theorem current?_worked (current : level.current = some index) (seconds : Float32)
    (world : Option σ) :
    (level.worked seconds world index).current? =
      level.current?.map (·.changed (·.work seconds world |>.1)) := by
  have still : (level.worked seconds world index).current = some index := current
  simp only [current?, still, current, Option.bind_some, getElem?_worked, if_pos]

theorem current?_enter {inst : Instance} (found : level.instances[index]? = some inst)
    (world : Option σ) :
    (level.enter world index).current? = some (inst.changed (·.enter world)) := by
  have entered := getElem?_enter world index index level
  rw [found, Option.map_some, if_pos rfl] at entered
  exact current?_of_found (current_enter world index level) entered

theorem WaitKept.mem_waiting_iff (kept : level.WaitKept) {trigger : String} {other : Nat} :
    other ∈ level.waits.waiting trigger ↔ level.wait? = some ⟨trigger, other⟩ := by
  rw [WaitKept] at kept
  simp only [TriggerRegistry.waiting, kept, List.mem_map, List.mem_filter, Option.mem_toList,
    beq_iff_eq]
  constructor
  · rintro ⟨⟨awaited, node⟩, ⟨waits, rfl⟩, rfl⟩
    exact waits
  · intro waits
    exact ⟨⟨trigger, other⟩, ⟨waits, rfl⟩, rfl⟩

/-- A signal reaches the node in control if it waits for that trigger. -/
theorem WaitKept.current?_signal (kept : level.WaitKept) (trigger : String) :
    (level.signal trigger).1.current? =
      level.current?.map fun inst =>
        if inst.activity.trigger? = some trigger then inst.changed Activity.signalled
        else inst := by
  cases current : level.current with
  | none => simp [current?, current]
  | some index =>
      have still := (current_signal trigger level).trans current
      cases found : level.instances[index]? with
      | none => simp [current?, current, getElem?_signal, found]
      | some inst =>
          have reached : index ∈ level.waits.waiting trigger ↔
              inst.activity.trigger? = some trigger := by
            rw [kept.mem_waiting_iff, wait?_of_found current found]
            simp
          simp only [current?, still, current, getElem?_signal, found, Option.bind_some,
            Option.map_some, reached]

end Level

/-! ## Runs of a single node -/

namespace Graph

/-- A graph with one node. -/
def single (node : Node Graph) : Graph :=
  ⟨"", [node], []⟩

variable {node : Node Graph}

theorem named_single (named : node.id ≠ "") : (single node).named = [node] :=
  List.filter_cons_of_pos (decide_eq_true named)

theorem startIndex?_single (named : node.id ≠ "") : (single node).startIndex? = some 0 := by
  change (single node).index? node.id = some 0
  simp only [index?, named_single named, List.map_cons, List.map_nil, lastPosition?, if_pos]

end Graph

namespace Run

variable {σ : Type} [World σ] {world : Option σ} {run alone : Run}

/-- The node in control begins its visit, and the run that it hosts begins, as in `afresh`. -/
structure Begins (world : Option σ) (node : Node Graph) (run : Run) : Prop where
  current? : run.level.current? = some (.afresh world node)
  inner? : run.inner? =
    node.kind.nested?.map fun graph =>
      (start world (run.level.id.nested run.level.enters) graph).1

theorem inner?_enter (world : Option σ) (index : Nat) (level : Level) :
    (enter world index level).1.inner? =
      (level.graph.nestedAt? index).map fun graph =>
        (start world (level.id.nested (level.enters + 1)) graph).1 := by
  cases hosted : level.graph.nestedAt? index with
  | none => rw [enter_of_none hosted]; rfl
  | some graph => rw [enter_hosting hosted]; rfl

theorem begins_enter {level : Level} {index : Nat} {inst : Instance} (sound : level.Sound)
    (found : level.instances[index]? = some inst) (forgets : inst.node.kind.forgets = true)
    (world : Option σ) : Begins world inst.node (enter world index level).1 where
  current? := by
    have entered := Level.getElem?_enter world index index level
    rw [found, Option.map_some, if_pos rfl, Instance.changed_enter forgets] at entered
    rw [level_enter]
    exact Level.current?_of_found (Level.current_enter world index level) entered
  inner? := by
    rw [inner?_enter, level_enter, Level.id_enter, Level.enters_enter, Graph.nestedAt?,
      sound.named_of_instance found, Option.bind_some]

theorem Enters.begins (entered : Enters world run) {node : Node Graph}
    (current : run.level.currentNode? = some node) (forgets : node.kind.forgets = true) :
    Begins world node run := by
  obtain @⟨level, index, sound, wins⟩ := entered
  obtain ⟨inst, found⟩ := sound.instance_of_isWinner wins
  rw [level_enter, Level.currentNode?, Level.current_enter, Level.graph_enter, Option.bind_some,
    sound.named_of_instance found, Option.some.injEq] at current
  subst current
  exact begins_enter sound found forgets world

theorem Enters.isStart_of_mem_hosted (entered : Enters world run) {nested : Run}
    (member : nested ∈ run.hosted) : nested.IsStart world := by
  obtain @⟨level, index, _, _⟩ := entered
  exact (isStart_of_mem_enter world index level nested member).1

theorem begins_start_single {node : Node Graph} (named : node.id ≠ "")
    (forgets : node.kind.forgets = true) (world : Option σ) (id : RunId) :
    Begins world node (start world id (Graph.single node)).1 := by
  have found : (Level.ofGraph id (Graph.single node)).instances[0]? = some (.ofNode node) := by
    simp only [Level.ofGraph, Graph.named_single named, List.map_cons, List.getElem?_cons_zero]
  have begins := begins_enter (Level.sound_ofGraph id (Graph.single node)) found
    (by rwa [Instance.node_ofNode]) world
  rw [Instance.node_ofNode] at begins
  rw [start_of_some (Graph.startIndex?_single named)]
  exact begins

/-! ## Mirrored visits -/

/-- The outermost levels are in the same visit: the node in control is the same and has come to the
same, and but for its identity so has the run that it hosts. -/
inductive Mirrors : Run → Run → Prop where
  | alone {level other : Level} (same : level.current? = other.current?) :
      Mirrors (.alone level) (.alone other)
  | hosting {level other : Level} {inner : Run} (same : level.current? = other.current?) :
      Mirrors (.hosting level (inner.renamed (level.id.nested level.enters)))
        (.hosting other inner)

theorem mirrors_of_eq (current : run.level.current? = alone.level.current?)
    (inner : run.inner? = alone.inner?.map (·.renamed (run.level.id.nested run.level.enters))) :
    Mirrors run alone := by
  cases run with
  | alone level =>
      cases alone with
      | alone other => exact .alone current
      | hosting other within => cases inner
  | hosting level hosted =>
      cases alone with
      | alone other => cases inner
      | hosting other within =>
          have renamed : hosted = within.renamed (level.id.nested level.enters) :=
            Option.some.inj inner
          subst renamed
          exact .hosting current

theorem Mirrors.current?_eq (mirrors : Mirrors run alone) :
    run.level.current? = alone.level.current? := by
  cases mirrors with
  | alone same => exact same
  | hosting same => exact same

theorem Mirrors.inner?_eq (mirrors : Mirrors run alone) :
    run.inner? = alone.inner?.map (·.renamed (run.level.id.nested run.level.enters)) := by
  cases mirrors <;> rfl

theorem Begins.mirrors {node : Node Graph} (begins : Begins world node run)
    (begins' : Begins world node alone) : Mirrors run alone := by
  apply mirrors_of_eq (begins.current?.trans begins'.current?.symm)
  rw [begins.inner?, begins'.inner?, Option.map_map]
  congr 1
  funext graph
  exact (start_renamed world _ _ graph).symm

theorem Mirrors.command?_eq (mirrors : Mirrors run alone) (sound : run.Sound)
    (aloneSound : alone.Sound) : run.command? = alone.command? := by
  cases mirrors with
  | alone same => simp only [command?, same]
  | hosting => rw [sound.command?_of_hosting, aloneSound.command?_of_hosting, command?_renamed]

/-- The work of the node in control is what decides whether a level that hosts no run moves on. -/
theorem isSome_departure?_alone (level : Level) (seconds : Float32) (world : Option σ) :
    ((Run.alone level).departure? seconds world).isSome =
      level.current?.any fun inst => (inst.activity.work seconds world).2 := by
  cases current : level.current with
  | none => simp [departure?, Level.current?, current]
  | some index =>
      cases found : level.instances[index]? with
      | none => simp [departure?, Level.current?, current, found]
      | some inst =>
          rw [departure?_alone current found, Level.current?_of_found current found,
            Option.any_some]
          split
          next done => exact done.symm
          next working => exact (Bool.eq_false_iff.mpr working).symm

theorem isSome_departure?_hosting {level : Level} {inner : Run}
    (sound : (Run.hosting level inner).Sound) (seconds : Float32) (world : Option σ) :
    ((Run.hosting level inner).departure? seconds world).isSome =
      (inner.advance seconds world).1.isFinished := by
  cases sound with
  | hosting _ current =>
      rw [departure?_hosting current]
      cases (inner.advance seconds world).1.isFinished <;> rfl

theorem Mirrors.isSome_departure?_eq (mirrors : Mirrors run alone) (sound : run.Sound)
    (aloneSound : alone.Sound) (seconds : Float32) (world : Option σ) :
    (run.departure? seconds world).isSome = (alone.departure? seconds world).isSome := by
  cases mirrors with
  | alone same => rw [isSome_departure?_alone, isSome_departure?_alone, same]
  | hosting =>
      rw [isSome_departure?_hosting sound, isSome_departure?_hosting aloneSound, advance_renamed,
        isFinished_renamed]

theorem advance_alone_of_stays {level : Level} {index : Nat} {inst : Instance}
    (current : level.current = some index) (found : level.instances[index]? = some inst)
    {seconds : Float32} (stays : ((Run.alone level).departure? seconds world).isSome = false) :
    ((Run.alone level).advance seconds world).1 = .alone (level.worked seconds world index) := by
  rw [isSome_departure?_alone, Level.current?_of_found current found, Option.any_some] at stays
  rw [advance_alone current found, stays, if_neg Bool.false_ne_true]

theorem advance_hosting_of_stays {level : Level} {inner : Run}
    (sound : (Run.hosting level inner).Sound) {seconds : Float32}
    (stays : ((Run.hosting level inner).departure? seconds world).isSome = false) :
    ((Run.hosting level inner).advance seconds world).1 =
      .hosting { level with ticks := level.ticks + 1 } (inner.advance seconds world).1 := by
  rw [isSome_departure?_hosting sound] at stays
  cases sound with
  | hosting _ current => rw [advance_hosting_of_current current, stays]; rfl

/-- A tick that leaves the visit does the same to both. -/
theorem Mirrors.advance (mirrors : Mirrors run alone) (sound : run.Sound)
    (aloneSound : alone.Sound) {seconds : Float32} {world : Option σ}
    (stays : (run.departure? seconds world).isSome = false)
    (running : run.level.current?.isSome = true) :
    Mirrors (run.advance seconds world).1 (alone.advance seconds world).1 := by
  have staysToo := (mirrors.isSome_departure?_eq sound aloneSound seconds world).symm.trans stays
  cases mirrors with
  | @alone level other same =>
      obtain ⟨inst, now⟩ : ∃ inst, level.current? = some inst :=
        Option.isSome_iff_exists.mp running
      obtain ⟨index, current, found⟩ := Option.bind_eq_some_iff.mp now
      obtain ⟨place, there, foundThere⟩ := Option.bind_eq_some_iff.mp (same.symm.trans now)
      rw [advance_alone_of_stays current found stays,
        advance_alone_of_stays there foundThere staysToo]
      apply Mirrors.alone
      rw [Level.current?_worked current, Level.current?_worked there, same]
  | hosting same =>
      rw [advance_hosting_of_stays sound stays, advance_hosting_of_stays aloneSound staysToo,
        advance_renamed]
      exact .hosting same

theorem Mirrors.signal (mirrors : Mirrors run alone) (kept : run.level.WaitKept)
    (aloneKept : alone.level.WaitKept) (trigger : String) :
    Mirrors (run.signal trigger).run (alone.signal trigger).run := by
  apply mirrors_of_eq
  · rw [level_signal, level_signal, kept.current?_signal, aloneKept.current?_signal,
      mirrors.current?_eq]
  · rw [inner?_signal, inner?_signal, level_signal, Level.id_signal, Level.enters_signal]
    exact mirrors.inner?_eq

end Run

/-- All nodes of a level that has just begun are as they were made, and its first one was
entered. -/
theorem Level.getElem?_begin {σ : Type} [World σ] (world : Option σ) (id : RunId) (graph : Graph)
    (index : Nat) :
    (Level.begin world id graph).instances[index]? =
      graph.named[index]?.map fun node =>
        if (Level.begin world id graph).current = some index then .afresh world node
        else .ofNode node := by
  have made : (ofGraph id graph).instances[index]? = graph.named[index]?.map .ofNode :=
    List.getElem?_map
  unfold begin
  cases graph.startIndex? with
  | none => exact made
  | some first =>
      simp only [getElem?_enter, made, Option.map_map, current_enter, Option.some.injEq]
      rfl

/-! ## Identities in a chain -/

namespace Run

variable {run : Run}

theorem Sound.ne_of_mem_hosted (sound : run.Sound) {nested : Run} (member : nested ∈ run.hosted) :
    nested.level.id ≠ run.level.id := by
  cases sound with
  | alone => cases member
  | hosting _ _ _ identity within =>
      exact (identity ▸ within.isWithin_of_mem_chain member).ne_of_nested

/-- No two runs in a chain have the same identity. -/
theorem Sound.eq_of_id (sound : run.Sound) {first second : Run} (member : first ∈ run.chain)
    (memberToo : second ∈ run.chain) (same : first.level.id = second.level.id) :
    first = second := by
  induction sound with
  | alone => exact (List.mem_singleton.mp member).trans (List.mem_singleton.mp memberToo).symm
  | hosting sound current hosted identity within ih =>
      have outer := Sound.hosting sound current hosted identity within
      rcases mem_chain_iff.mp member with rfl | inside <;>
        rcases mem_chain_iff.mp memberToo with rfl | insideToo
      · rfl
      · exact absurd same.symm (outer.ne_of_mem_hosted insideToo)
      · exact absurd same (outer.ne_of_mem_hosted inside)
      · exact ih inside insideToo

end Run

/-! ## Visits in a session -/

theorem Level.currentNode?_congr {level after : Level} (current : after.current = level.current)
    (graph : after.graph = level.graph) : after.currentNode? = level.currentNode? := by
  rw [currentNode?, currentNode?, current, graph]

theorem Level.Sound.exists_current? {level : Level} (sound : level.Sound) {node : Node Graph}
    (current : level.currentNode? = some node) :
    ∃ inst, level.current? = some inst ∧ inst.node = node := by
  obtain ⟨index, inControl, atIndex⟩ := Option.bind_eq_some_iff.mp current
  obtain ⟨inst, found, same⟩ := sound.instance_of_named atIndex
  exact ⟨inst, current?_of_found inControl found, same⟩

theorem Level.Sound.currentNode?_eq {level : Level} (sound : level.Sound) {inst : Instance}
    (current : level.current? = some inst) : level.currentNode? = some inst.node := by
  obtain ⟨index, inControl, found⟩ := Option.bind_eq_some_iff.mp current
  rw [currentNode?, inControl, Option.bind_some, sound.named_of_instance found]

theorem Level.ne_empty_of_currentNode? {level : Level} {node : Node Graph}
    (current : level.currentNode? = some node) : node.id ≠ "" := by
  obtain ⟨index, _, atIndex⟩ := Option.bind_eq_some_iff.mp current
  exact Graph.ne_empty_of_mem_named (List.mem_of_getElem? atIndex)

namespace Session

variable {σ : Type} [World σ]

/-- The operations that reach the run with the inner identity. Signals reach no hosted run. -/
def heard (outermost inner : RunId) (operations : List (Operation σ)) : List (Operation σ) :=
  if inner = outermost then operations else unsignalled operations

omit [World σ] in
theorem heard_append {outermost inner : RunId} {operation : Operation σ}
    (reaches : inner = outermost ∨ operation.isSignal = false) (operations : List (Operation σ)) :
    heard outermost inner (operations ++ [operation]) =
      heard outermost inner operations ++ [operation] := by
  unfold heard
  split
  · rfl
  next apart =>
    have quiet := reaches.resolve_left apart
    simp [unsignalled, quiet]

omit [World σ] in
theorem heard_append_signal {outermost inner : RunId} (apart : inner ≠ outermost)
    (operations : List (Operation σ)) (trigger : String) :
    heard outermost inner (operations ++ [.signal trigger]) =
      heard outermost inner operations := by
  rw [heard, heard, if_neg apart, if_neg apart, unsignalled, List.filter_append]
  exact List.append_nil _

/-- A visit that began with the last operation is as it was entered. -/
theorem enters_of_now {world : Option σ} {id : RunId} {graph : Graph}
    {operations : List (Operation σ)} {nested : Run}
    (member : nested ∈ (after world id graph operations).run.chain)
    (running : nested.isFinished = false)
    (now : Since world id graph operations operations
      (·.InVisit nested.level.id nested.level.enters)) :
    Run.Enters (after world id graph operations).world nested := by
  have never : ∀ {later : List (Operation σ)} {operation}, later ++ [operation] ≠ [] :=
    List.append_ne_nil_of_right_ne_nil _ (List.cons_ne_nil _ _)
  have kept : KeptInVisits world id graph fun before later nested =>
      later = [] → Run.Enters (after world id graph before).world nested :=
    { enters := fun _ entered _ => entered
      tick := fun _ _ _ _ _ nothing => absurd nothing never
      signal := fun _ _ nothing => absurd nothing never
      unheard := fun _ _ _ nothing => absurd nothing never
      change := fun _ _ _ nothing => absurd nothing never }
  obtain ⟨before, later, split, since, entered⟩ :=
    kept.exists_beginning operations member running
  have same := since.eq_of_now ⟨later, split.symm⟩ now
  rw [← same] at split ⊢
  exact entered (List.self_eq_append_right.mp split)

/-- The visit that a run in the chain is in goes as the one visit of the other session. -/
structure Retraces (session alone : Session σ) (nested : Run) : Prop where
  mirrors : Run.Mirrors nested alone.run
  world : session.world = alone.world

theorem Retraces.world_perform_eq {session alone : Session σ} {nested : Run}
    (retraces : Retraces session alone nested) (sound : session.run.Sound)
    (aloneSound : alone.run.Sound) (member : nested ∈ session.run.chain)
    (operation : Operation σ) :
    (session.perform operation).world = (alone.perform operation).world := by
  have command : session.run.command? = alone.run.command? :=
    (sound.command?_of_mem_chain member).trans
      (retraces.mirrors.command?_eq (sound.of_mem_chain member) aloneSound)
  have issued : session.issued? operation = alone.issued? operation := by
    cases operation with
    | tick seconds => simp only [issued?, command, retraces.world]
    | signal | change => rfl
  rw [world_perform, world_perform, issued, retraces.world]

variable (world : Option σ) (id : RunId) (graph : Graph)

/-- The session of the node alone that starts in the world in which the visit began. -/
def visitAlone (before later : List (Operation σ)) (nested : Run) (node : Node Graph)
    (other : RunId) : Session σ :=
  after (after world id graph before).world other (Graph.single node)
    (heard id nested.level.id later)

/-- Visits to nodes that forget. -/
def VisitRetraced (before later : List (Operation σ)) (nested : Run) : Prop :=
  ∀ node, nested.level.currentNode? = some node → node.kind.forgets = true → ∀ other,
    Retraces (after world id graph (before ++ later))
      (visitAlone world id graph before later nested node other) nested

variable {world id graph}

theorem visitAlone_append {before later : List (Operation σ)} {nested next : Run}
    {operation : Operation σ} (sameId : next.level.id = nested.level.id)
    (reaches : nested.level.id = id ∨ operation.isSignal = false) (node : Node Graph)
    (other : RunId) :
    visitAlone world id graph before (later ++ [operation]) next node other =
      (visitAlone world id graph before later nested node other).perform operation := by
  rw [visitAlone, sameId, heard_append reaches, after_append]
  rfl

theorem keptInVisits_visitRetraced :
    KeptInVisits world id graph (VisitRetraced world id graph) where
  enters := by
    intro before nested _ entered node current forgets other
    have named := Level.ne_empty_of_currentNode? current
    have alone := Run.begins_start_single named forgets (after world id graph before).world other
    have nothing : heard id nested.level.id ([] : List (Operation σ)) = [] := ite_self _
    rw [visitAlone, nothing, List.append_nil]
    exact ⟨(entered.begins current forgets).mirrors alone, rfl⟩
  tick := by
    intro before later nested seconds member retraced running now stays node current forgets other
    have sound := sound world id graph (before ++ later)
    have nestedSound := sound.of_mem_chain member
    have step := nestedSound.tickStep seconds now
    rw [stays] at step
    have sameNode := Level.currentNode?_congr step.eq_of_none.1 step.graph_eq
    have past := retraced node (sameNode.symm.trans current) forgets other
    have aloneSound : (visitAlone world id graph before later nested node other).run.Sound :=
      Session.sound _ _ _ _
    have worlds := past.world_perform_eq sound aloneSound member (.tick seconds)
    rw [← after_append] at worlds
    obtain ⟨inst, inControl, _⟩ := nestedSound.level.exists_current? (sameNode.symm.trans current)
    have mirrored := past.mirrors.advance nestedSound aloneSound (congrArg Option.isSome stays)
      (Option.isSome_of_eq_some inControl)
    have advanced : ((visitAlone world id graph before later nested node other).perform
        (.tick seconds)).run =
        ((visitAlone world id graph before later nested node other).run.advance seconds now).1 := by
      rw [show now = _ from worlds]
      rfl
    rw [visitAlone_append step.id_eq (.inr rfl), ← List.append_assoc]
    exact ⟨advanced ▸ mirrored, worlds⟩
  signal := by
    intro before later trigger retraced node current forgets other
    have sameLevel := Run.level_signal trigger (after world id graph (before ++ later)).run
    have sameId := (congrArg Level.id sameLevel).trans (Level.id_signal trigger _)
    have sameNode := Level.currentNode?_congr
      ((congrArg Level.current sameLevel).trans (Level.current_signal trigger _))
      ((congrArg Level.graph sameLevel).trans (Level.graph_signal trigger _))
    have past := retraced node (sameNode.symm.trans current) forgets other
    have kept := (history world id graph (before ++ later)).waitKept
    have aloneKept : (visitAlone world id graph before later (after world id graph
        (before ++ later)).run node other).run.level.WaitKept := (history _ _ _ _).waitKept
    rw [visitAlone_append sameId (.inl (id_eq world id graph _)), ← List.append_assoc, after_append]
    exact ⟨past.mirrors.signal kept aloneKept trigger, past.world⟩
  unheard := by
    intro before later nested trigger member retraced node current forgets other
    have past := retraced node current forgets other
    have apart := (sound world id graph (before ++ later)).ne_of_mem_hosted member
    rw [id_eq] at apart
    rw [visitAlone, heard_append_signal apart, ← List.append_assoc, after_append]
    exact ⟨past.mirrors, past.world⟩
  change := by
    intro before later nested become member retraced node current forgets other
    have sound := sound world id graph (before ++ later)
    have past := retraced node current forgets other
    have aloneSound : (visitAlone world id graph before later nested node other).run.Sound :=
      Session.sound _ _ _ _
    have worlds := past.world_perform_eq sound aloneSound member (.change become)
    rw [visitAlone_append rfl (.inr rfl), ← List.append_assoc, after_append]
    exact ⟨past.mirrors, worlds⟩

end Session

/-! ## What an operation does not touch -/

namespace Level

variable {σ : Type} [World σ] {world : Option σ} {level after : Level}
  {departure : Option Departure} {other : Nat}

theorem getElem?_follow_of_ne {destination : Destination}
    (apart : destination.entered? ≠ some other) (world : Option σ) (level : Level) :
    (level.follow world destination).instances[other]? = level.instances[other]? := by
  have entered : ∀ {level : Level} {next : Nat}, some next ≠ some other →
      (level.enter world next).instances[other]? = level.instances[other]? := by
    intro level next apart
    have elsewhere : next ≠ other := fun same => apart (congrArg some same)
    simp [getElem?_enter, elsewhere]
  cases destination with
  | successor next => exact entered apart
  | resumption next returns =>
      have resumed : (({ level with returns } : Level).enter world next).instances[other]? =
        level.instances[other]? := entered apart
      exact resumed
  | ending | unresolved => rfl

theorem TickStep.getElem?_of_ne (step : TickStep world level departure after)
    (before : level.current ≠ some other) (now : after.current ≠ some other) :
    after.instances[other]? = level.instances[other]? := by
  have worked : ∀ {seconds : Float32} {index : Nat}, level.current = some index →
      (level.worked seconds world index).instances[other]? = level.instances[other]? := by
    intro seconds index current
    have elsewhere : index ≠ other := fun same => before (same ▸ current)
    simp [getElem?_worked, elsewhere]
  cases step with
  | idle => rfl
  | stay current => exact worked current
  | move current =>
      rw [current_follow] at now
      rw [getElem?_follow_of_ne now, left, instances_leave]
      exact worked current

theorem WaitKept.getElem?_signal_of_ne (kept : level.WaitKept) (trigger : String)
    (before : level.current ≠ some other) :
    (level.signal trigger).1.instances[other]? = level.instances[other]? := by
  have unreached : other ∉ level.waits.waiting trigger := fun reached =>
    before (instance_of_wait? (kept.mem_waiting_iff.mp reached)).1
  simp [getElem?_signal, unreached]

end Level

namespace Run

variable {σ : Type} [World σ] {run nested next : Run} {events : List Event}

/-- A run that is in the chain before a tick and after it has had that tick itself. -/
theorem Sound.eq_advance_of_id (sound : run.Sound) (recorded : Recorded events run)
    (member : nested ∈ run.chain) {seconds : Float32} {world : Option σ}
    (memberToo : next ∈ (run.advance seconds world).1.chain)
    (same : next.level.id = nested.level.id) : next = (nested.advance seconds world).1 := by
  rcases sound.chain_cases recorded seconds world memberToo with
    ⟨_, silent⟩ | ⟨before, earlier, rfl⟩
  · exact absurd (same ▸ silent) (recorded_of_mem_chain recorded member).own_ne_nil
  · have kept := ((sound.of_mem_chain earlier).tickStep seconds world).id_eq
    rw [sound.eq_of_id earlier member (kept.symm.trans same)]

end Run

namespace Session

variable {σ : Type} [World σ] (world : Option σ) (id : RunId) (graph : Graph)

/-- An operation leaves every node of a level alone but for the one in control before it and the
one in control after it. -/
theorem getElem?_perform_of_ne (operations : List (Operation σ)) (operation : Operation σ)
    {nested next : Run} (member : nested ∈ (after world id graph operations).run.chain)
    (memberToo : next ∈ ((after world id graph operations).perform operation).run.chain)
    (same : next.level.id = nested.level.id) {other : Nat}
    (before : nested.level.current ≠ some other) (now : next.level.current ≠ some other) :
    next.level.instances[other]? = nested.level.instances[other]? := by
  have sound := sound world id graph operations
  cases operation with
  | tick seconds =>
      have advanced := sound.eq_advance_of_id (recorded world id graph operations) member
        memberToo same
      rw [advanced] at now ⊢
      exact ((sound.of_mem_chain member).tickStep seconds _).getElem?_of_ne before now
  | signal trigger =>
      have kept := (history world id graph operations).waitKept
      rcases Run.mem_chain_iff.mp memberToo with rfl | inside
      · have signalled := Run.level_signal trigger (after world id graph operations).run
        have sameId := (congrArg Level.id signalled).trans (Level.id_signal trigger _)
        have itself := sound.eq_of_id member (Run.mem_chain_self _) (same.symm.trans sameId)
        rw [itself] at before ⊢
        exact (congrArg (·.instances[other]?) signalled).trans
          (kept.getElem?_signal_of_ne trigger before)
      · rw [perform, Run.hosted_signal] at inside
        rw [sound.eq_of_id (Run.mem_chain_iff.mpr (.inr inside)) member same]
  | change become => rw [sound.eq_of_id memberToo member same]

/-- All nodes but Sequences and Loops begin each visit as if they had just been made, and so do the
nodes of the runs that they host, Sequences and Loops as well. From then on the visit goes as it
would in a run of that node alone, which starts in the world of that moment and has the same
operations. And no operation changes a node but the ones in control before and after it. -/
theorem visits_begin_afresh (operations : List (Operation σ)) :
    let session := after world id graph operations
    (∀ nested ∈ session.run.chain, ∀ node, nested.level.currentNode? = some node →
      node.kind.forgets = true →
      (Since world id graph operations operations
          (·.InVisit nested.level.id nested.level.enters) →
        nested.level.current? = some (.afresh session.world node) ∧
        nested.inner? = node.kind.nested?.map (fun inner =>
          (Run.start session.world (nested.level.id.nested nested.level.enters) inner).1) ∧
        ∀ deeper ∈ nested.hosted, ∀ index : Nat,
          deeper.level.instances[index]? =
            deeper.level.graph.named[index]?.map fun given =>
              if deeper.level.current = some index then .afresh session.world given
              else .ofNode given) ∧
      ∃ before later, operations = before ++ later ∧
        Since world id graph before operations
          (·.InVisit nested.level.id nested.level.enters) ∧
        ∀ other : RunId,
          let entry := after world id graph before
          let alone := after entry.world other (Graph.single node)
            (heard id nested.level.id later)
          nested.level.current? = alone.run.level.current? ∧
          nested.inner? = alone.run.inner?.map
            (·.renamed (nested.level.id.nested nested.level.enters)) ∧
          session.world = alone.world ∧
          ∀ seconds : Float32,
            let now := (session.perform (.tick seconds)).world
            now = (alone.perform (.tick seconds)).world ∧
            (nested.departure? seconds now).isSome = (alone.run.departure? seconds now).isSome) ∧
    ∀ operation : Operation σ, ∀ nested ∈ session.run.chain,
      ∀ next ∈ (session.perform operation).run.chain, next.level.id = nested.level.id →
      ∀ other, nested.level.current ≠ some other → next.level.current ≠ some other →
        next.level.instances[other]? = nested.level.instances[other]? := by
  intro session
  have sound : session.run.Sound := Session.sound world id graph operations
  constructor
  · intro nested member node current forgets
    have nestedSound := sound.of_mem_chain member
    obtain ⟨index, inControl, _⟩ := Option.bind_eq_some_iff.mp current
    have running := Level.isFinished_of_current inControl
    constructor
    · intro now
      have entered := enters_of_now member running now
      have begins := entered.begins current forgets
      refine ⟨begins.current?, begins.inner?, fun deeper inside index => ?_⟩
      have begun := (entered.isStart_of_mem_hosted inside).level_eq
      have made := Level.getElem?_begin session.world deeper.level.id deeper.level.graph index
      rw [← begun] at made
      exact made
    · obtain ⟨before, later, rfl, since, retraced⟩ :=
        keptInVisits_visitRetraced.exists_beginning operations member running
      refine ⟨before, later, rfl, since, fun other => ?_⟩
      have retraces := retraced node current forgets other
      have aloneSound : (visitAlone world id graph before later nested node other).run.Sound :=
        Session.sound _ _ _ _
      refine ⟨retraces.mirrors.current?_eq, retraces.mirrors.inner?_eq, retraces.world,
        fun seconds => ⟨?_, ?_⟩⟩
      · exact retraces.world_perform_eq sound aloneSound member (.tick seconds)
      · exact retraces.mirrors.isSome_departure?_eq nestedSound aloneSound seconds _
  · intro operation nested member next memberToo same other
    exact getElem?_perform_of_ne world id graph operations operation member memberToo same

end Session

end SceneFlow
