import SceneFlow.Proofs.Run.Correspondence
import SceneFlow.Proofs.Run.Freshness
import SceneFlow.Proofs.Run.Signals
import SceneFlow.Proofs.Run.Turns

/-!
# What runs ignore

A Sequence goes nowhere but to its steps, a Branch takes no notice of what stands in one of its
lists only, and a Loop without a body or a SubFlow without a graph is left at once, as a Start node
is. A run goes the same way with such parts taken out of its graph, at any depth, and only a node
that became a Start node is reported with another type. A node that waits for a trigger without a
name is never left.
-/

set_option autoImplicit false

namespace SceneFlow

/-! ## Graphs without the ignored parts -/

mutual

/-- Some of what runs ignore is taken out of the graph, at any depth. Start nodes take the place of
nodes with an id among `replaced` only. -/
inductive Graph.Sheds (replaced : String → Prop) : Graph → Graph → Prop where
  | intro (id : String) {nodes nodes' : List (Node Graph)} (slots : List ActorSlot)
      (sheds : List.Forall₂ (Node.Sheds replaced) nodes nodes') :
      Graph.Sheds replaced ⟨id, nodes, slots⟩ ⟨id, nodes', slots⟩

inductive Node.Sheds (replaced : String → Prop) : Node Graph → Node Graph → Prop where
  | nothing (node : Node Graph) : Node.Sheds replaced node node
  | next (id : String) (nextId : Option String) (steps : List String) :
      Node.Sheds replaced ⟨id, nextId, .sequence steps⟩ ⟨id, none, .sequence steps⟩
  | unpaired (id : String) (nextId : Option String) (conditions targets : List String) :
      Node.Sheds replaced ⟨id, nextId, .branch conditions targets⟩
        ⟨id, nextId, .branch (conditions.take targets.length) (targets.take conditions.length)⟩
  | loop {id : String} (nextId : Option String) {body : Option String} (limit : UInt32)
      (nobody : nonEmpty? body = none) (chosen : replaced id) :
      Node.Sheds replaced ⟨id, nextId, .loop body limit⟩ ⟨id, nextId, .start⟩
  | subFlow {id : String} (nextId : Option String) (chosen : replaced id) :
      Node.Sheds replaced ⟨id, nextId, .subFlow none⟩ ⟨id, nextId, .start⟩
  | within (id : String) (nextId : Option String) {graph graph' : Graph}
      (sheds : Graph.Sheds replaced graph graph') :
      Node.Sheds replaced ⟨id, nextId, .subFlow (some graph)⟩ ⟨id, nextId, .subFlow (some graph')⟩

end

/-- Instances of nodes that differ in what is taken out, and remember the same where both remember
anything. A Branch has taken one of the options that are left. -/
inductive Instance.Sheds (replaced : String → Prop) : Instance → Instance → Prop where
  | nothing (inst : Instance) : Instance.Sheds replaced inst inst
  | next (id : String) (nextId : Option String) (steps : List String) (step : Option Nat) :
      Instance.Sheds replaced ⟨id, nextId, .sequence steps step⟩ ⟨id, none, .sequence steps step⟩
  | unpaired (id : String) (nextId : Option String) (conditions targets : List String)
      {chosen : Option Nat} (paired : ∀ option ∈ chosen, option < conditions.length) :
      Instance.Sheds replaced ⟨id, nextId, .branch conditions targets chosen⟩
        ⟨id, nextId,
          .branch (conditions.take targets.length) (targets.take conditions.length) chosen⟩
  | loop {id : String} (nextId : Option String) {body : Option String}
      (limit iteration : UInt32) (finished : Bool) (nobody : nonEmpty? body = none)
      (chosen : replaced id) :
      Instance.Sheds replaced ⟨id, nextId, .loop body limit iteration finished⟩ ⟨id, nextId, .start⟩
  | subFlow {id : String} (nextId : Option String) (chosen : replaced id) :
      Instance.Sheds replaced ⟨id, nextId, .subFlow none⟩ ⟨id, nextId, .start⟩
  | within (id : String) (nextId : Option String) {graph graph' : Graph}
      (sheds : Graph.Sheds replaced graph graph') :
      Instance.Sheds replaced ⟨id, nextId, .subFlow (some graph)⟩
        ⟨id, nextId, .subFlow (some graph')⟩

/-- The type of the node with an id is the same, unless the node became a Start node. -/
def Retyped (replaced : String → Prop) (id : String) (type type' : NodeType) : Prop :=
  type' = type ∨ replaced id ∧ (type = .loop ∨ type = .subFlow) ∧ type' = .start

section Sheds

variable {replaced : String → Prop}

theorem Node.Sheds.id_eq {node node' : Node Graph} (sheds : Sheds replaced node node') :
    node.id = node'.id := by
  cases sheds <;> rfl

theorem Node.Sheds.ofNode {node node' : Node Graph} (sheds : Sheds replaced node node') :
    Instance.Sheds replaced (.ofNode node) (.ofNode node') := by
  cases sheds with
  | nothing => exact .nothing _
  | next id nextId steps => exact .next id nextId steps none
  | unpaired id nextId conditions targets => exact .unpaired id nextId conditions targets nofun
  | loop nextId limit nobody chosen => exact .loop nextId limit 0 false nobody chosen
  | subFlow nextId chosen => exact .subFlow nextId chosen
  | within id nextId sheds => exact .within id nextId sheds

namespace Graph.Sheds

theorem refl (graph : Graph) : Graph.Sheds replaced graph graph := by
  cases graph
  exact .intro _ _ (List.forall₂_same.mpr fun node _ => .nothing node)

variable {graph graph' : Graph} (sheds : Graph.Sheds replaced graph graph')
include sheds

theorem id_eq : graph.id = graph'.id := by
  cases sheds
  rfl

theorem startId_eq : graph.start?.map (·.id) = graph'.start?.map (·.id) := by
  obtain @⟨id, _, _, slots, nodes⟩ := sheds
  cases nodes with
  | nil => rfl
  | cons first _ => exact congrArg some first.id_eq

theorem named :
    List.Forall₂ (fun node node' => Instance.Sheds replaced (.ofNode node) (.ofNode node'))
      graph.named graph'.named := by
  obtain @⟨id, _, _, slots, nodes⟩ := sheds
  refine (List.rel_filter ?_ nodes).imp fun _ _ pair => pair.ofNode
  intro node node' pair
  simp only [pair.id_eq]

end Graph.Sheds

/-! ## Activities without the ignored parts -/

variable {σ : Type} [World σ]

theorem chosenOption_take (world : σ) (conditions targets : List String) :
    Activity.chosenOption world (conditions.take targets.length) (targets.take conditions.length) =
      Activity.chosenOption world conditions targets := by
  rw [Activity.chosenOption, Activity.chosenOption, List.take_eq_take_min,
    List.take_eq_take_min (l := targets), Nat.min_comm targets.length, ← List.zip_eq_zip_take_min]

namespace Instance.Sheds

variable {inst inst' : Instance} (sheds : Instance.Sheds replaced inst inst')
include sheds

theorem successor?_eq : inst.successor? = inst'.successor? := by
  cases sheds with
  | loop nextId limit iteration finished nobody =>
      cases finished with
      | false => rw [successor?, Activity.target?, nobody]; rfl
      | true => rfl
  | @unpaired id nextId conditions targets chosen paired =>
      have same : chosen.bind (targets[·]?) =
          chosen.bind ((targets.take conditions.length)[·]?) := by
        cases chosen with
        | none => rfl
        | some option => exact (List.getElem?_take_of_lt (paired option rfl)).symm
      rw [successor?, Activity.target?, same]
      rfl
  | _ => rfl

theorem treatedAlike : inst.TreatedAlike inst' where
  id := by cases sheds <;> rfl
  successor? := sheds.successor?_eq
  waitsOnEntry := by cases sheds <;> exact fun _ _ => rfl
  waitsOnExit := by cases sheds <;> exact fun _ _ => rfl
  returnsOnEntry := by cases sheds <;> exact fun _ _ => rfl
  returnsOnExit := by cases sheds <;> exact fun _ _ => rfl
  signalled? := by cases sheds <;> rfl

theorem type : Retyped replaced inst.id inst.type inst'.type := by
  cases sheds with
  | loop _ _ _ _ _ chosen => exact .inr ⟨chosen, .inl rfl, rfl⟩
  | subFlow _ chosen => exact .inr ⟨chosen, .inr rfl, rfl⟩
  | _ => exact .inl rfl

theorem nested? : Option.Rel (Graph.Sheds replaced) inst.activity.kind.nested?
    inst'.activity.kind.nested? := by
  cases sheds with
  | nothing =>
      cases inst.activity.kind.nested? with
      | none => exact .none
      | some graph => exact .some (.refl graph)
  | within _ _ sheds => exact .some sheds
  | _ => exact .none

theorem enter (world : Option σ) :
    Instance.Sheds replaced (inst.changed (·.enter world)) (inst'.changed (·.enter world)) := by
  cases sheds with
  | nothing => exact .nothing _
  | next id nextId steps step => exact .next id nextId steps _
  | unpaired id nextId conditions targets =>
      simp only [changed, Activity.enter, chosenOption_take]
      refine .unpaired id nextId conditions targets fun option chosen => ?_
      obtain ⟨now, _, taken⟩ := Option.bind_eq_some_iff.mp chosen
      exact Activity.lt_of_chosenOption taken
  | loop nextId limit _ _ nobody chosen => exact .loop nextId limit _ _ nobody chosen
  | subFlow nextId chosen => exact .subFlow nextId chosen
  | within id nextId sheds => exact .within id nextId sheds

theorem work (seconds : Float32) (world : Option σ) :
    (inst.activity.work seconds world).2 = (inst'.activity.work seconds world).2 ∧
      Instance.Sheds replaced (inst.changed (·.work seconds world |>.1))
        (inst'.changed (·.work seconds world |>.1)) := by
  cases sheds with
  | nothing => exact ⟨rfl, .nothing _⟩
  | next id nextId steps step => exact ⟨rfl, .next id nextId steps step⟩
  | unpaired id nextId conditions targets paired =>
      exact ⟨rfl, .unpaired id nextId conditions targets paired⟩
  | loop nextId limit iteration finished nobody chosen =>
      exact ⟨rfl, .loop nextId limit iteration finished nobody chosen⟩
  | subFlow nextId chosen => exact ⟨rfl, .subFlow nextId chosen⟩
  | within id nextId sheds => exact ⟨rfl, .within id nextId sheds⟩

theorem signalled :
    Instance.Sheds replaced (inst.changed Activity.signalled)
      (inst'.changed Activity.signalled) := by
  cases sheds with
  | nothing => exact .nothing _
  | next id nextId steps step => exact .next id nextId steps step
  | unpaired id nextId conditions targets paired =>
      exact .unpaired id nextId conditions targets paired
  | loop nextId limit iteration finished nobody chosen =>
      exact .loop nextId limit iteration finished nobody chosen
  | subFlow nextId chosen => exact .subFlow nextId chosen
  | within id nextId sheds => exact .within id nextId sheds

theorem command?_eq : inst.activity.command? = inst'.activity.command? := by
  cases sheds <;> rfl

end Instance.Sheds

/-- Runs of graphs with and without ignored parts, in the same world. -/
def Correspondence.sheds (σ : Type) (replaced : String → Prop) : Correspondence σ σ where
  worlds world world' := world = world'
  graphs := Graph.Sheds replaced
  instances := Instance.Sheds replaced
  types := Retyped replaced

theorem Correspondence.faithful_sheds (σ : Type) [World σ] (replaced : String → Prop) :
    (Correspondence.sheds σ replaced).Faithful where
  graphId sheds := sheds.id_eq
  startId sheds := sheds.startId_eq
  named sheds := sheds.named
  treated sheds := sheds.treatedAlike
  type sheds := sheds.type
  nested sheds := sheds.nested?
  enter := by
    rintro inst inst' world _ sheds rfl
    exact sheds.enter world
  work := by
    rintro inst inst' world _ seconds sheds rfl
    exact sheds.work seconds world
  signalled sheds := sheds.signalled
  commanded := by
    rintro inst inst' world _ sheds rfl
    have same : inst.activity.commanded = inst'.activity.commanded (σ := σ) := by
      funext now
      rw [Activity.commanded, Activity.commanded, sheds.command?_eq]
    exact congrArg (world.map ·) same

end Sheds

/-! ## Waits without a trigger -/

theorem Activity.exists_of_kind_waitForTrigger {activity : Activity} {trigger : String}
    (kind : activity.kind = .waitForTrigger trigger) :
    ∃ fired, activity = .waitForTrigger trigger fired := by
  cases activity with
  | waitForTrigger _ fired =>
      cases kind
      exact ⟨fired, rfl⟩
  | _ => cases kind

namespace Run

variable {σ : Type} [World σ] {run nested : Run}

omit [World σ] in
theorem exists_inner_of_mem_hosted (member : nested ∈ run.hosted) :
    ∃ inner, run.inner? = some inner ∧ nested ∈ inner.chain := by
  cases run with
  | alone => cases member
  | hosting _ inner => exact ⟨inner, rfl, member⟩

/-- A run in the chain that is not over after a tick is still there. -/
theorem Sound.advance_mem_chain (sound : run.Sound) (member : nested ∈ run.chain)
    {seconds : Float32} {world : Option σ}
    (running : (nested.advance seconds world).1.isFinished = false) :
    (nested.advance seconds world).1 ∈ (run.advance seconds world).1.chain ∧
      (run.advance seconds world).1.isFinished = false := by
  induction sound with
  | alone sound free =>
      cases List.mem_singleton.mp member
      exact ⟨mem_chain_self _, running⟩
  | @hosting level inner index sound current hosted identity within ih =>
      rcases List.mem_cons.mp member with rfl | inside
      · exact ⟨mem_chain_self _, running⟩
      · obtain ⟨still, goesOn⟩ := ih inside
        rw [advance_hosting sound current hosted, goesOn, if_neg Bool.false_ne_true]
        exact ⟨List.mem_cons_of_mem _ still, Level.isFinished_of_current current⟩

/-- A tick does not get a run past a node whose trigger has not fired. -/
theorem Sound.advance_of_unfired (sound : run.Sound) {inst : Instance} {trigger : String}
    (current : run.level.current? = some inst)
    (unfired : inst.activity = .waitForTrigger trigger false) (seconds : Float32)
    (world : Option σ) :
    (run.advance seconds world).1.level.id = run.level.id ∧
      (run.advance seconds world).1.level.enters = run.level.enters ∧
      (run.advance seconds world).1.level.current? = some inst := by
  obtain ⟨index, inControl, found⟩ := Option.bind_eq_some_iff.mp current
  have unchanged : inst.changed (·.work seconds world |>.1) = inst := by
    rcases inst with ⟨id, nextId, _⟩
    cases unfired
    rfl
  have worked := Level.current?_worked inControl seconds world
  rw [current, Option.map_some, unchanged] at worked
  rw [sound.eq_alone_of_waits inControl found unfired, advance_alone inControl found, unfired]
  exact ⟨rfl, rfl, worked⟩

end Run

/-! ## Sessions -/

namespace Session

variable {σ : Type} [World σ] (world : Option σ) (id : RunId) (graph : Graph)

variable {world id graph} in
theorem unfired_of_nameless (operations : List (Operation σ)) {nested : Run} {inst : Instance}
    (member : nested ∈ (after world id graph operations).run.chain)
    (current : nested.level.current? = some inst)
    (kind : inst.activity.kind = .waitForTrigger "") :
    inst.activity = .waitForTrigger "" false := by
  obtain ⟨fired, activity⟩ := Activity.exists_of_kind_waitForTrigger kind
  have waits : nested.level.current?.map (·.activity) = some (.waitForTrigger "" fired) := by
    rw [current, Option.map_some, activity]
  have unfired : nested.level.fired = false := by
    rcases Run.mem_chain_iff.mp member with rfl | inside
    · have nameless := Level.wait?_trigger_of_waits waits
      rw [if_pos rfl, Option.map_eq_none_iff] at nameless
      rw [← Bool.not_eq_true, fired_iff, nameless]
      rintro ⟨_, awaited, _⟩
      cases awaited
    · obtain ⟨inner, hosts, inChain⟩ := Run.exists_inner_of_mem_hosted inside
      exact holds_of_hosted world id graph Level.lasting_unfired operations hosts inChain
  rw [activity, ← Level.fired_of_waits waits, unfired]

variable {world id graph} in
/-- Nothing ends a visit of a node that waits for the trigger without a name. -/
theorem nameless_waits_last (operations later : List (Operation σ)) {nested : Run} {inst : Instance}
    (member : nested ∈ (after world id graph operations).run.chain)
    (current : nested.level.current? = some inst)
    (kind : inst.activity.kind = .waitForTrigger "") :
    ∃ still ∈ (after world id graph (operations ++ later)).run.chain,
      still.level.id = nested.level.id ∧ still.level.enters = nested.level.enters ∧
        still.level.current? = some inst := by
  induction later using List.reverseRecOn with
  | nil => exact ⟨nested, (List.append_nil operations).symm ▸ member, rfl, rfl, current⟩
  | append_singleton later operation ih =>
      obtain ⟨still, inChain, sameId, sameEnters, inControl⟩ := ih
      have sound := sound world id graph (operations ++ later)
      rw [← List.append_assoc]
      cases operation with
      | tick seconds =>
          have unfired := unfired_of_nameless (operations ++ later) inChain inControl kind
          obtain ⟨keptId, keptEnters, stays⟩ := (sound.of_mem_chain inChain).advance_of_unfired
            inControl unfired seconds
            (after world id graph (operations ++ later ++ [.tick seconds])).world
          obtain ⟨index, current, _⟩ := Option.bind_eq_some_iff.mp stays
          obtain ⟨there, _⟩ := sound.advance_mem_chain inChain (Level.isFinished_of_current current)
          rw [run_after_tick]
          exact ⟨_, there, keptId.trans sameId, keptEnters.trans sameEnters, stays⟩
      | signal trigger =>
          rw [after_append]
          rcases Run.mem_chain_iff.mp inChain with rfl | inside
          · have kept := (history world id graph (operations ++ later)).waitKept
            have unheard : inst.activity.trigger? ≠ some trigger := by
              rw [unfired_of_nameless (operations ++ later) inChain inControl kind]
              nofun
            have signalled := kept.current?_signal trigger
            rw [inControl, Option.map_some, if_neg unheard] at signalled
            refine ⟨_, Run.mem_chain_self _, ?_⟩
            rw [perform, Run.level_signal, Level.id_signal, Level.enters_signal]
            exact ⟨sameId, sameEnters, signalled⟩
          · rw [← Run.hosted_signal trigger] at inside
            exact ⟨still, Run.mem_chain_iff.mpr (.inr inside), sameId, sameEnters, inControl⟩
      | change become =>
          rw [after_append]
          exact ⟨still, inChain, sameId, sameEnters, inControl⟩

theorem corresponds_sheds {replaced : String → Prop} {graph graph' : Graph}
    (sheds : graph.Sheds replaced graph') (operations : List (Operation σ)) :
    Corresponds (.sheds σ replaced) (after world id graph operations)
      (after world id graph' operations) := by
  apply corresponds_after (Correspondence.faithful_sheds σ replaced)
  · rfl
  · exact sheds
  · refine Operation.forall₂_same ?_ operations
    rintro become now _ rfl
    rfl

/-- Nothing that can be seen of a run changes if next nodes of Sequences are taken out of its graph,
or what a Branch has in one list only, or if Start nodes take the place of Loops without a body and
SubFlow nodes without a graph. Only these nodes show another type. A node that waits for the trigger
without a name is never left. -/
theorem ignored_parts_have_no_effect {replaced : String → Prop} {graph graph' : Graph}
    (sheds : graph.Sheds replaced graph') (operations : List (Operation σ)) :
    let session := after world id graph operations
    let shed := after world id graph' operations
    List.Forall₂ (Level.Standing.Corresponds (Retyped replaced)) session.run.standings
      shed.run.standings ∧
    List.Forall₂ (fun nested nested' => Option.Rel (Instance.Sheds replaced) nested.level.current?
      nested'.level.current?) session.run.chain shed.run.chain ∧
    List.Forall₂ (Event.Corresponds (Retyped replaced)) session.events shed.events ∧
    session.world = shed.world ∧
    (begin world id graph).commands operations = (begin world id graph').commands operations ∧
    (∀ trigger, (session.run.signal trigger).woken = (shed.run.signal trigger).woken) ∧
    ∀ nested ∈ session.run.chain, ∀ inst, nested.level.current? = some inst →
      inst.activity.kind = .waitForTrigger "" →
        ∀ later, ∃ still ∈ (after world id graph (operations ++ later)).run.chain,
          still.level.id = nested.level.id ∧ still.level.enters = nested.level.enters ∧
            still.level.current? = some inst := by
  intro session shed
  have faithful := Correspondence.faithful_sheds σ replaced
  have sessions : Corresponds (.sheds σ replaced) session shed :=
    corresponds_sheds world id sheds operations
  refine ⟨?_, ?_, sessions.events, sessions.worlds, ?_, fun trigger =>
    (sessions.runs.signal faithful trigger).2, fun nested member inst current kind later =>
      nameless_waits_last operations later member current kind⟩
  · exact sessions.runs.standings (fun _ _ => faithful.graphId) fun _ _ pair =>
      ⟨(faithful.treated pair).id, faithful.type pair⟩
  · exact sessions.runs.forall₂_chain.imp fun _ _ levels => levels.current?
  · refine commands_congr (fun operations operation => ?_) operations
    have sessions := corresponds_sheds world id sheds operations
    exact sessions.issued?_eq sessions.worlds (fun _ _ _ pair => pair.command?_eq) operation

end Session

/-- An act with something that runs ignore in every node, and a wait behind it that never ends. -/
def Graph.cluttered : Graph :=
  ⟨"cluttered",
    [(Node.subFlow "act" ⟨"act",
        [(Node.sequence "steps" ["fork"]).followedBy "nowhere",
          ⟨"fork", some "again", .branch ["open"] []⟩,
          ⟨"again", some "gap", .loop (some "") 3⟩,
          .ofKind "gap" (.subFlow none)],
        []⟩).followedBy "bell",
      Node.waitForTrigger "bell" ""],
    []⟩

/-- The same act with nothing in it that runs ignore. -/
def Graph.tidied : Graph :=
  ⟨"cluttered",
    [(Node.subFlow "act" ⟨"act",
        [Node.sequence "steps" ["fork"],
          ⟨"fork", some "again", .branch [] []⟩,
          (Node.start "again").followedBy "gap",
          Node.start "gap"],
        []⟩).followedBy "bell",
      Node.waitForTrigger "bell" ""],
    []⟩

theorem Graph.sheds_cluttered :
    Graph.cluttered.Sheds (fun id => id = "again" ∨ id = "gap") Graph.tidied := by
  refine .intro _ _ (.cons (.within _ _ (.intro _ _ ?_)) (.cons (.nothing _) .nil))
  refine .cons (.next _ _ _) (.cons (.unpaired _ _ _ _) (.cons ?_ (.cons ?_ .nil)))
  · exact .loop _ _ rfl (.inl rfl)
  · exact .subFlow _ (.inr rfl)

theorem Session.ignored_parts_have_no_effect_cluttered :
    let operations := List.replicate 6 (.tick 0)
    let session := after (none : Option EmptyWorld) (.outermost 0) Graph.cluttered operations
    let tidied := after (none : Option EmptyWorld) (.outermost 0) Graph.tidied operations
    List.Forall₂ (Event.Corresponds (Retyped fun id => id = "again" ∨ id = "gap")) session.events
      tidied.events ∧
    ∃ inst, session.run.level.current? = some inst ∧ inst.id = "bell" ∧
      ∀ later, ∃ still ∈ (after (none : Option EmptyWorld) (.outermost 0) Graph.cluttered
        (operations ++ later)).run.chain, still.level.current? = some inst := by
  intro operations session tidied
  have atBell : session.run.level.current = some 1 := by decide +kernel
  obtain ⟨inst, _, current, node⟩ := exists_current none (.outermost 0) operations atBell rfl
  obtain ⟨_, _, events, _, _, _, stays⟩ := ignored_parts_have_no_effect
    (none : Option EmptyWorld) (.outermost 0) Graph.sheds_cluttered operations
  refine ⟨events, inst, current, congrArg Node.id node, fun later => ?_⟩
  obtain ⟨still, inChain, _, _, same⟩ := stays session.run (Run.mem_chain_self _) inst current
    (congrArg Node.kind node) later
  exact ⟨still, inChain, same⟩

end SceneFlow
