import SceneFlow.Proofs.Run.Freshness
import SceneFlow.Proofs.Run.Turns
import SceneFlow.World.Scripted

/-!
# Branches

A Branch asks its conditions once, as it is entered, and goes where the first option leads that
holds then. What the world answers later does not matter. An option without a target still hides
the options behind it, and control goes on to the node that follows in the graph.
-/

set_option autoImplicit false

namespace SceneFlow

/-! ## Options -/

section Options

variable {σ : Type} [World σ]

/-- There is an option with the number, and its condition has a name and holds. -/
structure IsOption (world : σ) (conditions targets : List String) (option : Nat) : Prop where
  paired : option < targets.length
  condition : ∃ condition, conditions[option]? = some condition ∧ condition ≠ "" ∧
    World.holds world condition = true

/-- No option with a smaller number holds. -/
structure IsFirstOption (world : σ) (conditions targets : List String) (option : Nat) : Prop where
  isOption : IsOption world conditions targets option
  first : ∀ earlier < option, ¬ IsOption world conditions targets earlier

variable {world : σ} {conditions targets : List String} {option : Nat}

theorem isOption_iff (inRange : option < (conditions.zip targets).length) :
    IsOption world conditions targets option ↔
      (conditions.zip targets)[option].1 ≠ "" ∧
        World.holds world (conditions.zip targets)[option].1 = true := by
  have bounds : option < conditions.length ∧ option < targets.length :=
    Nat.lt_min.mp (List.length_zip ▸ inRange)
  have given : conditions[option]? = some (conditions.zip targets)[option].1 := by
    rw [List.getElem_zip, List.getElem?_eq_getElem bounds.1]
  constructor
  · rintro ⟨_, condition, there, named, holds⟩
    cases given.symm.trans there
    exact ⟨named, holds⟩
  · rintro ⟨named, holds⟩
    exact ⟨bounds.2, _, given, named, holds⟩

theorem IsOption.lt_length_zip (isOption : IsOption world conditions targets option) :
    option < (conditions.zip targets).length := by
  obtain ⟨paired, condition, there, _⟩ := isOption
  have bound := (List.getElem?_eq_some_iff.mp there).1
  rw [List.length_zip]
  exact Nat.lt_min.mpr ⟨bound, paired⟩

theorem chosenOption_eq_some_iff :
    Activity.chosenOption world conditions targets = some option ↔
      IsFirstOption world conditions targets option := by
  simp only [Activity.chosenOption, List.findIdx?_eq_some_iff_getElem, Bool.and_eq_true,
    decide_eq_true_eq]
  constructor
  · rintro ⟨inRange, holds, first⟩
    refine ⟨(isOption_iff inRange).mpr holds, fun earlier before isOption => ?_⟩
    exact first earlier before ((isOption_iff isOption.lt_length_zip).mp isOption)
  · rintro ⟨isOption, first⟩
    refine ⟨isOption.lt_length_zip, (isOption_iff _).mp isOption, fun earlier before holds => ?_⟩
    exact first earlier before ((isOption_iff _).mpr holds)

theorem chosenOption_eq_none_iff :
    Activity.chosenOption world conditions targets = none ↔
      ∀ option, ¬ IsOption world conditions targets option := by
  have asked : ∀ pair : String × String,
      (decide (pair.1 ≠ "") && World.holds world pair.1) = false ↔
        ¬ (pair.1 ≠ "" ∧ World.holds world pair.1 = true) := by
    intro pair
    rw [← Bool.not_eq_true, Bool.and_eq_true, decide_eq_true_eq]
  simp only [Activity.chosenOption, List.findIdx?_eq_none_iff, asked]
  constructor
  · intro untaken option isOption
    exact untaken _ (List.getElem_mem isOption.lt_length_zip)
      ((isOption_iff isOption.lt_length_zip).mp isOption)
  · intro untaken pair member holds
    obtain ⟨option, inRange, rfl⟩ := List.getElem_of_mem member
    exact untaken option ((isOption_iff inRange).mpr holds)

end Options

/-! ## Visits to Branches -/

/-- A Branch goes to the target of the option it took, if that has a name. -/
theorem Instance.successor?_of_branch {inst : Instance} {conditions targets : List String}
    {chosen : Option Nat} (activity : inst.activity = .branch conditions targets chosen) :
    inst.successor? = (nonEmpty? (chosen.bind (targets[·]?))).or inst.next? := by
  rw [successor?, activity]
  rfl

theorem Activity.exists_of_kind_branch {activity : Activity} {conditions targets : List String}
    (kind : activity.kind = .branch conditions targets) :
    ∃ chosen, activity = .branch conditions targets chosen := by
  cases activity with
  | branch _ _ chosen =>
      cases kind
      exact ⟨chosen, rfl⟩
  | _ => cases kind

/-- The visit of a Branch ends with the next tick, which leads where the Branch has decided. -/
theorem Run.Sound.departs_of_branch {σ : Type} [World σ] {run : Run} (sound : run.Sound)
    {inst : Instance} {conditions targets : List String} (current : run.level.current? = some inst)
    (kind : inst.activity.kind = .branch conditions targets) (seconds : Float32)
    (now : Option σ) :
    ∃ departure, run.departure? seconds now = some departure ∧
      run.level.current = some departure.index ∧
      departure.destination = run.level.onward inst.successor? ∧
      (run.advance seconds now).1.level.current = departure.destination.entered? := by
  obtain ⟨index, inControl, found⟩ := Option.bind_eq_some_iff.mp current
  have immediate : inst.node.isImmediate now.isSome = true := by
    simp only [Node.isImmediate, show inst.node.kind = .branch conditions targets from kind]
  obtain ⟨departure, departed, goesTo, _⟩ :=
    (sound.tickStep seconds now).departed_of_isImmediate inControl found immediate
  obtain ⟨other, currentOther, rfl⟩ := departure_of_departure? departed
  cases inControl.symm.trans currentOther
  obtain ⟨chosen, activity⟩ := Activity.exists_of_kind_branch kind
  have unchanged : inst.changed (·.work seconds now |>.1) = inst := by
    rcases inst with ⟨id, nextId, _⟩
    cases activity
    rfl
  have worked := Level.getElem?_worked seconds now index index run.level
  rw [found, Option.map_some, if_pos rfl, unchanged] at worked
  have left : (run.level.left seconds now index).instances[index]? = some inst := by
    rw [Level.left, Level.instances_leave, worked]
  have returns : (run.level.left seconds now index).returns = run.level.returns := by
    rw [Level.left, Level.returns_leave worked, activity]
    rfl
  have destination := (sound.level.left inControl seconds now).destination_eq_onward index
  rw [Level.successor?, left, Option.bind_some] at destination
  refine ⟨_, departed, inControl, destination.trans ?_, goesTo⟩
  exact Level.onward_congr (Level.graph_left seconds now _ _) (congrArg _ returns) _

namespace Session

variable {σ : Type} [World σ] (world : Option σ) (id : RunId) (graph : Graph)

/-- What a Branch decided as it was entered. -/
def Decided (before _later : List (Operation σ)) (nested : Run) : Prop :=
  ∀ inst conditions targets, nested.level.current? = some inst →
    inst.activity.kind = .branch conditions targets →
      inst.activity = .branch conditions targets
        ((after world id graph before).world.bind fun entered =>
          Activity.chosenOption entered conditions targets)

variable {world id graph}

theorem keptInVisits_decided : KeptInVisits world id graph (Decided world id graph) where
  enters := by
    intro before nested _ entered inst conditions targets current kind
    obtain @⟨level, index, sound, wins⟩ := entered
    obtain ⟨given, found⟩ := sound.instance_of_isWinner wins
    rw [Run.level_enter, Level.current?_enter found, Option.some.injEq] at current
    subst current
    obtain ⟨chosen, activity⟩ :=
      Activity.exists_of_kind_branch ((Activity.kind_enter _ given.activity).symm.trans kind)
    simp only [Instance.changed, activity, Activity.enter]
  tick := by
    intro before later nested seconds member decided running now stays inst conditions targets
      current kind
    -- The visit of a Branch does not outlast a tick.
    have sound := (sound world id graph (before ++ later)).of_mem_chain member
    have step := sound.tickStep seconds now
    rw [stays] at step
    have sameNode := Level.currentNode?_congr step.eq_of_none.1 step.graph_eq
    have isNode := (step.sound sound.level).currentNode?_eq current
    obtain ⟨given, inControl, node⟩ := sound.level.exists_current? (sameNode.symm.trans isNode)
    have sameKind := (congrArg Node.kind node).trans kind
    obtain ⟨departure, departed, _⟩ := sound.departs_of_branch inControl sameKind seconds now
    cases stays.symm.trans departed
  signal := by
    intro before later trigger decided inst conditions targets current kind
    have kept := (history world id graph (before ++ later)).waitKept
    rw [Run.level_signal, kept.current?_signal] at current
    obtain ⟨given, inControl, same⟩ := Option.map_eq_some_iff.mp current
    have unreached : given = inst := by
      split at same
      next waits =>
        subst same
        obtain ⟨chosen, activity⟩ := Activity.exists_of_kind_branch
          ((Activity.kind_signalled given.activity).symm.trans kind)
        rw [activity] at waits
        cases waits
      · exact same
    exact decided inst conditions targets (unreached ▸ inControl) kind
  unheard := fun _ _ decided => decided
  change := fun _ _ decided => decided

/-- Where a Branch leads when its visit is over is decided by what the world answered as the visit
began: to the target of the first option that held, if that target has a name, and to the node that
follows in the graph otherwise. Without a world no option is taken. -/
theorem branches_take_first_option (operations : List (Operation σ)) {nested : Run}
    {inst : Instance} {conditions targets : List String}
    (member : nested ∈ (after world id graph operations).run.chain)
    (current : nested.level.current? = some inst)
    (kind : inst.activity.kind = .branch conditions targets) :
    (∃ before later, operations = before ++ later ∧
      Since world id graph before operations
        (·.InVisit nested.level.id nested.level.enters) ∧
      ((after world id graph before).world = none → inst.successor? = inst.next?) ∧
      ∀ entered, (after world id graph before).world = some entered →
        (∀ option target, IsFirstOption entered conditions targets option →
          targets[option]? = some target →
          inst.successor? = if target = "" then inst.next? else some target) ∧
        ((∀ option, ¬ IsOption entered conditions targets option) →
          inst.successor? = inst.next?)) ∧
    ∀ (seconds : Float32) (now : Option σ), ∃ departure,
      nested.departure? seconds now = some departure ∧
      nested.level.current = some departure.index ∧
      departure.destination = nested.level.onward inst.successor? ∧
      (nested.advance seconds now).1.level.current = departure.destination.entered? := by
  have sound := (sound world id graph operations).of_mem_chain member
  obtain ⟨index, inControl, _⟩ := Option.bind_eq_some_iff.mp current
  obtain ⟨before, later, split, since, decided⟩ := keptInVisits_decided.exists_beginning operations
    member (Level.isFinished_of_current inControl)
  have activity := decided inst conditions targets current kind
  refine ⟨⟨before, later, split, since, fun nowhere => ?_, fun entered known => ⟨?_, ?_⟩⟩,
    sound.departs_of_branch current kind⟩
  · rw [Instance.successor?_of_branch activity, nowhere]
    rfl
  · intro option target first atOption
    rw [Instance.successor?_of_branch activity, known, Option.bind_some,
      chosenOption_eq_some_iff.mpr first, Option.bind_some, atOption]
    by_cases unnamed : target = ""
    · rw [if_pos unnamed, unnamed]
      rfl
    · rw [if_neg unnamed, nonEmpty?, Option.filter_some, if_pos (decide_eq_true unnamed)]
      rfl
  · intro untaken
    rw [Instance.successor?_of_branch activity, known, Option.bind_some,
      chosenOption_eq_none_iff.mpr untaken]
    rfl

end Session

/-- A Branch with an option without a condition, and two options that lead elsewhere if `open`
holds. -/
def Graph.crossroads : Graph :=
  ⟨"crossroads",
    [(Node.branch "fork"
        [("", "first"), ("open", "second"), ("open", "third")]).followedBy "onward"],
    []⟩

/-- A world where `open` holds. -/
def ScriptedWorld.opened : ScriptedWorld :=
  ofScript (Script.empty.withCondition "open")

namespace Session

/-- The condition no longer holds when the choice takes effect. -/
theorem branches_take_first_option_crossroads :
    let session := after (some ScriptedWorld.opened) (.outermost 0) Graph.crossroads
      [.change (ScriptedWorld.setCondition "open" false)]
    ∃ inst, session.run.level.current? = some inst ∧ inst.successor? = some "second" := by
  intro session
  have atFork : session.run.level.current = some 0 := by decide +kernel
  obtain ⟨inst, _, current, node⟩ :=
    exists_current (some ScriptedWorld.opened) (.outermost 0) _ atFork rfl
  refine ⟨inst, current, ?_⟩
  have kind := congrArg Node.kind node
  obtain ⟨⟨before, later, split, since, _, choice⟩, _⟩ :=
    branches_take_first_option [.change (ScriptedWorld.setCondition "open" false)]
      (Run.mem_chain_self session.run) current kind
  have begun : (begin (some ScriptedWorld.opened) (.outermost 0) Graph.crossroads).InVisit
      session.run.level.id session.run.level.enters :=
    inVisit_of_mem (Run.mem_chain_self session.run) (Level.isFinished_of_current atFork)
  obtain rfl : before = [] := List.prefix_nil.mp ((since [] (List.nil_prefix)).mp begun)
  have first : IsFirstOption ScriptedWorld.opened ["", "open", "open"]
      ["first", "second", "third"] 1 := chosenOption_eq_some_iff.mp (by decide +kernel)
  exact (choice ScriptedWorld.opened rfl).1 1 "second" first rfl

end Session

end SceneFlow
