import SceneFlow.Proofs.Members
import SceneFlow.Proofs.Run.Session
import SceneFlow.World.Scripted

/-!
# The history of a scripted world

All that a scripted world says can be told from its script and from what has been done with it. The
journal and what was taken from it are the commands; an objective and a condition are what was last
said of them; and dialogue plays that was played for some time, neither played again nor skipped
since, and not used up by the seconds that passed since.
-/

set_option autoImplicit false

namespace SceneFlow

namespace ScriptedWorld

/-! ## What a command changes -/

section

variable (command : Command) (sequence : String) (world : ScriptedWorld)

theorem perform_play : World.perform (.play sequence) world =
    { world with
      journal := world.journal ++ [.play sequence]
      remaining :=
        if 0 < world.script.duration sequence then
          world.remaining.insert sequence (world.script.duration sequence)
        else world.remaining } := by
  simp only [World.perform, perform]
  split <;> rfl

@[simp] theorem script_perform : (World.perform command world).script = world.script := by
  cases command with
  | play sequence => rw [perform_play]
  | activate | complete => rfl

@[simp] theorem journal_perform :
    (World.perform command world).journal = world.journal ++ [command] := by
  cases command with
  | play sequence => rw [perform_play]
  | activate | complete => rfl

@[simp] theorem conditions_perform :
    (World.perform command world).conditions = world.conditions := by
  cases command with
  | play sequence => rw [perform_play]
  | activate | complete => rfl

end

/-! ## What is done with a world -/

/-- What a run and its host do with a scripted world. -/
inductive Step where
  | receive (command : Command)
  | advance (seconds : Float32)
  | skip (sequence : String)
  | set (condition : String) (value : Bool)
  | takeJournal

/-- A world in use, with the commands that were taken from its journal, the oldest first. -/
structure Handled where
  world : ScriptedWorld
  taken : List Command

namespace Handled

def perform (handled : Handled) : Step → Handled
  | .receive command => { handled with world := World.perform command handled.world }
  | .advance seconds => { handled with world := handled.world.advance seconds }
  | .skip sequence => { handled with world := handled.world.skip sequence }
  | .set condition value => { handled with world := handled.world.setCondition condition value }
  | .takeJournal =>
      let (commands, world) := handled.world.takeJournal
      ⟨world, handled.taken ++ commands⟩

def after (script : Script) (steps : List Step) : Handled :=
  steps.foldl perform ⟨ofScript script, []⟩

theorem after_append (script : Script) (steps : List Step) (step : Step) :
    after script (steps ++ [step]) = (after script steps).perform step :=
  List.foldl_append

theorem script_after (script : Script) (steps : List Step) :
    (after script steps).world.script = script := by
  induction steps using List.reverseRecOn with
  | nil => rfl
  | append_singleton steps step ih =>
      rw [after_append]
      cases step with
      | receive command => exact (script_perform command _).trans ih
      | _ => exact ih

end Handled

/-! ## What the history says -/

/-- The commands among the steps, in order. -/
def commands (steps : List Step) : List Command :=
  steps.filterMap fun
    | .receive command => some command
    | _ => none

/-- What a command says of an objective. -/
def stateOf? (objective : String) : Command → Option ObjectiveState
  | .play _ => none
  | .activate other => if other = objective then some .active else none
  | .complete other => if other = objective then some .completed else none

/-- What a step says of a condition. -/
def settingOf? (condition : String) : Step → Option Bool
  | .set other value => if other = condition then some value else none
  | _ => none

/-- What a step leaves of some seconds. -/
def Step.leaves (left : Float32) : Step → Float32
  | .advance seconds => left - seconds
  | _ => left

def timeLeft (seconds : Float32) (steps : List Step) : Float32 :=
  steps.foldl Step.leaves seconds

/-- The sequence was played for some time, `later` being the steps since it was last played, and
nothing has put an end to it. -/
structure PlaysSince (script : Script) (sequence : String) (steps later : List Step) : Prop where
  played : ∃ earlier, steps = earlier ++ .receive (.play sequence) :: later
  last : .receive (.play sequence) ∉ later
  lasts : 0 < script.duration sequence
  unskipped : .skip sequence ∉ later
  unspent : ∀ {front rest : List Step} {seconds : Float32},
    later = front ++ .advance seconds :: rest →
      0 < timeLeft (script.duration sequence) (front ++ [.advance seconds])

/-! ## Journal, objectives and conditions -/

section

variable (script : Script) (steps : List Step)

theorem taken_append_journal :
    (Handled.after script steps).taken ++ (Handled.after script steps).world.journal =
      commands steps := by
  induction steps using List.reverseRecOn with
  | nil => rfl
  | append_singleton steps step ih =>
      rw [Handled.after_append, commands, List.filterMap_append, ← commands, ← ih]
      cases step with
      | receive command => simp [Handled.perform]
      | takeJournal => simp [Handled.perform, takeJournal]
      | advance | skip | set => simp [Handled.perform, advance, skip, setCondition]

theorem objectiveState_perform (objective : String) (command : Command) (world : ScriptedWorld) :
    (World.perform command world).objectiveState objective =
      (stateOf? objective command).getD (world.objectiveState objective) := by
  cases command with
  | play sequence =>
      rw [perform_play]
      rfl
  | activate other | complete other =>
      simp only [World.perform, perform, objectiveState, stateOf?]
      by_cases same : other = objective
      · subst same
        rw [Members.value?_insert_self, if_pos rfl, Option.getD_some, Option.getD_some]
      · rw [Members.value?_insert_of_ne (Ne.symm same), if_neg same, Option.getD_none]

theorem objectiveState_after (objective : String) :
    (Handled.after script steps).world.objectiveState objective =
      ((commands steps).filterMap (stateOf? objective)).getLast?.getD .inactive := by
  induction steps using List.reverseRecOn with
  | nil => rfl
  | append_singleton steps step ih =>
      rw [Handled.after_append, commands, List.filterMap_append, List.filterMap_append, ← commands]
      cases step with
      | receive command =>
          rw [Handled.perform, objectiveState_perform, ih]
          cases said : stateOf? objective command <;> simp [said]
      | _ => exact ih.trans (by simp)

theorem holds_setCondition (condition other : String) (value : Bool) (world : ScriptedWorld) :
    World.holds (world.setCondition other value) condition =
      if other = condition then value else World.holds world condition := by
  change (world.setCondition other value).conditions.contains condition =
    if other = condition then value else world.conditions.contains condition
  cases value with
  | true =>
      simp only [setCondition, if_true]
      split <;> split <;> grind
  | false =>
      simp only [setCondition, Bool.false_eq_true, if_false]
      split <;> grind

theorem holds_after (condition : String) :
    World.holds (Handled.after script steps).world condition =
      (steps.filterMap (settingOf? condition)).getLast?.getD
        (script.conditions.contains condition) := by
  induction steps using List.reverseRecOn with
  | nil => rfl
  | append_singleton steps step ih =>
      rw [Handled.after_append, List.filterMap_append]
      cases step with
      | receive command =>
          rw [List.filterMap_cons_none rfl, List.filterMap_nil, List.append_nil, ← ih]
          exact congrArg (·.contains condition) (conditions_perform command _)
      | set other value =>
          rw [Handled.perform, holds_setCondition, ih]
          by_cases same : other = condition <;> simp [settingOf?, same]
      | _ =>
          rw [List.filterMap_cons_none rfl, List.filterMap_nil, List.append_nil]
          exact ih

end

/-! ## Dialogue -/

section

variable {script : Script} {sequence : String} {steps later : List Step} {step : Step}

/-- A step that leaves a sequence playing, of which so many seconds remain. -/
def Step.Spares (sequence : String) (left : Float32) : Step → Prop
  | .receive command => command ≠ .play sequence
  | .advance seconds => 0 < left - seconds
  | .skip other => other ≠ sequence
  | .set _ _ => True
  | .takeJournal => True

theorem timeLeft_append (seconds : Float32) (steps : List Step) (step : Step) :
    timeLeft seconds (steps ++ [step]) = step.leaves (timeLeft seconds steps) :=
  List.foldl_append

theorem PlaysSince.append (plays : PlaysSince script sequence steps later)
    (spares : step.Spares sequence (timeLeft (script.duration sequence) later)) :
    PlaysSince script sequence (steps ++ [step]) (later ++ [step]) where
  played := by
    obtain ⟨earlier, rfl⟩ := plays.played
    exact ⟨earlier, List.append_assoc ..⟩
  last member := by
    rcases List.mem_append.mp member with before | now
    · exact plays.last before
    · cases List.mem_singleton.mp now
      exact spares rfl
  lasts := plays.lasts
  unskipped member := by
    rcases List.mem_append.mp member with before | now
    · exact plays.unskipped before
    · cases List.mem_singleton.mp now
      exact spares rfl
  unspent split := by
    rcases split_append_singleton split with ⟨rfl, rfl⟩ | ⟨_, _, before⟩
    · rw [timeLeft_append]
      exact spares
    · exact plays.unspent before

theorem PlaysSince.of_append
    (plays : PlaysSince script sequence (steps ++ [step]) (later ++ [step])) :
    PlaysSince script sequence steps later ∧
      step.Spares sequence (timeLeft (script.duration sequence) later) := by
  obtain ⟨earlier, split⟩ := plays.played
  rw [← List.cons_append, ← List.append_assoc] at split
  have before : PlaysSince script sequence steps later :=
    { played := ⟨earlier, List.append_cancel_right split⟩
      last := fun member => plays.last (List.mem_append_left _ member)
      lasts := plays.lasts
      unskipped := fun member => plays.unskipped (List.mem_append_left _ member)
      unspent := fun {front rest seconds} split => by
        have later : later ++ [step] = front ++ .advance seconds :: (rest ++ [step]) := by
          simp [split]
        exact plays.unspent later }
  refine ⟨before, ?_⟩
  cases step with
  | receive command =>
      rintro rfl
      exact plays.last (by simp)
  | advance seconds =>
      have unspent := plays.unspent (show _ = later ++ .advance seconds :: [] from rfl)
      rwa [timeLeft_append] at unspent
  | skip other =>
      rintro rfl
      exact plays.unskipped (by simp)
  | set | takeJournal => trivial

theorem PlaysSince.timeLeft_pos (plays : PlaysSince script sequence steps later) :
    0 < timeLeft (script.duration sequence) later := by
  obtain ⟨earlier, rfl⟩ := plays.played
  induction later using List.reverseRecOn with
  | nil => exact plays.lasts
  | append_singleton later step ih =>
      rw [← List.cons_append, ← List.append_assoc] at plays
      obtain ⟨before, spares⟩ := plays.of_append
      rw [timeLeft_append]
      cases step with
      | advance seconds => exact spares
      | _ => exact ih before

theorem playsSince_last (lasts : 0 < script.duration sequence) :
    PlaysSince script sequence (steps ++ [.receive (.play sequence)]) [] where
  played := ⟨steps, rfl⟩
  last := List.not_mem_nil
  lasts := lasts
  unskipped := List.not_mem_nil
  unspent split := by simp at split

/-- A sequence plays if it was just played, or if it played before and was spared since. -/
theorem playsSince_append_iff : PlaysSince script sequence (steps ++ [step]) later ↔
    (step = .receive (.play sequence) ∧ later = [] ∧ 0 < script.duration sequence) ∨
      ∃ front, later = front ++ [step] ∧ PlaysSince script sequence steps front ∧
        step.Spares sequence (timeLeft (script.duration sequence) front) := by
  constructor
  · intro plays
    obtain ⟨earlier, split⟩ := plays.played
    rcases List.eq_nil_or_concat later with rfl | ⟨front, other, rfl⟩
    · obtain ⟨_, same⟩ := List.append_inj' split rfl
      exact .inl ⟨List.singleton_inj.mp same, rfl, plays.lasts⟩
    · rw [List.concat_eq_append, ← List.cons_append, ← List.append_assoc] at split
      obtain ⟨_, same⟩ := List.append_inj' split rfl
      rw [List.concat_eq_append, ← List.singleton_inj.mp same] at plays ⊢
      exact .inr ⟨front, rfl, plays.of_append⟩
  · rintro (⟨rfl, rfl, lasts⟩ | ⟨front, rfl, plays, spares⟩)
    · exact playsSince_last lasts
    · exact plays.append spares

theorem exists_playsSince_append {left : Float32} :
    (∃ later, PlaysSince script sequence (steps ++ [step]) later ∧
      timeLeft (script.duration sequence) later = left) ↔
      (step = .receive (.play sequence) ∧ 0 < script.duration sequence ∧
        script.duration sequence = left) ∨
      ∃ old, step.Spares sequence old ∧ step.leaves old = left ∧
        ∃ later, PlaysSince script sequence steps later ∧
          timeLeft (script.duration sequence) later = old := by
  constructor
  · rintro ⟨later, plays, rfl⟩
    rcases playsSince_append_iff.mp plays with ⟨rfl, rfl, lasts⟩ | ⟨front, rfl, plays, spares⟩
    · exact .inl ⟨rfl, lasts, rfl⟩
    · exact .inr ⟨_, spares, (timeLeft_append ..).symm, front, plays, rfl⟩
  · rintro (⟨rfl, lasts, rfl⟩ | ⟨_, spares, rfl, front, plays, rfl⟩)
    · exact ⟨[], playsSince_last lasts, rfl⟩
    · exact ⟨front ++ [step], plays.append spares, timeLeft_append ..⟩

theorem value?_remaining_perform (command : Command) (world : ScriptedWorld) :
    (World.perform command world).remaining.value? sequence =
      if command = .play sequence ∧ 0 < world.script.duration sequence then
        some (world.script.duration sequence)
      else world.remaining.value? sequence := by
  cases command with
  | play other =>
      rw [perform_play]
      by_cases same : other = sequence
      · subst same
        by_cases lasts : 0 < world.script.duration other
        · simp [lasts, Members.value?_insert_self]
        · simp [lasts]
      · by_cases lasts : 0 < world.script.duration other
        · simp [same, lasts, Members.value?_insert_of_ne (Ne.symm same)]
        · simp [same, lasts]
  | activate | complete => simp [World.perform, perform]

theorem value?_remaining_advance (seconds : Float32) (world : ScriptedWorld) :
    (world.advance seconds).remaining.value? sequence =
      ((world.remaining.value? sequence).map (· - seconds)).filter (0 < ·) := by
  rw [advance, Members.value?_filter, Members.value?_mapValues]

/-- A sequence is among those that play just if the history says so, and for just as long. -/
theorem value?_remaining_after {left : Float32} :
    (Handled.after script steps).world.remaining.value? sequence = some left ↔
      ∃ later, PlaysSince script sequence steps later ∧
        timeLeft (script.duration sequence) later = left := by
  induction steps using List.reverseRecOn generalizing left with
  | nil =>
      refine iff_of_false nofun ?_
      rintro ⟨later, plays, _⟩
      obtain ⟨earlier, split⟩ := plays.played
      simp at split
  | append_singleton steps step ih =>
      have same := Handled.script_after script steps
      rw [Handled.after_append, exists_playsSince_append]
      generalize Handled.after script steps = handled at ih same
      cases step with
      | receive command =>
          simp only [Handled.perform, value?_remaining_perform, same, Step.Spares, Step.leaves,
            Step.receive.injEq]
          by_cases again : command = .play sequence
          · by_cases lasts : 0 < script.duration sequence
            · simp [again, lasts]
            · simp only [again, lasts, and_false, if_false, false_and, ih, ne_eq,
                not_true_eq_false, exists_false, or_self, iff_false]
              rintro ⟨later, plays, _⟩
              exact lasts plays.lasts
          · simp [again, ih]
      | advance seconds =>
          simp only [Handled.perform, value?_remaining_advance, Step.Spares, Step.leaves, ← ih]
          cases handled.world.remaining.value? sequence with
          | none => simp
          | some old => grind
      | skip other =>
          simp only [Handled.perform, skip, Members.value?_erase, Step.Spares, Step.leaves, ← ih]
          grind
      | set | takeJournal =>
          simp only [Handled.perform, setCondition, takeJournal, Step.Spares, Step.leaves, ← ih]
          simp

end

/-- A number that is greater than another one is a number. -/
theorem isNaN_eq_false {least seconds : Float32} (less : least < seconds) :
    seconds.isNaN = false := by
  have less : (least.toModel.unpack.compare seconds.toModel.unpack == some .lt) = true :=
    of_decide_eq_true less
  change seconds.toModel.unpack.isNaN = false
  generalize seconds.toModel.unpack = upper at less ⊢
  generalize least.toModel.unpack = lower at less
  cases upper with
  | notANumber => cases lower <;> cases less
  | _ => rfl

/-- All that a scripted world says can be told from its script and the history of what was done
with it. -/
theorem replays_history (script : Script) (steps : List Step) :
    let handled := Handled.after script steps
    handled.taken ++ handled.world.journal = commands steps ∧
    (∀ objective, handled.world.objectiveState objective =
      ((commands steps).filterMap (stateOf? objective)).getLast?.getD .inactive) ∧
    (∀ condition, World.holds handled.world condition =
      (steps.filterMap (settingOf? condition)).getLast?.getD
        (script.conditions.contains condition)) ∧
    handled.world.playing.Pairwise (· < ·) ∧
    (∀ sequence, sequence ∈ handled.world.playing ↔
      ∃ later, PlaysSince script sequence steps later) ∧
    ∀ entry ∈ handled.world.remaining.entries, 0 < entry.2 ∧ entry.2.isNaN = false := by
  intro handled
  refine ⟨taken_append_journal script steps, objectiveState_after script steps,
    holds_after script steps, handled.world.remaining.names_ascending, ?_, ?_⟩
  · intro sequence
    simp only [playing, Members.mem_names_iff, handled, value?_remaining_after]
    simp
  · rintro ⟨sequence, left⟩ member
    obtain ⟨later, plays, rfl⟩ := value?_remaining_after.mp (Members.value?_eq_some_iff.mpr member)
    exact ⟨plays.timeLeft_pos, isNaN_eq_false plays.timeLeft_pos⟩

end ScriptedWorld

end SceneFlow
