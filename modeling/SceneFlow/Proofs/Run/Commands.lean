import Mathlib.Data.List.Induction
import SceneFlow.Player
import SceneFlow.Proofs.Run.Brackets

/-!
# Commands and visits

Only ticks issue commands, and each of them one at most: that of the node which has control in the
innermost run. A Dialogue node commands in the first tick of a visit that its sequence be played, an
Objective node changes its objective in the only tick of a visit, and no other node commands
anything. So the commands of a run are those of its visits, one for each, in the order of the visits
and with the visits of nested runs among those of the run around them.
-/

set_option autoImplicit false

namespace SceneFlow

/-! ## Stays -/

/-- What a node of this kind has to command in each visit. -/
def NodeKind.command? {γ : Type} : NodeKind γ → Option Command
  | .dialogue (some name) _ => some (.play name)
  | .objective goal action =>
      if goal = "" then none
      else
        match action with
        | .activate => some (.activate goal)
        | .complete => some (.complete goal)
  | _ => none

/-- A visit of a node that hosts no run. -/
structure Stay where
  run : RunId
  /-- The number of the visit among those of its run, counted from one. -/
  number : Nat
  node : String
  type : NodeType
  command : Option Command
deriving DecidableEq

/-- Where the visit stands among all visits of all runs that are nested in one another. -/
def Stay.place (stay : Stay) : List Nat :=
  stay.run.visits ++ [stay.number]

/-- The visit is reported to have begun, as the one of its run that its number says. -/
def Stay.IsReported (stay : Stay) (events : List Event) : Prop :=
  ∃ before after tick,
    Run.entries stay.run events = before ++ .nodeEntered stay.node stay.type tick :: after ∧
      before.length + 1 = stay.number

def Level.stay? (level : Level) : Option Stay :=
  level.current.bind fun index =>
    level.graph.named[index]?.map fun node =>
      ⟨level.id, level.enters, node.id, node.type, node.kind.command?⟩

namespace Run

/-- The visit that the next tick is spent on; none if the innermost run is over. -/
def stay? : Run → Option Stay
  | .alone level => level.stay?
  | .hosting _ inner => inner.stay?

/-- The place of the last visit that was begun in the innermost run. -/
def place : Run → List Nat
  | .alone level => level.id.visits ++ [level.enters]
  | .hosting _ inner => inner.place

end Run

namespace Session

variable {σ : Type} [World σ]

/-- What there is to tell of each operation from here on, in order. -/
def gather {α : Type} (tell? : Session σ → Operation σ → Option α) (session : Session σ) :
    List (Operation σ) → List α
  | [] => []
  | operation :: rest =>
      (tell? session operation).toList ++ (session.perform operation).gather tell? rest

/-- The command that an operation makes the run issue. Without a world there is none. -/
def issued? (session : Session σ) : Operation σ → Option Command
  | .tick _ => session.world.bind fun _ => session.run.command?
  | .signal _ | .change _ => none

/-- The visit that an operation is spent on. Only ticks are. -/
def spentOn? (session : Session σ) : Operation σ → Option Stay
  | .tick _ => session.run.stay?
  | .signal _ | .change _ => none

/-- The commands that the run issues from here on. -/
def commands (session : Session σ) (operations : List (Operation σ)) : List Command :=
  session.gather issued? operations

/-- The visits that the ticks from here on are spent on, one for each tick that comes to a node. -/
def ticked (session : Session σ) (operations : List (Operation σ)) : List Stay :=
  session.gather spentOn? operations

end Session

/-! ## Activities -/

namespace Activity

variable {σ : Type} [World σ]

/-- At the begin of a visit nothing has been commanded yet. -/
theorem command?_enter (world : Option σ) (activity : Activity) :
    (activity.enter world).command? = activity.kind.command? := by
  cases activity with
  | dialogue name waits started => cases name <;> rfl
  | _ => rfl

/-- A visit that goes on has commanded all it has to. -/
theorem command?_work {seconds : Float32} {world : σ} {activity : Activity}
    (working : ¬ (activity.work seconds (some world)).2 = true) :
    (activity.work seconds (some world)).1.command? = none := by
  cases activity with
  | dialogue name waits started =>
      cases name with
      | none => exact absurd rfl working
      | some sequenceName => rfl
  | delay | waitForTrigger => rfl
  | _ => exact absurd rfl working

theorem done_of_objective {activity : Activity} (objective : activity.kind.type = .objective)
    (seconds : Float32) (world : Option σ) : (activity.work seconds world).2 = true := by
  cases activity with
  | objective => rfl
  | _ => cases objective

theorem command?_signalled (activity : Activity) :
    activity.signalled.command? = activity.command? := by
  cases activity <;> rfl

end Activity

namespace Level

variable {level : Level} {index : Nat}

theorem Sound.stay?_eq (sound : level.Sound) (current : level.current = some index)
    {inst : Instance} (found : level.instances[index]? = some inst) :
    level.stay? =
      some ⟨level.id, level.enters, inst.id, inst.type, inst.activity.kind.command?⟩ := by
  rw [stay?, current, Option.bind_some, sound.named_of_instance found]
  rfl

theorem stay?_of_current_none (isOver : level.current = none) : level.stay? = none := by
  rw [stay?, isOver]
  rfl

theorem stay?_signal (trigger : String) (level : Level) :
    (level.signal trigger).1.stay? = level.stay? := by
  obtain ⟨instances, whole⟩ := signal_eq trigger level
  rw [whole]
  rfl

theorem command?_signal (trigger : String) (level : Level) :
    (level.signal trigger).1.current?.bind (·.activity.command?) =
      level.current?.bind (·.activity.command?) := by
  simp only [current?, current_signal]
  cases level.current with
  | none => rfl
  | some index =>
      rw [Option.bind_some, Option.bind_some, getElem?_signal]
      cases level.instances[index]? with
      | none => rfl
      | some inst =>
          rw [Option.map_some, Option.bind_some, Option.bind_some]
          split
          · exact inst.activity.command?_signalled
          · rfl

end Level

namespace Run

variable {σ : Type} [World σ]

/-! ## The innermost run -/

theorem Sound.stay?_of_isFinished {run : Run} (sound : run.Sound)
    (isOver : run.isFinished = true) : run.stay? = none := by
  cases sound with
  | alone => exact Level.stay?_of_current_none (Option.isNone_iff_eq_none.mp isOver)
  | hosting sound current =>
      exact absurd ((Level.isFinished_of_current current).symm.trans isOver) nofun

theorem Sound.running_of_stay? {run : Run} (sound : run.Sound) {stay : Stay}
    (stays : run.stay? = some stay) : run.isFinished = false :=
  Bool.eq_false_iff.mpr fun isOver =>
    absurd ((sound.stay?_of_isFinished isOver).symm.trans stays) nofun

theorem place_of_stay? {run : Run} {stay : Stay} (stays : run.stay? = some stay) :
    stay.place = run.place := by
  induction run with
  | alone level =>
      obtain ⟨index, _, atIndex⟩ := Option.bind_eq_some_iff.mp stays
      obtain ⟨node, _, rfl⟩ := Option.map_eq_some_iff.mp atIndex
      rfl
  | hosting level inner ih => exact ih stays

theorem Sound.command?_of_hosting {level : Level} {inner : Run}
    (sound : (Run.hosting level inner).Sound) :
    (Run.hosting level inner).command? = inner.command? := by
  cases sound with
  | hosting sound current =>
      rw [command?, Level.isFinished_of_current current]
      rfl

theorem Sound.command?_of_stay?_none {run : Run} (sound : run.Sound) (idle : run.stay? = none) :
    run.command? = none := by
  induction sound with
  | @alone level sound free =>
      cases current : level.current with
      | none => simp only [command?, Level.current?, current, Option.bind_none]
      | some index =>
          obtain ⟨inst, found⟩ := sound.instance_of_current current
          have stays := sound.stay?_eq current found
          rw [show level.stay? = none from idle] at stays
          cases stays
  | hosting sound current hosted identity within ih =>
      rw [(Sound.hosting sound current hosted identity within).command?_of_hosting]
      exact ih idle

/-- The visits of a nested run come at the place of the visit that hosts it. -/
theorem Sound.place_eq {run : Run} (sound : run.Sound) :
    ∃ rest, run.place = run.level.id.visits ++ run.level.enters :: rest := by
  induction sound with
  | alone sound free => exact ⟨[], rfl⟩
  | hosting sound current hosted identity within ih =>
      obtain ⟨rest, deeper⟩ := ih
      rw [identity, RunId.nested, List.append_assoc] at deeper
      exact ⟨_, deeper⟩

theorem place_lt_place {front before after : List Nat} {visit : Nat} {place next : List Nat}
    (earlier : place = front ++ visit :: before) (later : next = front ++ (visit + 1) :: after) :
    place < next := by
  rw [earlier, later]
  exact List.append_left_lt (List.cons_lt_cons_iff.mpr (.inl (Nat.lt_succ_self visit)))

/-! ## Entering -/

/-- No visit of the run in progress has commanded anything yet. -/
def Fresh (run : Run) : Prop :=
  run.command? = run.stay?.bind (·.command)

theorem fresh_of_current_none {level : Level} (isOver : level.current = none) :
    (Run.alone level).Fresh := by
  have idle : (Run.alone level).stay? = none := Level.stay?_of_current_none isOver
  simp only [Fresh, idle, command?, Level.current?, isOver, Option.bind_none]

mutual

theorem fresh_start (world : Option σ) (id : RunId) (graph : Graph) :
    (start world id graph).1.Fresh := by
  match found : graph.startIndex? with
  | none =>
      rw [start_of_none found]
      exact fresh_of_current_none rfl
  | some index =>
      rw [start_of_some found]
      exact fresh_enter world index (Level.ofGraph id graph) (Level.sound_ofGraph id graph)
        (Graph.isWinner_of_startIndex? found)
termination_by 2 * graph.nesting + 1
decreasing_by
  simp only [Level.ofGraph]
  omega

theorem fresh_enter (world : Option σ) (index : Nat) (level : Level) (sound : level.Sound)
    (wins : level.graph.IsWinner index) : (enter world index level).1.Fresh := by
  match hosted : level.graph.nestedAt? index with
  | none =>
      obtain ⟨inst, found⟩ := sound.instance_of_isWinner wins
      have entered := Level.getElem?_enter world index index level
      have current := Level.current_enter world index level
      rw [found, Option.map_some, if_pos rfl] at entered
      have stays := (sound.enter wins world).stay?_eq current entered
      rw [enter_of_none hosted]
      change (level.enter world index).current?.bind (·.activity.command?) =
        (level.enter world index).stay?.bind (·.command)
      rw [stays, Level.current?, current, Option.bind_some, Option.bind_some, entered,
        Option.bind_some]
      simp only [Instance.changed, Activity.command?_enter, Activity.kind_enter]
  | some graph =>
      have inside := sound_enter world index level sound wins
      have started := fresh_start world (level.id.nested (level.enters + 1)) graph
      rw [enter_hosting hosted] at inside ⊢
      exact inside.command?_of_hosting.trans started
termination_by 2 * level.graph.nesting
decreasing_by
  have := Graph.nesting_lt_of_nestedAt? hosted
  omega

end

/-! ## Ticks -/

theorem place_enter (world : Option σ) (index : Nat) {level : Level} (sound : level.Sound)
    (wins : level.graph.IsWinner index) :
    ∃ rest, (enter world index level).1.place =
      level.id.visits ++ (level.enters + 1) :: rest := by
  obtain ⟨rest, entered⟩ := (sound_enter world index level sound wins).place_eq
  rw [level_enter, Level.id_enter, Level.enters_enter] at entered
  exact ⟨rest, entered⟩

theorem moveOn_fresh_or_over {level : Level} {index : Nat} (sound : level.Sound)
    (current : level.current = some index) (world : Option σ) :
    (moveOn world index level).1.isFinished = true ∨
      (moveOn world index level).1.Fresh ∧
        ∃ rest, (moveOn world index level).1.place =
          level.id.visits ++ (level.enters + 1) :: rest := by
  obtain ⟨next, left, sound, wins, sameId, sameEnters, entered⟩ | ⟨last, isOver, ended⟩ :=
    moveOn_enters_or_ends sound current world
  · rw [entered, ← sameId, ← sameEnters]
    exact .inr ⟨fresh_enter world next left sound wins, place_enter world next sound wins⟩
  · rw [ended]
    exact .inl (Option.isNone_iff_eq_none.mpr isOver)

/-- A tick ends the run, or goes on with a visit that has nothing left to command, or begins a visit
that comes later than all before it. -/
theorem Advances.stay_cases {seconds : Float32} {world : σ} {run after : Run}
    {departure : Option Departure} {events : List Event}
    (step : Advances seconds (some world) run departure after events) :
    after.isFinished = true ∨
      (after.stay? = run.stay? ∧ after.place = run.place ∧ after.command? = none ∧
        ∀ stay, run.stay? = some stay → stay.type ≠ .objective) ∨
      (after.Fresh ∧ run.place < after.place) := by
  induction step with
  | idle sound isOver => exact .inl (Option.isNone_iff_eq_none.mpr isOver)
  | @stay level index inst sound current found free working =>
      refine .inr (.inl ⟨rfl, rfl, ?_, ?_⟩)
      · have worked := Level.getElem?_worked seconds (some world) index index level
        rw [found, Option.map_some, if_pos rfl] at worked
        have idle := Activity.command?_work working
        change (level.worked seconds (some world) index).current?.bind (·.activity.command?) = none
        rw [Level.current?, show (level.worked seconds (some world) index).current = some index
          from current, Option.bind_some, worked, Option.bind_some]
        exact idle
      · intro stay stays objective
        change level.stay? = some stay at stays
        rw [sound.stay?_eq current found, Option.some.injEq] at stays
        subst stays
        exact working (Activity.done_of_objective objective seconds (some world))
  | @move level index inst sound current =>
      have worked := sound.worked seconds (some world) index
      rcases moveOn_fresh_or_over worked current (some world) with isOver | ⟨fresh, rest, next⟩
      · exact .inl isOver
      · exact .inr (.inr ⟨fresh, place_lt_place rfl next⟩)
  | @inside level inner after departure events index inst sound current found hosted identity step
      running ih =>
      have inside := (Advances.inside sound current found hosted identity step running).sound
      rw [inside.command?_of_hosting]
      rcases ih with isOver | same | later
      · exact absurd isOver running
      · exact .inr (.inl same)
      · refine .inr (.inr ⟨?_, later.2⟩)
        exact inside.command?_of_hosting.trans later.1
  | @outside level inner after departure events index inst sound current found hosted identity
      step isOver ih =>
      have worked := sound.worked seconds (some world) index
      -- The level's next visit comes after this one, and so after all visits of the run in it.
      obtain ⟨before, place⟩ := (Sound.hosting sound current hosted identity
        step.sound_before).place_eq
      rcases moveOn_fresh_or_over worked current (some world) with isOver | ⟨fresh, rest, next⟩
      · exact .inl isOver
      · exact .inr (.inr ⟨fresh, place_lt_place place next⟩)

/-! ## Signals -/

theorem stay?_signal (trigger : String) (run : Run) :
    (run.signal trigger).run.stay? = run.stay? := by
  cases run with
  | alone level => exact Level.stay?_signal trigger level
  | hosting => rfl

theorem place_signal (trigger : String) (run : Run) :
    (run.signal trigger).run.place = run.place := by
  cases run with
  | alone level =>
      change (level.signal trigger).1.id.visits ++ [(level.signal trigger).1.enters] = _
      rw [Level.id_signal, Level.enters_signal]
      rfl
  | hosting => rfl

theorem command?_signal (trigger : String) (run : Run) :
    (run.signal trigger).run.command? = run.command? := by
  cases run with
  | alone level => exact Level.command?_signal trigger level
  | hosting level inner =>
      have running := isFinished_signal trigger (.hosting level inner)
      change (if ((hosting level inner).signal trigger).run.isFinished then none
        else inner.command?) = _
      rw [running]
      rfl

/-! ## What was reported -/

theorem isReported_append {stay : Stay} {events : List Event} (reported : stay.IsReported events)
    (new : List Event) : stay.IsReported (events ++ new) := by
  obtain ⟨before, after, tick, entered, numbered⟩ := reported
  refine ⟨before, after ++ entries stay.run new, tick, ?_, numbered⟩
  rw [entries_append, entered, List.append_assoc, List.cons_append]

theorem Recorded.isReported {events : List Event} {run : Run} (recorded : Recorded events run)
    (sound : run.Sound) {stay : Stay} (stays : run.stay? = some stay) : stay.IsReported events := by
  induction sound with
  | @alone level sound free =>
      cases recorded with
      | alone chronicle housed =>
          obtain ⟨index, current, _⟩ := Option.bind_eq_some_iff.mp stays
          obtain ⟨inst, found⟩ := sound.instance_of_current current
          obtain ⟨before, tick, entered, numbered, _⟩ :=
            chronicle.entries_of_current current found
          have here := (sound.stay?_eq current found).symm.trans stays
          rw [Option.some.injEq] at here
          subst here
          exact ⟨before, [], tick, entered, numbered⟩
  | hosting sound current hosted identity within ih =>
      cases recorded with
      | hosting chronicle housed recorded => exact ih recorded stays

/-! ## What was commanded -/

theorem eraseDups_append_singleton {α : Type} [DecidableEq α] (list : List α) (last : α) :
    (list ++ [last]).eraseDups =
      if last ∈ list then list.eraseDups else list.eraseDups ++ [last] := by
  rw [List.eraseDups_append]
  by_cases member : last ∈ list
  · simp [List.removeAll, member]
  · simp [List.removeAll, member, List.eraseDups_cons]

/-- The commands of a run that has come so far after some ticks, spent on the visits given. -/
structure Commanded (ticked : List Stay) (issued : List Command) (run : Run) : Prop where
  distinct : (ticked.eraseDups.map Stay.place).Nodup
  issued : issued = ticked.eraseDups.filterMap (·.command)
  past : run.isFinished = false → ∀ stay ∈ ticked, stay.place < run.place ∨ run.stay? = some stay
  pending : run.command? = run.stay?.bind fun stay => if stay ∈ ticked then none else stay.command

/-- A fresh run has its command to issue, since its visit comes after all those before. -/
theorem Fresh.commanded {run : Run} (fresh : run.Fresh) (sound : run.Sound) {ticked : List Stay}
    {issued : List Command} (distinct : (ticked.eraseDups.map Stay.place).Nodup)
    (told : issued = ticked.eraseDups.filterMap (·.command))
    (before : run.isFinished = false → ∀ stay ∈ ticked, stay.place < run.place) :
    Commanded ticked issued run where
  distinct := distinct
  issued := told
  past running stay member := .inl (before running stay member)
  pending := by
    refine Eq.trans fresh ?_
    cases stays : run.stay? with
    | none => rfl
    | some stay =>
        have unticked : stay ∉ ticked := by
          intro member
          have earlier := before (sound.running_of_stay? stays) stay member
          rw [place_of_stay? stays] at earlier
          exact List.lt_irrefl _ earlier
        rw [Option.bind_some, Option.bind_some, if_neg unticked]

theorem Advances.running_before {seconds : Float32} {world : Option σ} {run after : Run}
    {departure : Option Departure} {events : List Event}
    (step : Advances seconds world run departure after events)
    (running : after.isFinished = false) : run.isFinished = false := by
  cases step with
  | idle => exact running
  | stay sound current => exact Level.isFinished_of_current current
  | move sound current => exact Level.isFinished_of_current current
  | inside sound current => exact Level.isFinished_of_current current
  | outside sound current => exact Level.isFinished_of_current current

section Tick

variable {ticked : List Stay} {issued : List Command} {run after : Run}

private theorem Commanded.distinct_and_issued (commanded : Commanded ticked issued run)
    (sound : run.Sound) :
    ((ticked ++ run.stay?.toList).eraseDups.map Stay.place).Nodup ∧
      issued ++ run.command?.toList =
        (ticked ++ run.stay?.toList).eraseDups.filterMap (·.command) := by
  have pending := commanded.pending
  cases stays : run.stay? with
  | none =>
      rw [stays, Option.bind_none] at pending
      rw [pending, Option.toList_none, Option.toList_none, List.append_nil, List.append_nil]
      exact ⟨commanded.distinct, commanded.issued⟩
  | some stay =>
      rw [stays, Option.bind_some] at pending
      rw [pending, Option.toList_some, eraseDups_append_singleton]
      by_cases again : stay ∈ ticked
      · rw [if_pos again, if_pos again, Option.toList_none, List.append_nil]
        exact ⟨commanded.distinct, commanded.issued⟩
      · rw [if_neg again, if_neg again, List.map_append, List.filterMap_append, commanded.issued]
        refine ⟨?_, ?_⟩
        · refine List.nodup_append.mpr
            ⟨commanded.distinct, List.nodup_cons.mpr ⟨nofun, List.nodup_nil⟩, ?_⟩
          intro place earlier other here same
          obtain ⟨before, member, rfl⟩ := List.mem_map.mp earlier
          have member : before ∈ ticked := List.mem_eraseDups.mp member
          have running := sound.running_of_stay? stays
          rw [List.mem_singleton.mp here, place_of_stay? stays] at same
          rcases commanded.past running before member with earlier | current
          · rw [same] at earlier
            exact List.lt_irrefl _ earlier
          · rw [stays, Option.some.injEq] at current
            exact again (current ▸ member)
        · cases command : stay.command <;> simp [command]

theorem Commanded.tick (commanded : Commanded ticked issued run) {seconds : Float32}
    {world : Option σ} {departure : Option Departure} {events : List Event}
    (step : Advances seconds world run departure after events) (known : world.isSome = true) :
    Commanded (ticked ++ run.stay?.toList) (issued ++ run.command?.toList) after := by
  obtain ⟨world, rfl⟩ := Option.isSome_iff_exists.mp known
  have told := commanded.distinct_and_issued step.sound_before
  have past : after.isFinished = false → ∀ stay ∈ ticked ++ run.stay?.toList,
      stay.place < run.place ∨ run.stay? = some stay := by
    intro running stay member
    rcases List.mem_append.mp member with earlier | current
    · exact commanded.past (step.running_before running) stay earlier
    · exact .inr (Option.mem_toList.mp current)
  -- A run that is over has no command left, a visit that goes on has issued its own, and the visit
  -- that has just begun has yet to issue it.
  rcases step.stay_cases with isOver | ⟨sameStay, samePlace, idle, _⟩ | ⟨fresh, later⟩
  · have noStay := step.sound.stay?_of_isFinished isOver
    refine ⟨told.1, told.2, fun running => absurd (isOver.symm.trans running) nofun, ?_⟩
    rw [step.sound.command?_of_stay?_none noStay, noStay, Option.bind_none]
  · refine ⟨told.1, told.2, ?_, ?_⟩
    · rw [sameStay, samePlace]
      exact past
    · rw [idle, sameStay]
      cases stays : run.stay? with
      | none => rfl
      | some stay => simp
  · refine fresh.commanded step.sound told.1 told.2 fun running stay member => ?_
    rcases past running stay member with earlier | current
    · exact List.lt_trans earlier later
    · rw [place_of_stay? current]
      exact later

theorem Commanded.signal (commanded : Commanded ticked issued run) (trigger : String) :
    Commanded ticked issued (run.signal trigger).run where
  distinct := commanded.distinct
  issued := commanded.issued
  past := by
    rw [isFinished_signal, place_signal, stay?_signal]
    exact commanded.past
  pending := by
    rw [command?_signal, stay?_signal]
    exact commanded.pending

end Tick

end Run

namespace Session

variable {σ : Type} [World σ]

theorem gather_append {α : Type} (tell? : Session σ → Operation σ → Option α)
    (session : Session σ) (operations : List (Operation σ)) (operation : Operation σ) :
    session.gather tell? (operations ++ [operation]) =
      session.gather tell? operations ++
        (tell? (operations.foldl perform session) operation).toList := by
  induction operations generalizing session with
  | nil => simp [gather]
  | cons first rest ih => simp [gather, ih]

theorem commands_congr {world world' : Option σ} {id id' : RunId} {graph graph' : Graph}
    (same : ∀ operations operation, (after world id graph operations).issued? operation =
      (after world' id' graph' operations).issued? operation) (operations : List (Operation σ)) :
    (begin world id graph).commands operations = (begin world' id' graph').commands operations := by
  induction operations using List.reverseRecOn with
  | nil => rfl
  | append_singleton operations operation ih =>
      rw [commands, commands, gather_append, gather_append]
      exact congrArg₂ (· ++ ·) ih (congrArg Option.toList (same operations operation))

/-- A world receives the commands that the run issues, and nothing else from it. -/
theorem world_perform (session : Session σ) (operation : Operation σ) :
    (session.perform operation).world =
      match operation with
      | .change become => session.world.map become
      | _ => session.world.map fun world =>
          (session.issued? operation).elim world (World.perform · world) := by
  cases operation with
  | tick seconds =>
      change session.world.map _ = _
      cases known : session.world with
      | none => rfl
      | some world =>
          simp only [issued?, known, Option.map_some, Option.bind_some]
          cases session.run.command? <;> rfl
  | signal trigger => cases known : session.world <;> simp [perform, issued?, known]
  | change become => rfl

section Commanded

variable (world : σ) (id : RunId) (graph : Graph)

theorem commanded (operations : List (Operation σ)) :
    Run.Commanded ((begin (some world) id graph).ticked operations)
      ((begin (some world) id graph).commands operations)
      (after (some world) id graph operations).run := by
  induction operations using List.reverseRecOn with
  | nil =>
      exact (Run.fresh_start (some world) id graph).commanded
        (Run.sound_start (some world) id graph) List.nodup_nil rfl nofun
  | append_singleton operations operation ih =>
      have sound := sound (some world) id graph operations
      have isSome := isSome_world (some world) id graph operations
      rw [ticked, commands, gather_append, gather_append, after_append]
      change Run.Commanded
        (_ ++ (spentOn? (after (some world) id graph operations) operation).toList)
        (_ ++ (issued? (after (some world) id graph operations) operation).toList) _
      cases operation with
      | tick seconds =>
          have step := sound.advances seconds ((after (some world) id graph operations).run.tick
            seconds (after (some world) id graph operations).world).world
          obtain ⟨now, known⟩ := Option.isSome_iff_exists.mp isSome
          simp only [spentOn?, issued?, known, Option.bind_some]
          exact ih.tick step (Option.isSome_map.trans isSome)
      | signal trigger =>
          simp only [spentOn?, issued?, Option.toList_none, List.append_nil]
          exact ih.signal trigger
      | change become =>
          simp only [spentOn?, issued?, Option.toList_none, List.append_nil]
          exact ih

theorem isReported_of_mem_ticked (operations : List (Operation σ)) {stay : Stay}
    (member : stay ∈ (begin (some world) id graph).ticked operations) :
    stay.IsReported (after (some world) id graph operations).events := by
  induction operations using List.reverseRecOn with
  | nil => cases member
  | append_singleton operations operation ih =>
      have sound := sound (some world) id graph operations
      have recorded := recorded (some world) id graph operations
      rw [ticked, gather_append] at member
      rw [after_append]
      rcases List.mem_append.mp member with earlier | now
      · have reported := ih earlier
        cases operation with
        | tick seconds => exact Run.isReported_append reported _
        | signal trigger => exact Run.isReported_append reported _
        | change become => exact reported
      · cases operation with
        | tick seconds =>
            exact Run.isReported_append (recorded.isReported sound (Option.mem_toList.mp now)) _
        | signal trigger => cases now
        | change become => cases now

end Commanded

/-- The commands of a session are those of the visits that its ticks were spent on, one for each
visit of a node that has something to command, in the order of the visits. A visit's command is
issued in the first tick of the visit, and a visit of an Objective node has no other tick. The world
receives these commands, and apart from them a run does nothing to it, nor does giving a run up. -/
theorem commands_once_per_visit (world : σ) (id : RunId) (graph : Graph)
    (operations : List (Operation σ)) :
    let started := begin (some world) id graph
    let session := after (some world) id graph operations
    let ticked := started.ticked operations
    started.commands operations = ticked.eraseDups.filterMap (·.command) ∧
    (ticked.eraseDups.map fun stay => (stay.run, stay.number)).Nodup ∧
    (∀ stay ∈ ticked, stay.IsReported session.events) ∧
    (∀ seconds : Float32, session.issued? (.tick seconds) =
      session.run.stay?.bind fun stay => if stay ∈ ticked then none else stay.command) ∧
    (∀ stay, session.run.stay? = some stay → stay.type = .objective →
      ∀ seconds : Float32, (session.perform (.tick seconds)).run.stay? ≠ some stay) ∧
    (session.run.isFinished = true → session.run.stay? = none) ∧
    started.world = some world ∧
    (∀ operation, (session.perform operation).world =
      match operation with
      | .change become => session.world.map become
      | _ => session.world.map fun now =>
          (session.issued? operation).elim now (World.perform · now)) ∧
    (∀ player : Player σ, player.stop.world = player.world) := by
  intro started session ticked
  have commanded : Run.Commanded ticked (started.commands operations) session.run :=
    commanded world id graph operations
  have sound : session.run.Sound := Session.sound (some world) id graph operations
  have isSome : session.world.isSome = true := isSome_world (some world) id graph operations
  obtain ⟨now, known⟩ := Option.isSome_iff_exists.mp isSome
  refine ⟨commanded.issued, ?_, ?_, ?_, ?_, ?_, rfl, session.world_perform, Player.world_stop⟩
  · have places := commanded.distinct
    have same : Stay.place =
        (fun visit : RunId × Nat => visit.1.visits ++ [visit.2]) ∘ fun stay =>
          (stay.run, stay.number) := rfl
    rw [same, ← List.map_map] at places
    exact List.Pairwise.of_map _ (fun _ _ apart equal => apart (by rw [equal])) places
  · exact fun stay member => isReported_of_mem_ticked world id graph operations member
  · intro seconds
    rw [issued?, known, Option.bind_some]
    exact commanded.pending
  · intro stay stays objective seconds again
    have step := sound.advances seconds (session.run.tick seconds session.world).world
    have knownThen : (session.run.tick seconds session.world).world.isSome = true :=
      Option.isSome_map.trans isSome
    obtain ⟨later, becomes⟩ := Option.isSome_iff_exists.mp knownThen
    have ended : (session.run.advance seconds (some later)).1.stay? = some stay := by
      rw [← becomes]
      exact again
    rw [becomes] at step
    rcases step.stay_cases with isOver | ⟨_, _, _, other⟩ | ⟨_, place⟩
    · exact absurd ((step.sound.stay?_of_isFinished isOver).symm.trans ended) nofun
    · exact other stay stays objective
    · rw [← Run.place_of_stay? stays, ← Run.place_of_stay? ended] at place
      exact List.lt_irrefl _ place
  · exact sound.stay?_of_isFinished

end Session

end SceneFlow
