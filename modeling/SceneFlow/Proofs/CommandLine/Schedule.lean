import SceneFlow.CommandLine.Playback
import SceneFlow.Proofs.Player.Endings

/-!
# Scheduled triggers

Playing a graph back makes calls to its player, and the signals among them are those of the script.
A trigger is signalled after as many ticks as its schedule says, but the schedule is looked at only
after a tick: what is due before the first tick is passed by.
-/

set_option autoImplicit false

namespace SceneFlow

/-- Whether a call is a tick. -/
def Call.isTick {σ : Type} : Call σ → Bool
  | .tick _ => true
  | _ => false

namespace Playback

/-! ## The calls of a playback -/

/-- The calls of one round: the world's time passes, the run ticks, its commands and events are
fetched, and the triggers that are due are signalled. -/
def callsOfTick (playback : Playback) : List (Call ScriptedWorld) :=
  [.change (ScriptedWorld.advance playback.seconds), .tick playback.seconds,
    .change (·.takeJournal.2), .drain playback.subscriber] ++
  (playback.script.triggersAt (playback.ticks + 1)).map .signal ++ [.drain playback.subscriber]

/-- The calls of all rounds that are played, no more than `limit`. -/
def calls : (limit : Nat) → Playback → List (Call ScriptedWorld)
  | 0, _ => []
  | limit + 1, playback =>
      if playback.isRunning then playback.callsOfTick ++ calls limit playback.tick else []

/-- What a step leaves as it is, and what it makes of the player and the number of ticks. -/
structure Makes (before after : Playback) (calls : List (Call ScriptedWorld)) : Prop where
  player : after.player = calls.foldl Player.perform before.player
  ticks : after.ticks = before.ticks + calls.countP Call.isTick
  script : after.script = before.script
  seconds : after.seconds = before.seconds
  subscriber : after.subscriber = before.subscriber

namespace Makes

variable {before middle after : Playback} {first second : List (Call ScriptedWorld)}

theorem trans (start : before.Makes middle first) (goesOn : middle.Makes after second) :
    before.Makes after (first ++ second) where
  player := by rw [goesOn.player, start.player, List.foldl_append]
  ticks := by rw [goesOn.ticks, start.ticks, List.countP_append, Nat.add_assoc]
  script := goesOn.script.trans start.script
  seconds := goesOn.seconds.trans start.seconds
  subscriber := goesOn.subscriber.trans start.subscriber

end Makes

variable (playback : Playback)

theorem makes_refl : playback.Makes playback [] :=
  ⟨rfl, rfl, rfl, rfl, rfl⟩

theorem makes_wait : playback.Makes playback.wait [] := by
  unfold wait
  split <;> exact ⟨rfl, rfl, rfl, rfl, rfl⟩

theorem makes_advance : playback.Makes playback.advance
    [.change (ScriptedWorld.advance playback.seconds), .tick playback.seconds] :=
  ⟨rfl, rfl, rfl, rfl, rfl⟩

theorem makes_tellCommands : playback.Makes playback.tellCommands [.change (·.takeJournal.2)] := by
  rcases playback with ⟨⟨config, world, channel, run, started⟩, subscriber, script, seconds,
    realtime, ticks, told⟩
  cases world <;> exact ⟨rfl, rfl, rfl, rfl, rfl⟩

theorem makes_tellEvents : playback.Makes playback.tellEvents [.drain playback.subscriber] :=
  ⟨rfl, rfl, rfl, rfl, rfl⟩

theorem makes_signal (trigger : String) :
    playback.Makes (playback.signal trigger) [.signal trigger] :=
  ⟨rfl, rfl, rfl, rfl, rfl⟩

theorem makes_signals (triggers : List String) :
    playback.Makes (triggers.foldl signal playback) (triggers.map .signal) := by
  induction triggers generalizing playback with
  | nil => exact makes_refl playback
  | cons trigger rest ih =>
      exact (makes_signal playback trigger).trans (ih (playback.signal trigger))

theorem makes_fetched : playback.Makes playback.wait.advance.tellCommands.tellEvents
    [.change (ScriptedWorld.advance playback.seconds), .tick playback.seconds,
      .change (·.takeJournal.2), .drain playback.subscriber] := by
  have waited := makes_wait playback
  have advanced := waited.trans (makes_advance playback.wait)
  have fetched := advanced.trans (makes_tellCommands playback.wait.advance)
  have whole := fetched.trans (makes_tellEvents playback.wait.advance.tellCommands)
  rw [fetched.subscriber, waited.seconds] at whole
  exact whole

/-- The calls of a round up to the last time that events are fetched. -/
theorem makes_signalled :
    let fetched := playback.wait.advance.tellCommands.tellEvents
    playback.Makes ((fetched.script.triggersAt fetched.ticks).foldl signal fetched)
      ([.change (ScriptedWorld.advance playback.seconds), .tick playback.seconds,
        .change (·.takeJournal.2), .drain playback.subscriber] ++
        (playback.script.triggersAt (playback.ticks + 1)).map .signal) := by
  have made := makes_fetched playback
  have now : playback.wait.advance.tellCommands.tellEvents.ticks = playback.ticks + 1 := made.ticks
  intro fetched
  rw [made.script, now]
  exact made.trans (makes_signals _ _)

/-- A round makes its calls. -/
theorem makes_tick : playback.Makes playback.tick playback.callsOfTick := by
  have signalled := makes_signalled playback
  have whole := signalled.trans (makes_tellEvents _)
  rw [signalled.subscriber] at whole
  exact whole

theorem makes_play (limit : Nat) (playback : Playback) :
    playback.Makes (playback.play limit) (playback.calls limit) := by
  induction limit generalizing playback with
  | zero => exact makes_refl playback
  | succ limit ih =>
      unfold play calls
      split
      · exact (makes_tick playback).trans (ih playback.tick)
      · exact makes_refl playback

/-! ## When triggers are signalled -/

/-- The triggers that are signalled among calls, each with the number of ticks before it. -/
def signalled : (ticks : Nat) → List (Call ScriptedWorld) → List ScheduledTrigger
  | _, [] => []
  | ticks, .tick _ :: rest => signalled (ticks + 1) rest
  | ticks, .signal trigger :: rest => ⟨ticks, trigger⟩ :: signalled ticks rest
  | ticks, _ :: rest => signalled ticks rest

theorem signalled_append (ticks : Nat) (before after : List (Call ScriptedWorld)) :
    signalled ticks (before ++ after) =
      signalled ticks before ++ signalled (ticks + before.countP Call.isTick) after := by
  induction before generalizing ticks with
  | nil => rfl
  | cons call rest ih =>
      cases call with
      | tick seconds =>
          rw [List.countP_cons_of_pos rfl, Nat.add_comm _ 1, ← Nat.add_assoc]
          exact ih (ticks + 1)
      | signal trigger => exact congrArg _ (ih ticks)
      | _ => exact ih ticks

theorem signalled_signals (ticks : Nat) (triggers : List String) :
    signalled ticks (triggers.map .signal) = triggers.map (⟨ticks, ·⟩) := by
  induction triggers with
  | nil => rfl
  | cons trigger rest ih => exact congrArg _ ih

theorem map_triggersAt (script : Script) (tick : Nat) :
    (script.triggersAt tick).map (⟨tick, ·⟩) = script.triggers.filter (·.atTick == tick) := by
  rw [Script.triggersAt, List.map_map]
  refine (List.map_congr_left fun scheduled member => ?_).trans (List.map_id _)
  rw [Function.comp_apply, ← beq_iff_eq.mp (List.mem_filter.mp member).2]
  rfl

/-- A round signals the triggers that are due after its tick. -/
theorem signalled_callsOfTick :
    signalled playback.ticks playback.callsOfTick =
      playback.script.triggers.filter (·.atTick == playback.ticks + 1) := by
  rw [callsOfTick, signalled_append, signalled_append, ← map_triggersAt, ← signalled_signals]
  exact List.append_nil _

theorem ticks_le_play (limit : Nat) : playback.ticks ≤ (playback.play limit).ticks :=
  (makes_play limit playback).ticks ▸ Nat.le_add_right _ _

theorem countP_callsOfTick : playback.callsOfTick.countP Call.isTick = 1 := by
  have quiet : ∀ triggers : List String,
      ((triggers.map .signal : List (Call ScriptedWorld))).countP Call.isTick = 0 := by
    intro triggers
    rw [List.countP_map, List.countP_eq_zero]
    exact fun _ _ => Bool.false_ne_true
  rw [callsOfTick, List.countP_append, List.countP_append, quiet]
  rfl

theorem ticks_tick : playback.tick.ticks = playback.ticks + 1 := by
  rw [(makes_tick playback).ticks, countP_callsOfTick]

/-- What is signalled after some number of ticks is what the script schedules for it, if these
ticks are played. -/
theorem signalled_calls (limit : Nat) (playback : Playback) (due : Nat) :
    (signalled playback.ticks (playback.calls limit)).filter (·.atTick == due) =
      if playback.ticks < due ∧ due ≤ (playback.play limit).ticks then
        playback.script.triggers.filter (·.atTick == due)
      else [] := by
  induction limit generalizing playback with
  | zero =>
      have never : ¬ (playback.ticks < due ∧ due ≤ (playback.play 0).ticks) := fun within =>
        Nat.not_le_of_lt within.1 within.2
      rw [if_neg never]
      rfl
  | succ limit ih =>
      unfold calls play
      split
      next running =>
        have later := ih playback.tick
        have played := ticks_le_play playback.tick limit
        rw [(makes_tick playback).script] at later
        rw [ticks_tick] at later played
        rw [signalled_append, signalled_callsOfTick, countP_callsOfTick, List.filter_append, later,
          List.filter_filter]
        by_cases now : due = playback.ticks + 1
        · subst now
          have past : ¬ (playback.ticks + 1 < playback.ticks + 1 ∧
              playback.ticks + 1 ≤ (playback.tick.play limit).ticks) := fun within =>
            Nat.lt_irrefl _ within.1
          rw [if_neg past, if_pos ⟨Nat.lt_succ_self _, played⟩, List.append_nil]
          simp only [Bool.and_self]
        · have other : playback.script.triggers.filter (fun scheduled =>
              scheduled.atTick == due && scheduled.atTick == playback.ticks + 1) = [] := by
            refine List.filter_eq_nil_iff.mpr fun scheduled _ both => now ?_
            rw [Bool.and_eq_true, beq_iff_eq, beq_iff_eq] at both
            exact both.1.symm.trans both.2
          have same : (playback.ticks + 1 < due ∧ due ≤ (playback.tick.play limit).ticks) ↔
              (playback.ticks < due ∧ due ≤ (playback.tick.play limit).ticks) := by
            omega
          rw [other, List.nil_append]
          simp only [same]
      next isOver =>
        have never : ¬ (playback.ticks < due ∧ due ≤ playback.ticks) := fun within =>
          Nat.not_le_of_lt within.1 within.2
        rw [if_neg never]
        rfl

/-- Lists in which every tick has the same triggers hold the same triggers equally often. -/
theorem perm_of_filter_atTick {first second : List ScheduledTrigger}
    (same : ∀ due, first.filter (·.atTick == due) = second.filter (·.atTick == due)) :
    first.Perm second := by
  refine List.perm_iff_count.mpr fun scheduled => ?_
  have among : ∀ list : List ScheduledTrigger,
      (list.filter (·.atTick == scheduled.atTick)).count scheduled = list.count scheduled :=
    fun _ => List.count_filter (beq_self_eq_true scheduled.atTick)
  rw [← among, same, among]

/-- Playing a graph back is a matter of calls to its player, as many of them ticks as the playback
counts. Among these calls, the triggers signalled after some number of ticks and before the next one
are those that the script schedules for that number, each once and in the order of the script, if
the number is not zero and that many ticks are played. There are no other signals: a trigger that is
due before the first tick, or after more ticks than are played, is never signalled. -/
theorem signals_follow_schedule (graph : Graph) (script : Script) (seconds : Float32)
    (realtime : Bool) (limit : Nat) :
    let begun := start graph script seconds realtime
    let calls := begun.calls limit
    let ended := begun.play limit
    ended.player = calls.foldl Player.perform begun.player ∧
    ended.ticks = calls.countP Call.isTick ∧
    (∀ due, (signalled 0 calls).filter (·.atTick == due) =
      if 0 < due ∧ due ≤ ended.ticks then script.triggers.filter (·.atTick == due) else []) ∧
    (signalled 0 calls).Perm (script.triggers.filter fun scheduled =>
      0 < scheduled.atTick ∧ scheduled.atTick ≤ ended.ticks) := by
  intro begun calls ended
  have made : begun.Makes ended calls := makes_play limit begun
  have stamped : ∀ due, (signalled 0 calls).filter (·.atTick == due) =
      if 0 < due ∧ due ≤ ended.ticks then script.triggers.filter (·.atTick == due) else [] :=
    signalled_calls limit begun
  refine ⟨made.player, made.ticks.trans (Nat.zero_add _), stamped,
    perm_of_filter_atTick fun due => (stamped due).trans ?_⟩
  rw [List.filter_filter]
  split
  next played =>
    refine List.filter_congr fun scheduled _ => ?_
    by_cases now : scheduled.atTick = due
    · simp [now, played]
    · simp [now]
  next unplayed =>
    refine (List.filter_eq_nil_iff.mpr fun scheduled _ both => unplayed ?_).symm
    rw [Bool.and_eq_true, beq_iff_eq, decide_eq_true_eq] at both
    exact both.1 ▸ both.2

/-- A graph that waits for a trigger. -/
def gate : Graph := ⟨"g", [Node.waitForTrigger "gate" "go"], []⟩

/-- A trigger that is due before the first tick does not open the gate: nothing is signalled at all,
and the run is stuck. The same trigger one tick later ends the run. -/
theorem early_trigger_is_passed_by :
    let early := Script.empty.withTrigger 0 "go"
    let late := Script.empty.withTrigger 1 "go"
    ⟨0, "go"⟩ ∈ early.triggers ∧
    signalled 0 ((start gate early 1 false).calls 3) = [] ∧
    ((start gate early 1 false).play 3).ticks = 3 ∧
    ((start gate early 1 false).play 3).isRunning = true ∧
    signalled 0 ((start gate late 1 false).calls 3) = [⟨1, "go"⟩] ∧
    ((start gate late 1 false).play 3).ticks = 2 ∧
    ((start gate late 1 false).play 3).isRunning = false := by
  decide +kernel

end Playback

end SceneFlow
