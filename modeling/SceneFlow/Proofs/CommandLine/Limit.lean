import Mathlib.Data.ENat.Lattice
import SceneFlow.Proofs.CommandLine.Lines
import SceneFlow.Proofs.CommandLine.Schedule
import SceneFlow.Proofs.Graph.Document
import SceneFlow.Proofs.Player.Delivery
import SceneFlow.Proofs.Run.Brackets

/-!
# The limit of a playback

The limit of a playback cuts it off and changes nothing before. What is told under a limit up to the
notice that it was reached is the beginning of what is told under any greater one, and the summary
counts as many ticks as the limit allows and the run takes. The run is stopped just if it takes more
than that. All this needs a length of ticks that the timer accepts; with any other one that is
positive the command breaks off as soon as the run has started.
-/

set_option autoImplicit false

namespace SceneFlow

/-! ## A run in progress -/

namespace Level

variable {σ : Type} [World σ] {world : Option σ} {level after : Level}
  {departure : Option Departure}

theorem ticks_follow (world : Option σ) (level : Level) (destination : Destination) :
    (level.follow world destination).ticks = level.ticks := by
  cases destination <;> simp [follow, finish]

theorem TickStep.ticks_eq (step : TickStep world level departure after)
    (running : level.current ≠ none) : after.ticks = level.ticks + 1 := by
  cases step with
  | idle isOver => exact absurd isOver running
  | stay => rfl
  | move => rw [ticks_follow, ticks_left]

end Level

namespace Player

variable {σ : Type} [World σ] {graph : Graph} {subscriber : Nat} {player : Player σ}
  {call : Call σ}

omit [World σ] in
/-- A run of the graph is in progress, somebody can hear of it, and nothing that is still to be
heard tells of a stop. -/
structure Attended (graph : Graph) (subscriber : Nat) (player : Player σ) : Prop where
  run : ∃ run, player.run = some run ∧ run.Sound ∧ run.level.id.depth = 0 ∧ run.level.graph = graph
  subscribed : subscriber < player.channel.positions.length
  room : 0 < player.channel.capacity
  unstopped : ∀ event ∈ player.channel.kept, event.report.isStop = false

/-- Only who gives a run up tells that it was stopped. -/
theorem Attended.isStop_of_mem_sends (attended : player.Attended graph subscriber) {event : Event}
    (member : event ∈ player.sends call) (keeps : call.givesUp = false) :
    event.report.isStop = false := by
  obtain ⟨run, current, sound, _⟩ := attended.run
  cases call with
  | start | stop => cases keeps
  | tick seconds =>
      simp only [sends, current, Option.map_some, Option.getD_some] at member
      exact (sound.advances seconds _).isStop_of_mem member
  | signal trigger =>
      simp only [sends, current, Option.map_some, Option.getD_some] at member
      rw [List.mem_singleton.mp member]
      rfl
  | subscribe | drain | change => cases member

/-- The first run of a player has begun, and the one who subscribed before can hear of it. -/
theorem attended_start (config : PlayerConfig) (world : Option σ) (graph : Graph) :
    (((Player.ofConfig config world).perform .subscribe).perform (.start graph)).Attended graph
      0 := by
  let fresh := (Player.ofConfig config world).perform .subscribe
  have effect := channel_perform fresh (.start graph)
  have heard : fresh.channel.positions ≠ [] := List.cons_ne_nil 0 []
  refine ⟨⟨_, rfl, Run.sound_start _ _ graph, ?_⟩, ?_, ?_, fun event member => ?_⟩
  · rw [Run.level_start, Level.id_begin, Level.graph_begin]
    exact ⟨rfl, rfl⟩
  · rw [effect, Channel.positions_sendAll]
    exact Nat.one_pos
  · rw [capacity_perform]
    exact Channel.capacity_ofSize_pos config.eventBufferSize
  · rw [effect] at member
    have sent := (Channel.kept_sendAll heard _).subset member
    rcases List.mem_append.mp sent with sent | before
    · exact Run.isStop_of_mem_start _ _ graph event (List.mem_reverse.mp sent)
    · cases before

theorem Attended.exists_run_perform (attended : player.Attended graph subscriber)
    (keeps : call.givesUp = false) :
    ∃ run, (player.perform call).run = some run ∧ run.Sound ∧ run.level.id.depth = 0 ∧
      run.level.graph = graph := by
  obtain ⟨run, current, sound, outermost, rfl⟩ := attended.run
  obtain ⟨config, world, channel, _, started⟩ := player
  cases current
  cases call with
  | start | stop => cases keeps
  | tick seconds =>
      have step := sound.tickStep seconds (run.tick seconds world).world
      exact ⟨_, rfl, sound.advance seconds _, (congrArg RunId.depth step.id_eq).trans outermost,
        step.graph_eq⟩
  | signal trigger =>
      refine ⟨_, rfl, sound.signal trigger, ?_⟩
      rw [Run.level_signal, Level.id_signal, Level.graph_signal]
      exact ⟨outermost, rfl⟩
  | subscribe | drain | change => exact ⟨run, rfl, sound, outermost, rfl⟩

theorem Attended.perform (attended : player.Attended graph subscriber)
    (keeps : call.givesUp = false) : (player.perform call).Attended graph subscriber := by
  obtain ⟨channel, sameKept, more, effect⟩ := exists_channel_perform player call
  have subscribed : subscriber < channel.positions.length :=
    Nat.lt_of_lt_of_le attended.subscribed more
  refine ⟨attended.exists_run_perform keeps, ?_, ?_, fun event member => ?_⟩
  · rw [effect, Channel.positions_sendAll]
    exact subscribed
  · rw [capacity_perform]
    exact attended.room
  · have heard : channel.positions ≠ [] :=
      List.ne_nil_of_length_pos (Nat.zero_lt_of_lt subscribed)
    rw [effect] at member
    rcases List.mem_append.mp ((channel.kept_sendAll heard _).subset member) with sent | before
    · exact attended.isStop_of_mem_sends (List.mem_reverse.mp sent) keeps
    · exact attended.unstopped event (sameKept ▸ before)

theorem Attended.performs (attended : player.Attended graph subscriber) {calls : List (Call σ)}
    (keep : ∀ call ∈ calls, call.givesUp = false) :
    (calls.foldl Player.perform player).Attended graph subscriber := by
  induction calls generalizing player with
  | nil => exact attended
  | cons call rest ih =>
      obtain ⟨keeps, keep⟩ := List.forall_mem_cons.mp keep
      exact ih (attended.perform keeps) keep

end Player

namespace Performance

variable {σ : Type} [World σ] {performance : Performance σ} {graph : Graph}
  {subscriber ticks : Nat} {call : Call σ}

/-- A run of the graph goes on or is over after so many ticks, and nobody has given it up. -/
structure UnderWay (graph : Graph) (subscriber : Nat) (performance : Performance σ) (ticks : Nat) :
    Prop where
  attended : performance.player.Attended graph subscriber
  counts : performance.player.run.map (·.level.ticks) = some ticks
  unstopped : ∀ event ∈ performance.events, event.report.isStop = false

theorem UnderWay.perform (underWay : performance.UnderWay graph subscriber ticks)
    (keeps : call.givesUp = false)
    (runs : call.isTick = true → performance.player.isRunning = true) :
    (performance.perform call).UnderWay graph subscriber (ticks + [call].countP Call.isTick) := by
  refine ⟨underWay.attended.perform keeps, ?_, fun event member => ?_⟩
  · obtain ⟨run, current, sound, _⟩ := underWay.attended.run
    have counts := underWay.counts
    obtain ⟨⟨config, world, channel, _, started⟩, events⟩ := performance
    cases current
    cases counts
    cases call with
    | start | stop => cases keeps
    | tick seconds =>
        have running : run.level.current ≠ none := by
          have isRunning := runs rfl
          intro isOver
          simp [Player.isRunning, Run.isFinished, Level.isFinished, isOver] at isRunning
        exact congrArg some ((sound.tickStep seconds _).ticks_eq running)
    | signal trigger =>
        have same := congrArg Level.ticks (Run.level_signal trigger run)
        exact congrArg some (same.trans (Level.ticks_signal trigger run.level))
    | subscribe | drain | change => rfl
  · rcases List.mem_append.mp member with earlier | sent
    · exact underWay.unstopped event earlier
    · exact underWay.attended.isStop_of_mem_sends sent keeps

theorem underWay_start (config : PlayerConfig) (world : Option σ) (graph : Graph) :
    (after config world [.subscribe, .start graph, .drain 0]).UnderWay graph 0 0 := by
  have keeps : (Call.drain 0 : Call σ).givesUp = false := rfl
  refine ⟨(Player.attended_start config world graph).perform keeps, ?_, fun event member => ?_⟩
  · have begun := congrArg Level.ticks (Run.level_start world (.outermost 0) graph)
    exact congrArg some (begun.trans (Level.ticks_begin ..))
  · have told : event ∈ (Run.start world (.outermost 0) graph).2 := by
      simpa [after, perform, Player.sends, Player.stopReport, Player.perform, Player.subscribe,
        Player.ofConfig] using member
    exact Run.isStop_of_mem_start world _ graph event told

theorem UnderWay.performs (underWay : performance.UnderWay graph subscriber ticks)
    {calls : List (Call σ)} (quiet : ∀ call ∈ calls, call.givesUp = false ∧ call.isTick = false) :
    (calls.foldl Performance.perform performance).UnderWay graph subscriber ticks := by
  induction calls generalizing performance with
  | nil => exact underWay
  | cons call rest ih =>
      obtain ⟨⟨keeps, still⟩, quiet⟩ := List.forall_mem_cons.mp quiet
      have next := underWay.perform keeps fun ticks => absurd (still.symm.trans ticks) nofun
      rw [List.countP_singleton, if_neg (by simp [still])] at next
      exact ih next quiet

theorem player_performs (performance : Performance σ) (calls : List (Call σ)) :
    (calls.foldl perform performance).player = calls.foldl Player.perform performance.player := by
  induction calls generalizing performance with
  | nil => rfl
  | cons call rest ih => exact ih (performance.perform call)

end Performance

namespace Playback

/-! ## Ticks -/

/-- How many ticks a playback goes on for if nothing cuts it off: as many as it takes until the run
is over. -/
noncomputable def length (playback : Playback) : ℕ∞ :=
  ⨅ (ticks : ℕ) (_ : (tick^[ticks] playback).isRunning = false), (ticks : ℕ∞)

variable {playback : Playback}

theorem le_length_iff {limit : ℕ} :
    (limit : ℕ∞) ≤ playback.length ↔ ∀ ticks < limit, (tick^[ticks] playback).isRunning = true := by
  rw [length, le_iInf₂_iff]
  refine forall_congr' fun ticks => ?_
  rw [Nat.cast_le, ← not_imp_not, not_le, Bool.not_eq_false]

theorem length_of_over (isOver : playback.isRunning = false) : playback.length = 0 :=
  le_antisymm (iInf₂_le 0 isOver) bot_le

theorem length_of_running (running : playback.isRunning = true) :
    playback.length = playback.tick.length + 1 := by
  refine ENat.eq_of_forall_natCast_le_iff fun limit => ?_
  cases limit with
  | zero => simp
  | succ limit =>
      rw [Nat.cast_add_one, ENat.add_le_add_iff_right ENat.one_ne_top, ← Nat.cast_add_one,
        le_length_iff, le_length_iff]
      constructor
      · intro before ticks within
        exact before (ticks + 1) (Nat.succ_lt_succ within)
      · intro after ticks within
        cases ticks with
        | zero => exact running
        | succ ticks => exact after ticks (Nat.lt_of_succ_lt_succ within)

theorem ticks_play (limit : ℕ) (playback : Playback) :
    ((playback.play limit).ticks : ℕ∞) = playback.ticks + min (limit : ℕ∞) playback.length := by
  induction limit generalizing playback with
  | zero => simp [play]
  | succ limit ih =>
      unfold play
      split
      next running =>
        rw [ih, ticks_tick, length_of_running running, Nat.cast_add_one, Nat.cast_add_one,
          min_add_add_right, add_assoc, add_comm 1]
      next isOver =>
        rw [length_of_over (Bool.eq_false_iff.mpr isOver)]
        simp

theorem isRunning_play (limit : ℕ) (playback : Playback) :
    (playback.play limit).isRunning = true ↔ (limit : ℕ∞) < playback.length := by
  induction limit generalizing playback with
  | zero =>
      cases running : playback.isRunning with
      | false => simp [play, running, length_of_over running]
      | true => simp [play, running, length_of_running running]
  | succ limit ih =>
      unfold play
      split
      next running =>
        rw [ih, length_of_running running, Nat.cast_add_one,
          ENat.add_lt_add_iff_right ENat.one_ne_top]
      next isOver =>
        rw [length_of_over (Bool.eq_false_iff.mpr isOver)]
        exact iff_of_false isOver not_lt_bot

theorem play_of_over (isOver : playback.isRunning = false) (limit : ℕ) :
    playback.play limit = playback := by
  cases limit with
  | zero => rfl
  | succ limit => rw [play, isOver, if_neg Bool.false_ne_true]

theorem play_add (limit more : ℕ) (playback : Playback) :
    playback.play (limit + more) = (playback.play limit).play more := by
  induction limit generalizing playback with
  | zero => rw [Nat.zero_add, play]
  | succ limit ih =>
      rw [Nat.succ_add, play, play]
      split
      next => exact ih playback.tick
      next isOver => exact (play_of_over (Bool.eq_false_iff.mpr isOver) more).symm

/-! ## The player -/

theorem keeps_of_mem_callsOfTick {call : Call ScriptedWorld}
    (member : call ∈ playback.callsOfTick) : call.givesUp = false := by
  simp only [callsOfTick, List.mem_append, List.mem_cons, List.mem_map, List.not_mem_nil,
    or_false] at member
  rcases member with ((rfl | rfl | rfl | rfl) | ⟨trigger, _, rfl⟩) | rfl <;> rfl

theorem quiet_of_mem_callsOfTick {call : Call ScriptedWorld}
    (member : call ∈ playback.callsOfTick.drop 2) : call.givesUp = false ∧ call.isTick = false := by
  refine ⟨keeps_of_mem_callsOfTick (List.mem_of_mem_drop member), ?_⟩
  simp only [callsOfTick, List.cons_append, List.drop_succ_cons, List.drop_zero, List.nil_append,
    List.mem_cons, List.mem_append, List.mem_map, List.not_mem_nil, or_false] at member
  rcases member with rfl | rfl | ⟨trigger, _, rfl⟩ | rfl <;> rfl

theorem underWay_tick {performance : Performance ScriptedWorld} {graph : Graph} {subscriber : Nat}
    (underWay : performance.UnderWay graph subscriber playback.ticks)
    (same : performance.player = playback.player) (running : playback.isRunning = true) :
    (playback.callsOfTick.foldl Performance.perform performance).UnderWay graph subscriber
      playback.tick.ticks := by
  have still : (Call.change (ScriptedWorld.advance playback.seconds)).givesUp = false := rfl
  have passed := underWay.perform still nofun
  have keeps : (Call.tick playback.seconds : Call ScriptedWorld).givesUp = false := rfl
  have ticked := passed.perform keeps fun _ => by
    rw [isRunning, Player.isRunning, ← same] at running
    exact running
  rw [ticks_tick]
  exact ticked.performs fun _ => quiet_of_mem_callsOfTick

theorem underWay_play {performance : Performance ScriptedWorld} {graph : Graph} {subscriber : Nat}
    (underWay : performance.UnderWay graph subscriber playback.ticks)
    (same : performance.player = playback.player) (limit : ℕ) :
    ((playback.calls limit).foldl Performance.perform performance).UnderWay graph subscriber
      (playback.play limit).ticks := by
  induction limit generalizing playback performance with
  | zero => exact underWay
  | succ limit ih =>
      unfold play calls
      split
      next running =>
        rw [List.foldl_append]
        refine ih (underWay_tick underWay same running) ?_
        rw [Performance.player_performs, same, (makes_tick playback).player]
      next => exact underWay

/-- The player of a playback has a run of the graph, and the playback hears of it. -/
def Attends (graph : Graph) (playback : Playback) : Prop :=
  playback.player.Attended graph playback.subscriber

theorem Makes.attends {graph : Graph} {before after : Playback} {calls : List (Call ScriptedWorld)}
    (made : before.Makes after calls) (keep : ∀ call ∈ calls, call.givesUp = false)
    (attends : before.Attends graph) : after.Attends graph := by
  rw [Attends, made.player, made.subscriber]
  exact Player.Attended.performs attends keep

theorem Attends.tick {graph : Graph} (attends : playback.Attends graph) :
    playback.tick.Attends graph :=
  (makes_tick playback).attends (fun _ => keeps_of_mem_callsOfTick) attends

/-- Once events are fetched, none are left to fetch. -/
theorem Attends.upToDate_tellEvents {graph : Graph} (attends : playback.Attends graph) :
    playback.tellEvents.player.channel.UpToDate playback.tellEvents.subscriber :=
  Channel.upToDate_drain attends.subscribed

/-! ## What is told -/

/-- What is told after some steps begins with what was told before. All lines after that are
plain. -/
def Tells (before after : Playback) : Prop :=
  ∃ cues : List Cue, after.told.toList = before.told.toList ++ cues ∧
    ∀ line, .line line ∈ cues → Plain line

theorem Tells.trans {before middle after : Playback} (first : before.Tells middle)
    (second : middle.Tells after) : before.Tells after := by
  obtain ⟨cues, told, plain⟩ := first
  obtain ⟨more, toldMore, plainMore⟩ := second
  refine ⟨cues ++ more, by rw [toldMore, told, List.append_assoc], fun line member => ?_⟩
  rcases List.mem_append.mp member with here | there
  · exact plain line here
  · exact plainMore line there

section

variable (playback : Playback)

theorem tells_refl : playback.Tells playback :=
  ⟨[], (List.append_nil _).symm, nofun⟩

theorem told_tell (lines : List String) :
    (playback.tell lines).told.toList = playback.told.toList ++ lines.map .line :=
  Array.toList_append

theorem tells_tell {lines : List String} (plain : ∀ line ∈ lines, Plain line) :
    playback.Tells (playback.tell lines) := by
  refine ⟨lines.map .line, told_tell playback lines, fun line member => ?_⟩
  obtain ⟨_, member, same⟩ := List.mem_map.mp member
  cases same
  exact plain line member

theorem tells_wait : playback.Tells playback.wait := by
  unfold wait
  split
  · exact ⟨[.pause], Array.toList_push, fun _ member => absurd (List.mem_singleton.mp member) nofun⟩
  · exact tells_refl playback

theorem tells_advance : playback.Tells playback.advance :=
  ⟨[], (List.append_nil _).symm, nofun⟩

theorem tells_tellCommands : playback.Tells playback.tellCommands := by
  unfold tellCommands
  split
  · exact tells_refl playback
  · refine tells_tell { playback with player := _ } fun line member => ?_
    obtain ⟨command, _, rfl⟩ := List.mem_map.mp member
    exact plain_commandLine command

theorem tells_signal (trigger : String) : playback.Tells (playback.signal trigger) :=
  tells_tell { playback with player := _ } fun _ member =>
    List.mem_singleton.mp member ▸ plain_signalLine trigger playback.ticks _

theorem tells_signals (triggers : List String) :
    playback.Tells (triggers.foldl signal playback) := by
  induction triggers generalizing playback with
  | nil => exact tells_refl playback
  | cons trigger rest ih =>
      exact (tells_signal playback trigger).trans (ih (playback.signal trigger))

end

theorem Attends.tells_tellEvents {graph : Graph} (attends : playback.Attends graph) :
    playback.Tells playback.tellEvents := by
  refine tells_tell { playback with player := _ } fun line member => ?_
  refine plain_of_mem_deliveryLines (fun event received => ?_) member
  exact attends.unstopped event (Channel.mem_kept_of_mem_drain received)

theorem Attends.tells_tick {graph : Graph} (attends : playback.Attends graph) :
    playback.Tells playback.tick := by
  have keep : ∀ call ∈ playback.callsOfTick, call.givesUp = false :=
    fun _ => keeps_of_mem_callsOfTick
  have advanced : playback.wait.advance.tellCommands.Attends graph :=
    (((makes_wait playback).trans (makes_advance _)).trans (makes_tellCommands _)).attends
      (by simp [Call.givesUp]) attends
  have signalled := (makes_signalled playback).attends
    (fun call member => keep call (List.mem_append_left _ member)) attends
  have told := ((tells_wait playback).trans (tells_advance playback.wait)).trans
    (tells_tellCommands playback.wait.advance)
  exact ((told.trans advanced.tells_tellEvents).trans (tells_signals _ _)).trans
    signalled.tells_tellEvents

theorem Attends.tells_play {graph : Graph} (attends : playback.Attends graph) (limit : ℕ) :
    playback.Tells (playback.play limit) := by
  induction limit generalizing playback with
  | zero => exact tells_refl playback
  | succ limit ih =>
      unfold play
      split
      · exact attends.tells_tick.trans (ih attends.tick)
      · exact tells_refl playback

theorem Attends.play {graph : Graph} (attends : playback.Attends graph) (limit : ℕ) :
    (playback.play limit).Attends graph := by
  induction limit generalizing playback with
  | zero => exact attends
  | succ limit ih =>
      unfold Playback.play
      split
      · exact ih attends.tick
      · exact attends

/-- Between two rounds all events are fetched. -/
theorem Attends.upToDate_play {graph : Graph} (attends : playback.Attends graph)
    (upToDate : playback.player.channel.UpToDate playback.subscriber) (limit : ℕ) :
    (playback.play limit).player.channel.UpToDate (playback.play limit).subscriber := by
  induction limit generalizing playback with
  | zero => exact upToDate
  | succ limit ih =>
      unfold Playback.play
      split
      · have signalled := (makes_signalled playback).attends
          (fun call member => keeps_of_mem_callsOfTick (List.mem_append_left _ member)) attends
        exact ih attends.tick signalled.upToDate_tellEvents
      · exact upToDate

/-! ## The end -/

/-- A run that is given up is told to have been stopped once all else is told. -/
theorem told_giveUp {graph : Graph} (attends : playback.Attends graph)
    (upToDate : playback.player.channel.UpToDate playback.subscriber) :
    ∃ stuck, playback.giveUp.told.toList =
      playback.told.toList ++ .line limitNotice :: stuck ++ [.line (stopLine graph.id)] := by
  obtain ⟨run, current, _, outermost, rfl⟩ := attends.run
  have stopped : playback.player.stop.channel =
      playback.player.channel.sendAll [run.stoppedReport] := by
    rw [Player.channel_stop, Player.stopReport, current]
    rfl
  have fits : [run.stoppedReport].length ≤ playback.player.channel.capacity := attends.room
  have received : (playback.player.stop.channel.drain playback.subscriber).1 =
      ⟨0, [run.stoppedReport]⟩ := by
    rw [stopped]
    exact (upToDate.drain_sendAll _ fits).1
  have lines : deliveryLines (playback.player.stop.channel.drain playback.subscriber).1 =
      [stopLine run.level.graph.id] :=
    (congrArg deliveryLines received).trans (deliveryLines_stoppedReport outermost)
  let stuck := (playback.player.nodeStatuses.filter (·.active)).map fun status =>
    "   Stuck at: " ++ status.line
  have told : playback.giveUp.told.toList = (playback.tell (limitNotice :: stuck)).told.toList ++
      (deliveryLines (playback.player.stop.channel.drain playback.subscriber).1).map .line :=
    Array.toList_append
  refine ⟨stuck.map .line, ?_⟩
  rw [told, lines, told_tell]
  rfl

/-- What is told as a playback is closed ends in the summary. If the run is not over, the notice
comes first, and the stop last. -/
theorem told_close {graph : Graph} (attends : playback.Attends graph)
    (upToDate : playback.player.channel.UpToDate playback.subscriber) :
    ∃ farewell : List Cue,
      playback.close.told.toList =
        playback.told.toList ++ farewell ++ (playback.summary (!playback.isRunning)).map .line ∧
      if playback.isRunning then
        ∃ stuck, farewell = .line limitNotice :: stuck ++ [.line (stopLine graph.id)]
      else farewell = [] := by
  rw [close]
  cases running : playback.isRunning with
  | false =>
      refine ⟨[], ?_, rfl⟩
      rw [List.append_nil]
      exact told_tell playback _
  | true =>
      obtain ⟨stuck, told⟩ := told_giveUp attends upToDate
      refine ⟨.line limitNotice :: stuck ++ [.line (stopLine graph.id)], ?_, stuck, rfl⟩
      rw [← List.append_assoc, ← told]
      exact told_tell playback.giveUp _

/-! ## The calls of a run -/

section

variable (graph : Graph) (script : Script) (seconds : Float32) (realtime : Bool) (limit : ℕ)

/-- All calls to the player until the run is over or the limit reached. -/
def callsUntilEnd : List (Call ScriptedWorld) :=
  let begun := start graph script seconds realtime
  [.subscribe, .start graph, .drain begun.subscriber] ++ begun.calls limit

/-- All calls to the player in a run of a graph. -/
def callsOfRun : List (Call ScriptedWorld) :=
  let begun := start graph script seconds realtime
  callsUntilEnd graph script seconds realtime limit ++
    if (begun.play limit).isRunning then [.stop, .drain begun.subscriber] else []

/-- The player after some calls, with all that was reported in the meantime. -/
def performance (calls : List (Call ScriptedWorld)) : Performance ScriptedWorld :=
  .after .standard (some (.ofScript script)) calls

theorem player_callsUntilEnd :
    (performance script (callsUntilEnd graph script seconds realtime limit)).player =
      ((start graph script seconds realtime).play limit).player := by
  have played := (makes_play limit (start graph script seconds realtime)).player
  rw [performance, Performance.after, Performance.player_performs, callsUntilEnd,
    List.foldl_append, played]
  rfl

theorem underWay_callsUntilEnd :
    (performance script (callsUntilEnd graph script seconds realtime limit)).UnderWay graph 0
      ((start graph script seconds realtime).play limit).ticks := by
  rw [performance, Performance.after, callsUntilEnd, List.foldl_append]
  exact underWay_play (Performance.underWay_start _ _ graph) rfl limit

theorem performance_callsOfRun :
    performance script (callsOfRun graph script seconds realtime limit) =
      (if ((start graph script seconds realtime).play limit).isRunning then
        [.stop, .drain (start graph script seconds realtime).subscriber] else []).foldl
          Performance.perform
            (performance script (callsUntilEnd graph script seconds realtime limit)) :=
  List.foldl_append

theorem player_callsOfRun :
    (performance script (callsOfRun graph script seconds realtime limit)).player =
      ((start graph script seconds realtime).play limit).close.player := by
  have same := (makes_play limit (start graph script seconds realtime)).subscriber
  rw [performance_callsOfRun, Performance.player_performs, player_callsUntilEnd, ← same]
  generalize (start graph script seconds realtime).play limit = reached
  rw [close]
  cases reached.isRunning <;> rfl

theorem ticks_run :
    let reached := (start graph script seconds realtime).play limit
    reached.player.run.map (·.level.ticks) = some reached.ticks := by
  have counts := (underWay_callsUntilEnd graph script seconds realtime limit).counts
  rwa [player_callsUntilEnd] at counts

/-- A run is stopped if the limit comes before its end. -/
theorem isStop_iff :
    (∃ event ∈ (performance script (callsOfRun graph script seconds realtime limit)).events,
      event.report.isStop = true) ↔
      (limit : ℕ∞) < (start graph script seconds realtime).length := by
  have underWay := underWay_callsUntilEnd graph script seconds realtime limit
  rw [performance_callsOfRun, ← isRunning_play]
  split
  next running =>
    refine iff_of_true ?_ running
    obtain ⟨run, current, _⟩ := underWay.attended.run
    refine ⟨run.stoppedReport, ?_, rfl⟩
    simp [Performance.perform, Player.sends, Player.stopReport, current]
  next isOver =>
    refine iff_of_false ?_ isOver
    rintro ⟨event, member, stop⟩
    cases (underWay.unstopped event member).symm.trans stop

end

/-! ## What is told of a run -/

section

variable (graph : Graph) (script : Script) (seconds : Float32) (realtime : Bool)

/-- A run has started before the first events are fetched. -/
theorem exists_opened : ∃ opened : Playback, opened.Attends graph ∧ opened.told = #[] ∧
    start graph script seconds realtime = opened.tellEvents := by
  have attended := Player.attended_start .standard (some (ScriptedWorld.ofScript script)) graph
  exact ⟨⟨_, 0, script, seconds, realtime, 0, #[]⟩, attended, rfl, rfl⟩

theorem attends_start : (start graph script seconds realtime).Attends graph := by
  obtain ⟨opened, attends, _, same⟩ := exists_opened graph script seconds realtime
  rw [same]
  exact (makes_tellEvents opened).attends (by simp [Call.givesUp]) attends

theorem upToDate_start :
    (start graph script seconds realtime).player.channel.UpToDate
      (start graph script seconds realtime).subscriber := by
  obtain ⟨opened, attends, _, same⟩ := exists_opened graph script seconds realtime
  rw [same]
  exact attends.upToDate_tellEvents

theorem plain_of_mem_told {limit : ℕ} {line : String}
    (member : .line line ∈ ((start graph script seconds realtime).play limit).told.toList) :
    Plain line := by
  obtain ⟨opened, attends, untold, same⟩ := exists_opened graph script seconds realtime
  have begun := attends.tells_tellEvents
  rw [← same] at begun
  obtain ⟨cues, told, plain⟩ :=
    begun.trans ((attends_start graph script seconds realtime).tells_play limit)
  rw [told, untold] at member
  exact plain line member

end

end Playback

namespace CommandLine

open Playback

/-- What is told before a playback is cut off; everything if it is not. -/
def untilNotice (cues : List Cue) : List Cue :=
  cues.takeWhile (· ≠ .line limitNotice)

/-- A length of ticks that the command does not refuse. -/
def IsPositive (seconds : Float32) : Prop :=
  seconds.isFinite = true ∧ ¬ seconds ≤ 0

/-- Why a run is refused: what is told before that, and the complaint. -/
inductive Refuses (disk : Disk) (options : RunOptions) : List String → String → Prop where
  | seconds (unfit : ¬ IsPositive options.seconds) :
      Refuses disk options [] ("--dt must be positive, got " ++ writtenOut options.seconds)
  | graph {complaint : String} (positive : IsPositive options.seconds)
      (unread : loadGraph disk options.file = .error complaint) :
      Refuses disk options ["🚀 Loading graph from: " ++ options.file] complaint
  | script {graph : Graph} {complaint : String} (positive : IsPositive options.seconds)
      (read : loadGraph disk options.file = .ok graph)
      (unread : loadScript disk options.world = .error complaint) :
      Refuses disk options (opening options.file graph) complaint

/-- Whatever the limit, a run is refused for the same reason, or it goes on from the same start. -/
theorem run_cases (disk : Disk) (options : RunOptions) :
    (∃ lines complaint, Refuses disk options lines complaint ∧ ∀ limit,
      run disk { options with maxTicks := limit } = .ofLines lines (.failure complaint)) ∨
    IsPositive options.seconds ∧ ∃ graph script, loadGraph disk options.file = .ok graph ∧
      loadScript disk options.world = .ok script ∧ ∀ limit,
        let (cues, exit) := playGraph { options with maxTicks := limit } graph script
        run disk { options with maxTicks := limit } =
          { output := (opening options.file graph).map .line ++ cues, written := none, exit } := by
  by_cases refused : (!options.seconds.isFinite || options.seconds ≤ 0) = true
  · have unfit : ¬ IsPositive options.seconds := by
      rintro ⟨finite, positive⟩
      simp [finite, positive] at refused
    refine .inl ⟨_, _, .seconds unfit, fun limit => ?_⟩
    simp only [run, if_pos refused]
  · have positive : IsPositive options.seconds := by
      simpa [IsPositive] using refused
    cases loaded : loadGraph disk options.file with
    | error complaint =>
        refine .inl ⟨_, _, .graph positive loaded, fun limit => ?_⟩
        simp only [run, if_neg refused, loaded]
    | ok graph =>
        cases scripted : loadScript disk options.world with
        | error complaint =>
            refine .inl ⟨_, _, .script positive loaded scripted, fun limit => ?_⟩
            simp only [run, if_neg refused, loaded, scripted, opening]
        | ok script =>
            refine .inr ⟨positive, graph, script, rfl, rfl, fun limit => ?_⟩
            simp only [run, if_neg refused, loaded, scripted, opening]

section

variable (options : RunOptions) (graph : Graph) (script : Script)

/-- What is told of a run from its start until it is over or the limit reached. -/
def toldUntilEnd (limit : ℕ) : List Cue :=
  (opening options.file graph).map .line ++
    ((start graph script options.seconds options.realtime).play limit).told.toList

/-- What is told of a run in all. -/
def toldOfRun (limit : ℕ) : List Cue :=
  (opening options.file graph).map .line ++
    ((start graph script options.seconds options.realtime).play limit).close.told.toList

theorem plain_of_mem_toldUntilEnd {limit : ℕ} {line : String}
    (member : .line line ∈ toldUntilEnd options graph script limit) : Plain line := by
  rcases List.mem_append.mp member with opened | played
  · obtain ⟨line, member, same⟩ := List.mem_map.mp opened
    cases same
    exact plain_of_mem_opening member
  · exact plain_of_mem_told graph script _ _ played

theorem toldOfRun_eq (limit : ℕ) :
    let reached := (start graph script options.seconds options.realtime).play limit
    ∃ farewell : List Cue,
      toldOfRun options graph script limit = toldUntilEnd options graph script limit ++ farewell ++
        (reached.summary (!reached.isRunning)).map .line ∧
      if reached.isRunning then
        ∃ stuck, farewell = .line limitNotice :: stuck ++ [.line (stopLine graph.id)]
      else farewell = [] := by
  have attends := attends_start graph script options.seconds options.realtime
  have upToDate := upToDate_start graph script options.seconds options.realtime
  obtain ⟨farewell, told, parts⟩ :=
    told_close (attends.play limit) (attends.upToDate_play upToDate limit)
  refine ⟨farewell, ?_, parts⟩
  rw [toldOfRun, told, toldUntilEnd]
  simp only [List.append_assoc]

/-- A line that is told where a run is cut off and is not plain is told nowhere else. -/
theorem line_mem_iff {line : String} (special : ¬ Plain line)
    (last : ∀ stuck : List Cue,
      .line line ∈ .line limitNotice :: stuck ++ [.line (stopLine graph.id)]) (limit : ℕ) :
    .line line ∈ toldOfRun options graph script limit ↔
      (limit : ℕ∞) < (start graph script options.seconds options.realtime).length := by
  obtain ⟨farewell, told, parts⟩ := toldOfRun_eq options graph script limit
  rw [← isRunning_play, told]
  split at parts
  next running =>
    obtain ⟨stuck, rfl⟩ := parts
    exact iff_of_true (List.mem_append_left _ (List.mem_append_right _ (last stuck))) running
  next isOver =>
    refine iff_of_false (fun member => special ?_) isOver
    rw [parts, List.append_nil] at member
    rcases List.mem_append.mp member with before | summed
    · exact plain_of_mem_toldUntilEnd options graph script before
    · obtain ⟨line, member, same⟩ := List.mem_map.mp summed
      cases same
      exact plain_of_mem_summary member

/-- The notice is told where a run is cut off, and nowhere else. -/
theorem limitNotice_mem_iff (limit : ℕ) :
    .line limitNotice ∈ toldOfRun options graph script limit ↔
      (limit : ℕ∞) < (start graph script options.seconds options.realtime).length :=
  line_mem_iff options graph script (fun plain => plain.ne_limitNotice rfl) (by simp) limit

/-- That the run was stopped is told where it is cut off, and nowhere else. -/
theorem stopLine_mem_iff (limit : ℕ) :
    .line (stopLine graph.id) ∈ toldOfRun options graph script limit ↔
      (limit : ℕ∞) < (start graph script options.seconds options.realtime).length :=
  line_mem_iff options graph script (fun plain => plain.ne_stopLine _ rfl) (by simp) limit

theorem toldUntilEnd_prefix {limit more : ℕ} (within : limit ≤ more) :
    toldUntilEnd options graph script limit <+: toldOfRun options graph script more := by
  have attends := attends_start graph script options.seconds options.realtime
  obtain ⟨cues, goesOn, _⟩ := (attends.play limit).tells_play (more - limit)
  rw [← play_add, Nat.add_sub_cancel' within] at goesOn
  have earlier : toldUntilEnd options graph script limit <+:
      toldUntilEnd options graph script more := by
    rw [toldUntilEnd, toldUntilEnd, goesOn]
    exact (List.prefix_append_right_inj _).mpr (List.prefix_append _ _)
  obtain ⟨farewell, told, _⟩ := toldOfRun_eq options graph script more
  rw [told, List.append_assoc]
  exact earlier.trans (List.prefix_append _ _)

/-- What is told under a limit until the notice comes begins what is told under a greater one. -/
theorem untilNotice_prefix {limit more : ℕ} (within : limit ≤ more) :
    untilNotice (toldOfRun options graph script limit) <+: toldOfRun options graph script more := by
  cases running : ((start graph script options.seconds options.realtime).play limit).isRunning with
  | true =>
      obtain ⟨farewell, told, parts⟩ := toldOfRun_eq options graph script limit
      rw [if_pos running] at parts
      obtain ⟨stuck, rfl⟩ := parts
      have before : untilNotice (toldOfRun options graph script limit) =
          toldUntilEnd options graph script limit := by
        have unnoticed : .line limitNotice ∉ toldUntilEnd options graph script limit :=
          fun noticed => (plain_of_mem_toldUntilEnd options graph script noticed).ne_limitNotice rfl
        rw [told, untilNotice, List.append_assoc, List.takeWhile_append_of_pos]
        · simp
        · intro cue member
          exact decide_eq_true fun same => unnoticed (same ▸ member)
      rw [before]
      exact toldUntilEnd_prefix options graph script within
  | false =>
      -- Nothing more is played once the run is over.
      have same : toldOfRun options graph script more = toldOfRun options graph script limit := by
        rw [toldOfRun, toldOfRun, ← Nat.add_sub_cancel' within, play_add, play_of_over running]
      rw [same]
      exact List.takeWhile_prefix _

end

/-- The limit of a run decides how much of it there is, and nothing else. A run is refused if its
ticks cannot last that long, or if its graph or its script cannot be read. Any other run takes the
ticks that it is allowed, or those that it needs if they are fewer. Its summary says so, and so does
its own count. It is cut off if it needs more than it is allowed; then the notice is told and the
run reported as stopped, and only then. And what is told before the notice begins what is told under
any greater limit. Where the timer does not accept the length of the ticks, the run breaks off
before the first one, whatever the limit. -/
theorem limit_only_truncates (disk : Disk) (options : RunOptions) :
    let answer (limit : ℕ) := run disk { options with maxTicks := limit }
    (∃ lines complaint, Refuses disk options lines complaint ∧
      ∀ limit, answer limit = .ofLines lines (.failure complaint)) ∨
    IsPositive options.seconds ∧
    ∃ graph script, loadGraph disk options.file = .ok graph ∧
      loadScript disk options.world = .ok script ∧
      let begun := Playback.start graph script options.seconds options.realtime
      if isPeriod options.seconds then
        (∀ limit,
          let reached := begun.play limit
          let performed := performance script
            (callsOfRun graph script options.seconds options.realtime limit)
          (answer limit).exit = .success ∧
          (reached.ticks : ℕ∞) = min (limit : ℕ∞) begun.length ∧
          reached.player.run.map (·.level.ticks) = some reached.ticks ∧
          (reached.isRunning = true ↔ (limit : ℕ∞) < begun.length) ∧
          ["", "📊 Run Summary:",
            "   Ticks: " ++ toString reached.ticks,
            "   Simulated time: " ++ twoPlaces reached.simulatedSeconds ++ "s",
            "   Finished: " ++ if reached.isRunning then "false" else "true"].map .line <:+
              (answer limit).output ∧
          (.line limitNotice ∈ (answer limit).output ↔ (limit : ℕ∞) < begun.length) ∧
          (.line (stopLine graph.id) ∈ (answer limit).output ↔ (limit : ℕ∞) < begun.length) ∧
          performed.player = reached.close.player ∧
          ((∃ event ∈ performed.events, event.report.isStop = true) ↔
            (limit : ℕ∞) < begun.length)) ∧
        ∀ limit more, limit ≤ more → untilNotice (answer limit).output <+: (answer more).output
      else
        ∀ limit, answer limit =
          { output := (opening options.file graph).map .line ++ begun.told.toList
            written := none
            exit := .abort } := by
  intro answer
  rcases run_cases disk options with refused | ⟨positive, graph, script, loaded, scripted, goesOn⟩
  · exact .inl refused
  · refine .inr ⟨positive, graph, script, loaded, scripted, ?_⟩
    intro begun
    split
    next accepted =>
      have told : ∀ limit, answer limit =
          { output := toldOfRun options graph script limit, written := none,
            exit := .success } := by
        intro limit
        have started := goesOn limit
        simp only [playGraph, if_pos accepted] at started
        exact started
      simp only [told]
      refine ⟨fun limit => ⟨trivial, ?_, ?_, ?_, ?_, ?_, ?_, ?_, ?_⟩, ?_⟩
      · exact (ticks_play limit begun).trans (zero_add _)
      · exact ticks_run graph script options.seconds options.realtime limit
      · exact isRunning_play limit begun
      · obtain ⟨farewell, told, _⟩ := toldOfRun_eq options graph script limit
        have finished : (if (begun.play limit).isRunning then "false" else "true") =
            truthText (!(begun.play limit).isRunning) := by
          cases (begun.play limit).isRunning <;> rfl
        rw [finished, told]
        exact List.suffix_append _ _
      · exact limitNotice_mem_iff options graph script limit
      · exact stopLine_mem_iff options graph script limit
      · exact player_callsOfRun graph script options.seconds options.realtime limit
      · exact isStop_iff graph script options.seconds options.realtime limit
      · exact fun limit more => untilNotice_prefix options graph script
    next refused =>
      intro limit
      have started := goesOn limit
      simp only [playGraph, if_neg refused] at started
      exact started

/-- A graph of a single node. -/
def single : Graph := ⟨"d", [Node.start "a"], []⟩

/-- A disk with one file, which holds the graph. -/
def singleDisk : Disk where
  entry path := if path = "g.json" then .text single.toText else .missing
  refusal? _ := none

theorem loadGraph_singleDisk : loadGraph singleDisk "g.json" = .ok single := by
  have numbers : single.binaries = [] := rfl
  have nests : single.toJson.nesting ≤ Json.nestingLimit := by decide +kernel
  have read : Graph.ofText? single.toText = some single := by
    rw [Graph.ofText?, Graph.toText, Json.ofText?_wideText (single.readBy_toJson _) nests]
    · refine single.ofJson?_toJson ?_
      rw [numbers]
      exact List.forall_mem_nil _
    · rw [numbers]
      exact List.forall_mem_nil _
  simp only [loadGraph, singleDisk, if_pos, read]

/-- Half a nanosecond is a positive length of ticks, but the timer does not accept it. The run of a
single node takes one tick and yet has no summary. -/
theorem too_short_ticks_break_off :
    let options : RunOptions := ⟨"g.json", none, 5e-10, 3, false⟩
    let begun := Playback.start single .empty options.seconds options.realtime
    options.seconds.isFinite = true ∧ 0 < options.seconds ∧
    loadGraph singleDisk options.file = .ok single ∧
    loadScript singleDisk options.world = .ok .empty ∧
    begun.length = 1 ∧
    (run singleDisk options).exit = .abort ∧
    .line "   Ticks: 1" ∉ (run singleDisk options).output := by
  intro options begun
  have broken : run singleDisk options =
      { output := (opening "g.json" single).map .line ++ begun.told.toList
        written := none
        exit := .abort } := by
    have accepted : ¬ (!options.seconds.isFinite || options.seconds ≤ 0) = true := by decide +kernel
    have refused : ¬ isPeriod options.seconds = true := by decide +kernel
    simp only [run, if_neg accepted, loadGraph_singleDisk, options, loadScript, playGraph,
      if_neg refused, opening, begun]
  refine ⟨by decide +kernel, by decide +kernel, loadGraph_singleDisk, rfl, ?_, ?_, ?_⟩
  · rw [length_of_running (by decide +kernel), length_of_over (by decide +kernel)]
    rfl
  · rw [broken]
  · rw [broken]
    decide +kernel

end CommandLine

end SceneFlow
