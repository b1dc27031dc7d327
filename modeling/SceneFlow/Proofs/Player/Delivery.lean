import SceneFlow.Proofs.Event.Channel
import SceneFlow.Proofs.Player.Endings
import SceneFlow.Proofs.Run.Volume

/-!
# Delivery

No call makes a player send more than four events for each level that its graphs can nest, and three
besides. A channel with room for that many never overtakes a subscriber who receives what there is
after each call. A channel with less room skips events, but brings none twice. So what subscribers
learn of the end of a run is what was reported of it.
-/

set_option autoImplicit false

namespace SceneFlow

namespace Player

variable {σ : Type} [World σ]

section SameRun

variable {player other : Player σ}

omit [World σ] in
/-- The players differ in their channels alone. -/
def SameRun (player other : Player σ) : Prop :=
  other = { player with channel := other.channel }

theorem SameRun.sends (same : player.SameRun other) (call : Call σ) :
    other.sends call = player.sends call := by
  rw [same]
  cases call <;> rfl

theorem SameRun.perform (same : player.SameRun other) (call : Call σ) :
    (player.perform call).SameRun (other.perform call) := by
  rw [same]
  obtain ⟨config, world, channel, run, started⟩ := player
  cases call with
  | start graph => cases run <;> rfl
  | tick seconds => cases run <;> rfl
  | signal trigger => cases run <;> rfl
  | stop => cases run <;> rfl
  | subscribe | drain | change => rfl

theorem SameRun.drain (same : player.SameRun other) (subscriber : Nat) :
    player.SameRun (other.perform (.drain subscriber)) := by
  rw [same]
  rfl

end SameRun

omit [World σ] in
/-- The run in progress, if there is one, is an outermost one of a graph that nests no deeper. -/
def Nests (reach : Nat) (player : Player σ) : Prop :=
  ∀ run, player.run = some run →
    run.Sound ∧ run.level.id.depth = 0 ∧ run.level.graph.nesting ≤ reach

variable {reach : Nat} {player : Player σ} {call : Call σ}

theorem Nests.perform (nests : player.Nests reach)
    (started : ∀ graph, call = .start graph → graph.nesting ≤ reach) :
    (player.perform call).Nests reach := by
  intro after current
  cases call with
  | start graph =>
      have same : (player.perform (.start graph)).run =
          some (Run.start player.stop.world (.outermost player.stop.started) graph).1 := rfl
      cases same.symm.trans current
      refine ⟨Run.sound_start _ _ graph, ?_⟩
      rw [Run.level_start, Level.id_begin, Level.graph_begin]
      exact ⟨rfl, started graph rfl⟩
  | tick seconds =>
      change (player.tick seconds).run = some after at current
      unfold tick at current
      cases before : player.run with
      | none => simp [before] at current
      | some run =>
          obtain ⟨sound, outermost, shallow⟩ := nests run before
          simp only [before, send, Option.some.injEq] at current
          subst current
          have step := sound.tickStep seconds (run.tick seconds player.world).world
          have sameId := step.id_eq
          have sameGraph := step.graph_eq
          exact ⟨sound.advance seconds _, (congrArg RunId.depth sameId).trans outermost,
            Nat.le_trans (Nat.le_of_eq (congrArg Graph.nesting sameGraph)) shallow⟩
  | signal trigger =>
      change (player.signal trigger).2.run = some after at current
      unfold signal at current
      cases before : player.run with
      | none => simp [before] at current
      | some run =>
          obtain ⟨sound, outermost, shallow⟩ := nests run before
          simp only [before, send, Option.some.injEq] at current
          subst current
          refine ⟨sound.signal trigger, ?_⟩
          rw [Run.level_signal, Level.id_signal, Level.graph_signal]
          exact ⟨outermost, shallow⟩
  | stop =>
      have nothing : (player.perform (.stop : Call σ)).run = none := run_stop player
      cases nothing.symm.trans current
  | subscribe | drain | change => exact nests after current

/-! ## How much a call sends -/

omit [World σ] in
theorem length_stopReport_le (player : Player σ) : player.stopReport.length ≤ 1 := by
  unfold stopReport
  cases player.run <;> simp

theorem Nests.volume_tick (nests : player.Nests reach) (seconds : Float32) :
    Run.Volume 0 reach 2 4 (player.sends (.tick seconds)) := by
  unfold sends
  cases current : player.run with
  | none => exact .nil
  | some run =>
      obtain ⟨sound, outermost, shallow⟩ := nests run current
      have step := sound.advances seconds (run.tick seconds player.world).world
      have volume := step.volume.any
      rw [outermost] at volume
      exact volume.mono shallow (Nat.le_refl _) (Nat.le_refl _)

theorem Nests.length_sends_le (nests : player.Nests reach)
    (started : ∀ graph, call = .start graph → graph.nesting ≤ reach) :
    (player.sends call).length ≤ 4 * reach + 3 := by
  cases call with
  | start graph =>
      have stopped := length_stopReport_le player
      have volume := Run.volume_start player.world (.outermost player.started) graph
      have length := (volume.mono (started graph rfl) (Nat.le_refl _) (Nat.le_refl _)).length_le
      simp only [sends, List.length_append]
      omega
  | tick seconds =>
      have length := (nests.volume_tick seconds).length_le
      omega
  | signal trigger =>
      unfold sends
      cases player.run <;> simp [Run.signal]
  | stop =>
      have stopped := length_stopReport_le player
      simp only [sends]
      omega
  | subscribe | drain | change => exact Nat.zero_le _

/-! ## Subscribers who receive after each call -/

theorem capacity_perform (player : Player σ) (call : Call σ) :
    (player.perform call).channel.capacity = player.channel.capacity := by
  rw [channel_perform]
  cases call with
  | subscribe => rfl
  | drain other => exact Channel.capacity_drain _ other
  | start | tick | signal | stop | change => exact Channel.capacity_sendAll _ _

/-- Whatever a call does to the channel besides sending, it neither loses events nor subscribers. -/
theorem exists_channel_perform (player : Player σ) (call : Call σ) :
    ∃ channel : Channel, channel.kept = player.channel.kept ∧
      player.channel.positions.length ≤ channel.positions.length ∧
      (player.perform call).channel = channel.sendAll (player.sends call) := by
  have effect := channel_perform player call
  cases call with
  | subscribe =>
      refine ⟨player.channel.subscribe.2, rfl, ?_, effect⟩
      simp [Channel.subscribe]
  | drain subscriber =>
      obtain ⟨positions, same, drained⟩ := Channel.drain_eq player.channel subscriber
      exact ⟨{ player.channel with positions }, rfl, Nat.le_of_eq same.symm, effect.trans drained⟩
  | start | tick | signal | stop | change => exact ⟨player.channel, rfl, Nat.le_refl _, effect⟩

/-- Whatever a call does to the channel besides sending, it leaves a subscriber up to date. -/
theorem channel_perform_upToDate {subscriber : Nat}
    (upToDate : player.channel.UpToDate subscriber) (call : Call σ) :
    ∃ channel : Channel, channel.UpToDate subscriber ∧
      channel.capacity = player.channel.capacity ∧
      (player.perform call).channel = channel.sendAll (player.sends call) := by
  have effect := channel_perform player call
  cases call with
  | subscribe => exact ⟨_, upToDate.subscribe, rfl, effect⟩
  | drain other =>
      exact ⟨_, upToDate.drain_any other, Channel.capacity_drain _ other, effect⟩
  | start | tick | signal | stop | change => exact ⟨_, upToDate, rfl, effect⟩

omit [World σ] in
/-- The subscriber has received everything, and there is room for what any call can send. -/
structure KeepsUp (reach subscriber : Nat) (player : Player σ) : Prop where
  upToDate : player.channel.UpToDate subscriber
  room : 4 * reach + 3 ≤ player.channel.capacity
  nests : player.Nests reach

theorem KeepsUp.receive {subscriber : Nat} (keepsUp : player.KeepsUp reach subscriber)
    (call : Call σ) (started : ∀ graph, call = .start graph → graph.nesting ≤ reach) :
    ((player.perform call).drain subscriber).1 = ⟨0, player.sends call⟩ ∧
      ((player.perform call).drain subscriber).2.KeepsUp reach subscriber := by
  obtain ⟨upToDate, room, nests⟩ := keepsUp
  obtain ⟨channel, ready, sameCapacity, effect⟩ := channel_perform_upToDate upToDate call
  have length := nests.length_sends_le started
  obtain ⟨delivered, upToDate⟩ := ready.drain_sendAll (player.sends call) (by omega)
  rw [← effect] at delivered upToDate
  refine ⟨delivered, upToDate, ?_, nests.perform started⟩
  have kept : ((player.perform call).drain subscriber).2.channel.capacity =
      player.channel.capacity :=
    (Channel.capacity_drain _ subscriber).trans (capacity_perform player call)
  omega

end Player

namespace Performance

variable {σ : Type} [World σ]

/-- The calls, with a subscriber who receives what there is after each of them: what it receives
each time, and what has become of the player. -/
def follow (subscriber : Nat) (performance : Performance σ) :
    List (Call σ) → List Delivery × Performance σ
  | [] => ([], performance)
  | call :: rest =>
      let told := performance.perform call
      let (delivery, _) := told.player.drain subscriber
      let (deliveries, last) := (told.perform (.drain subscriber)).follow subscriber rest
      (delivery :: deliveries, last)

theorem follow_of_keepsUp {reach subscriber : Nat} {performance : Performance σ}
    (keepsUp : performance.player.KeepsUp reach subscriber) {calls : List (Call σ)}
    (nested : ∀ graph, .start graph ∈ calls → graph.nesting ≤ reach) :
    (∀ delivery ∈ (performance.follow subscriber calls).1, delivery.missed = 0) ∧
      (performance.follow subscriber calls).2.events =
        performance.events ++ (performance.follow subscriber calls).1.flatMap (·.events) := by
  induction calls generalizing performance with
  | nil => simp [follow]
  | cons call rest ih =>
      obtain ⟨delivered, keepsUp⟩ := keepsUp.receive call fun graph started =>
        nested graph (started ▸ .head _)
      have ready : ((performance.perform call).perform (.drain subscriber)).player.KeepsUp reach
        subscriber := keepsUp
      obtain ⟨full, events⟩ := ih ready fun graph started => nested graph (.tail _ started)
      have received : ((performance.perform call).player.drain subscriber).1 =
        ⟨0, performance.player.sends call⟩ := delivered
      simp only [follow, received, List.forall_mem_cons, List.flatMap_cons, events]
      refine ⟨⟨trivial, full⟩, ?_⟩
      simp [perform, Player.sends]

/-- What a subscriber does changes nothing of what is reported. -/
theorem events_follow {subscriber : Nat} {performance other : Performance σ}
    (same : performance.player.SameRun other.player) (told : other.events = performance.events)
    (calls : List (Call σ)) :
    (other.follow subscriber calls).2.events = (calls.foldl perform performance).events := by
  induction calls generalizing performance other with
  | nil => exact told
  | cons call rest ih =>
      refine ih ((same.perform call).drain subscriber) ?_
      have silent : ((other.perform call).perform (.drain subscriber)).events =
          (other.perform call).events := List.append_nil _
      rw [silent, perform, perform, told, same.sends]

/-- A subscriber who receives what there is after each call receives nothing twice, and nothing that
was not reported. -/
theorem follow_sublist {subscriber : Nat} {performance : Performance σ}
    (upToDate : performance.player.channel.UpToDate subscriber) (calls : List (Call σ)) :
    ∃ new, (performance.follow subscriber calls).2.events = performance.events ++ new ∧
      ((performance.follow subscriber calls).1.flatMap (·.events)).Sublist new := by
  induction calls generalizing performance with
  | nil => exact ⟨[], (List.append_nil _).symm, .slnil⟩
  | cons call rest ih =>
      obtain ⟨channel, ready, _, effect⟩ := Player.channel_perform_upToDate upToDate call
      have received := ready.events_drain_sendAll (performance.player.sends call)
      have drained := ready.drain_again (performance.player.sends call)
      rw [← effect] at received drained
      have again : ((performance.perform call).perform
        (.drain subscriber)).player.channel.UpToDate subscriber := drained
      obtain ⟨later, events, fewer⟩ := ih again
      refine ⟨performance.player.sends call ++ later, ?_, received.sublist.append fewer⟩
      simpa [follow, perform, Player.sends] using events

theorem nests (config : PlayerConfig) (world : Option σ) {reach : Nat} {calls : List (Call σ)}
    (nested : ∀ graph, .start graph ∈ calls → graph.nesting ≤ reach) :
    (after config world calls).player.Nests reach := by
  induction calls using List.reverseRecOn with
  | nil => exact nofun
  | append_singleton calls call ih =>
      rw [after_append]
      have before := ih fun graph started => nested graph (List.mem_append_left _ started)
      apply before.perform
      rintro graph rfl
      exact nested graph (List.mem_append_right _ (List.mem_singleton.mpr rfl))

theorem exists_nests (config : PlayerConfig) (world : Option σ) (calls : List (Call σ)) :
    ∃ reach, (after config world calls).player.Nests reach := by
  have accounted := accounted config world calls
  cases current : (after config world calls).player.run with
  | none => exact ⟨0, fun run present => absurd (current.symm.trans present) nofun⟩
  | some run =>
      obtain ⟨sound, _, _, _, identity⟩ := accounted.current run current
      refine ⟨run.level.graph.nesting, fun other present => ?_⟩
      cases current.symm.trans present
      exact ⟨sound, congrArg RunId.depth identity, Nat.le_refl _⟩

theorem capacity_after (config : PlayerConfig) (world : Option σ) (calls : List (Call σ)) :
    (after config world calls).player.channel.capacity =
      (Channel.ofSize config.eventBufferSize).capacity := by
  induction calls using List.reverseRecOn with
  | nil => rfl
  | append_singleton calls call ih =>
      rw [after_append, ← ih]
      exact Player.capacity_perform _ call

theorem keepsUp_subscribe (config : PlayerConfig) (world : Option σ) {reach : Nat}
    (room : 4 * reach + 3 ≤ config.eventBufferSize) {calls : List (Call σ)}
    (nested : ∀ graph, .start graph ∈ calls → graph.nesting ≤ reach) :
    ((after config world calls).perform .subscribe).player.KeepsUp reach
      (after config world calls).player.subscribe.1 := by
  refine ⟨(after config world calls).player.channel.upToDate_subscribe, ?_,
    nests config world nested⟩
  change 4 * reach + 3 ≤ (after config world calls).player.channel.capacity
  rw [capacity_after]
  exact Nat.le_trans room (Channel.size_le_capacity_ofSize _)

/-- A subscriber who receives what there is after each call receives everything that is sent, in
order, and never learns that it missed something, if the channel has room for three events and four
more for each level that the graphs can nest. A tick never sends more than two events of the
outermost run and four from any depth below. -/
theorem delivered_in_full (config : PlayerConfig) (world : Option σ) (reach : Nat)
    (room : 4 * reach + 3 ≤ config.eventBufferSize) (before later : List (Call σ))
    (nested : ∀ graph, .start graph ∈ before ++ later → graph.nesting ≤ reach) :
    let begun := after config world before
    let subscriber := begun.player.subscribe.1
    let followed := (begun.perform .subscribe).follow subscriber later
    (∀ delivery ∈ followed.1, delivery.missed = 0) ∧
    followed.2.events = begun.events ++ followed.1.flatMap (·.events) ∧
    ∀ (calls : List (Call σ)) (seconds : Float32),
      let sent := (after config world calls).player.sends (.tick seconds)
      sent.countP (·.depth = 0) ≤ 2 ∧ ∀ depth, 0 < depth → sent.countP (·.depth = depth) ≤ 4 := by
  intro begun subscriber followed
  have keepsUp : (begun.perform .subscribe).player.KeepsUp reach subscriber :=
    keepsUp_subscribe config world room fun graph started =>
      nested graph (List.mem_append_left _ started)
  obtain ⟨full, events⟩ := follow_of_keepsUp keepsUp fun graph started =>
    nested graph (List.mem_append_right _ started)
  refine ⟨full, ?_, fun calls seconds => ?_⟩
  · have silent : (begun.perform .subscribe).events = begun.events := List.append_nil _
    rwa [silent] at events
  · obtain ⟨reach, nests⟩ := exists_nests config world calls
    have volume := nests.volume_tick seconds
    exact ⟨volume.own, volume.deeper⟩

theorem delivered_hostFirst :
    let config : PlayerConfig := ⟨7, true⟩
    let calls : List (Call EmptyWorld) := [.start Session.hostFirst, .tick 0, .stop]
    let followed := ((after config none []).perform .subscribe).follow 0 calls
    4 * 1 + 3 ≤ config.eventBufferSize ∧
      (∀ graph, .start graph ∈ calls → graph.nesting ≤ 1) ∧
      (∀ delivery ∈ followed.1, delivery.missed = 0) ∧
      followed.2.events = followed.1.flatMap (·.events) := by
  intro config calls followed
  have room : 4 * 1 + 3 ≤ config.eventBufferSize := by decide
  have nested : ∀ graph, .start graph ∈ calls → graph.nesting ≤ 1 := by
    intro graph started
    simp only [calls, List.mem_cons, Call.start.injEq, reduceCtorEq, List.not_mem_nil, or_false]
      at started
    rw [started]
    decide
  obtain ⟨full, events, _⟩ :=
    delivered_in_full config none 1 room ([] : List (Call EmptyWorld)) calls nested
  exact ⟨room, nested, full, events⟩

/-! ## What is received of the end of a run -/

/-- The end of a run is reported once at most, unless the run was over already when it was given up:
then it is reported to have finished and, after that, to have been stopped. Whoever subscribes at
the beginning and receives what there is after each call learns of no end that was not reported, and
of all ends if the channel has room. -/
theorem ends_once_unless_given_up_late (config : PlayerConfig) (world : Option σ)
    (calls : List (Call σ)) (id : RunId) :
    let reports := Run.endings id (after config world calls).events
    let begun := after config world []
    let followed := (begun.perform .subscribe).follow begun.player.subscribe.1 calls
    let received := Run.endings id (followed.1.flatMap (·.events))
    (¬ GivenUpLate config world calls id → reports.length ≤ 1) ∧
    (GivenUpLate config world calls id →
      ∃ graph ticks, reports = [.runFinished graph ticks, .runStopped graph]) ∧
    received.Sublist reports ∧
    ∀ reach, 4 * reach + 3 ≤ config.eventBufferSize →
      (∀ graph, .start graph ∈ calls → graph.nesting ≤ reach) → received = reports := by
  intro reports begun followed received
  have accounted := accounted config world calls
  have nothing : (begun.perform .subscribe).events = [] := rfl
  have same : begun.player.SameRun (begun.perform .subscribe).player := rfl
  have told : followed.2.events = (after config world calls).events :=
    events_follow same nothing calls
  refine ⟨accounted.once id, accounted.twice id, ?_, fun reach room nested => ?_⟩
  · have upToDate : (begun.perform .subscribe).player.channel.UpToDate begun.player.subscribe.1 :=
      begun.player.channel.upToDate_subscribe
    obtain ⟨new, events, fewer⟩ := follow_sublist upToDate calls
    rw [nothing, List.nil_append] at events
    rw [← events, told] at fewer
    exact Run.endings_sublist fewer id
  · have keepsUp : (begun.perform .subscribe).player.KeepsUp reach begun.player.subscribe.1 :=
      keepsUp_subscribe config world room (by simp)
    obtain ⟨_, events⟩ := follow_of_keepsUp keepsUp nested
    rw [nothing, List.nil_append] at events
    exact congrArg (Run.endings id) (events.symm.trans told)

/-- A run that ends in its first tick and is stopped after that has ended twice. -/
theorem not_once_of_stop_after_end :
    ¬ ∀ (calls : List (Call EmptyWorld)) (id : RunId),
      (Run.endings id (after .standard none calls).events).length ≤ 1 := by
  intro once
  have twice := once [.start ⟨"short", [Node.start "open"], []⟩, .tick 0, .stop] (.outermost 0)
  revert twice
  decide +kernel

end Performance

end SceneFlow
