import SceneFlow.Event.Channel

/-!
# Subscribers that keep up

A subscriber that has received everything sent so far misses nothing of what is sent next, provided
the channel has room for all of it. It receives exactly that, in order, and is up to date again.
Without the room it receives the last of it.
-/

set_option autoImplicit false

namespace SceneFlow

namespace Channel

theorem size_le_capacity_ofSize (size : Nat) : size ≤ (ofSize size).capacity :=
  le_powerOfTwoFrom size

theorem capacity_ofSize_pos (size : Nat) : 0 < (ofSize size).capacity := by
  change 0 < powerOfTwoFrom size
  unfold powerOfTwoFrom
  split
  · exact Nat.one_pos
  · exact Nat.two_pow_pos _

/-! ## Sending -/

@[simp] theorem capacity_send (channel : Channel) (event : Event) :
    (channel.send event).capacity = channel.capacity := by
  unfold send
  split <;> rfl

@[simp] theorem positions_send (channel : Channel) (event : Event) :
    (channel.send event).positions = channel.positions := by
  unfold send
  split <;> rfl

@[simp] theorem capacity_sendAll (channel : Channel) (events : List Event) :
    (channel.sendAll events).capacity = channel.capacity := by
  induction events generalizing channel with
  | nil => rfl
  | cons event rest ih =>
      have later := ih (channel.send event)
      simpa [sendAll] using later

@[simp] theorem positions_sendAll (channel : Channel) (events : List Event) :
    (channel.sendAll events).positions = channel.positions := by
  induction events generalizing channel with
  | nil => rfl
  | cons event rest ih =>
      have later := ih (channel.send event)
      simpa [sendAll] using later

section Heard

variable {channel : Channel}

theorem positions_send_ne_nil (heard : channel.positions ≠ []) (event : Event) :
    (channel.send event).positions ≠ [] := by
  rwa [positions_send]

/-- What is sent while somebody listens counts, and the newest part of it is kept. -/
theorem send_of_heard (heard : channel.positions ≠ []) (event : Event) :
    channel.send event =
      { channel with
        sent := channel.sent + 1
        kept := (event :: channel.kept).take channel.capacity } := by
  simp only [send, List.isEmpty_eq_false_iff.mpr heard, Bool.false_eq_true, if_false]

theorem sent_sendAll (heard : channel.positions ≠ []) (events : List Event) :
    (channel.sendAll events).sent = channel.sent + events.length := by
  induction events generalizing channel with
  | nil => rfl
  | cons event rest ih =>
      have total := ih (positions_send_ne_nil heard event)
      rw [send_of_heard heard] at total
      simp only [sendAll, List.foldl_cons, List.length_cons, send_of_heard heard] at total ⊢
      omega

/-- A channel with a subscriber keeps what it was sent last, as far as it has room. -/
theorem newest_send (heard : channel.positions ≠ []) {newest : List Event}
    (event : Event) (kept : newest.reverse <+: channel.kept)
    (fits : newest.length < channel.capacity) :
    (newest ++ [event]).reverse <+: (channel.send event).kept := by
  obtain ⟨older, kept⟩ := kept
  rw [send_of_heard heard]
  simp only [← kept, List.reverse_append, List.reverse_singleton, List.singleton_append]
  rw [← List.cons_append, List.prefix_take_iff]
  exact ⟨List.prefix_append _ _, by simp; omega⟩

theorem newest_sendAll (heard : channel.positions ≠ []) (newest : List Event)
    (events : List Event) (kept : newest.reverse <+: channel.kept)
    (fits : newest.length + events.length ≤ channel.capacity) :
    (newest ++ events).reverse <+: (channel.sendAll events).kept := by
  induction events generalizing channel newest with
  | nil => simpa [sendAll] using kept
  | cons event rest ih =>
      rw [List.length_cons] at fits
      have newer := newest_send heard event kept (by omega)
      have fits' : (newest ++ [event]).length + rest.length ≤ (channel.send event).capacity := by
        simp only [List.length_append, List.length_singleton, capacity_send]
        omega
      have all := ih (positions_send_ne_nil heard event) (newest ++ [event]) newer fits'
      simpa [sendAll] using all

/-- Nothing gets in between what is kept. -/
theorem kept_sendAll (heard : channel.positions ≠ []) (events : List Event) :
    (channel.sendAll events).kept <+: events.reverse ++ channel.kept := by
  induction events generalizing channel with
  | nil => exact List.prefix_rfl
  | cons event rest ih =>
      have later := ih (positions_send_ne_nil heard event)
      have first : (channel.send event).kept <+: event :: channel.kept := by
        rw [send_of_heard heard]
        exact List.take_prefix _ _
      rw [List.reverse_cons, List.append_assoc, List.singleton_append]
      exact later.trans ((List.prefix_append_right_inj _).mpr first)

end Heard

/-! ## Receiving -/

/-- Receiving changes positions alone. -/
theorem drain_eq (channel : Channel) (subscriber : Nat) :
    ∃ positions, positions.length = channel.positions.length ∧
      (channel.drain subscriber).2 = { channel with positions } := by
  unfold drain
  split
  · exact ⟨channel.positions, rfl, rfl⟩
  · exact ⟨_, List.length_set, rfl⟩

theorem mem_kept_of_mem_drain {channel : Channel} {subscriber : Nat} {event : Event}
    (received : event ∈ (channel.drain subscriber).1.events) : event ∈ channel.kept := by
  unfold drain at received
  split at received
  · cases received
  · exact List.mem_of_mem_take (List.mem_reverse.mp received)

theorem capacity_drain (channel : Channel) (subscriber : Nat) :
    (channel.drain subscriber).2.capacity = channel.capacity := by
  obtain ⟨_, _, whole⟩ := drain_eq channel subscriber
  rw [whole]

/-- The subscriber has received all that was sent. -/
def UpToDate (channel : Channel) (subscriber : Nat) : Prop :=
  channel.positions[subscriber]? = some channel.sent

theorem upToDate_subscribe (channel : Channel) :
    channel.subscribe.2.UpToDate channel.subscribe.1 := by
  simp [UpToDate, subscribe]

theorem upToDate_drain {channel : Channel} {subscriber : Nat}
    (subscribed : subscriber < channel.positions.length) :
    (channel.drain subscriber).2.UpToDate subscriber := by
  simp [UpToDate, drain, subscribed]

namespace UpToDate

variable {channel : Channel} {subscriber : Nat} (upToDate : channel.UpToDate subscriber)
include upToDate

theorem lt_length : subscriber < channel.positions.length :=
  (List.getElem?_eq_some_iff.mp upToDate).1

theorem heard : channel.positions ≠ [] :=
  List.ne_nil_of_length_pos (Nat.zero_lt_of_lt upToDate.lt_length)

/-- Whoever subscribes later takes nothing from those who have subscribed. -/
theorem subscribe : channel.subscribe.2.UpToDate subscriber := by
  have inside := upToDate.lt_length
  unfold UpToDate at upToDate ⊢
  simpa [Channel.subscribe, List.getElem?_append_left inside] using upToDate

theorem drain_any (other : Nat) : (channel.drain other).2.UpToDate subscriber := by
  unfold Channel.drain
  split
  · exact upToDate
  · simp only [UpToDate, List.getElem?_set]
    split
    next same =>
      subst same
      simp [upToDate.lt_length]
    next => exact upToDate

theorem position_sendAll (events : List Event) :
    (channel.sendAll events).positions[subscriber]? = some channel.sent := by
  rw [Channel.positions_sendAll]
  exact upToDate

theorem drain_again (events : List Event) :
    ((channel.sendAll events).drain subscriber).2.UpToDate subscriber := by
  apply upToDate_drain
  rw [Channel.positions_sendAll]
  exact upToDate.lt_length

/-- What fits into the channel is received in full, in order, and without a gap before it. -/
theorem drain_sendAll (events : List Event) (fits : events.length ≤ channel.capacity) :
    ((channel.sendAll events).drain subscriber).1 = ⟨0, events⟩ ∧
      ((channel.sendAll events).drain subscriber).2.UpToDate subscriber := by
  obtain ⟨older, kept⟩ := newest_sendAll upToDate.heard [] events List.nil_prefix
    (by simpa using fits)
  have sent := sent_sendAll upToDate.heard events
  have position := upToDate.position_sendAll events
  have since : channel.sent + events.length - channel.sent = events.reverse.length := by simp
  have total : (channel.sendAll events).kept.length = events.length + older.length := by
    simp [← kept]
  refine ⟨?_, upToDate.drain_again events⟩
  simp only [drain, position, pending, sent, since]
  rw [total, ← kept, List.nil_append, List.take_left, List.reverse_reverse]
  congr
  omega

/-- However much was sent, what is received is the last of it. -/
theorem events_drain_sendAll (events : List Event) :
    ((channel.sendAll events).drain subscriber).1.events <:+ events := by
  have sent := sent_sendAll upToDate.heard events
  have position := upToDate.position_sendAll events
  have since : channel.sent + events.length - channel.sent = events.reverse.length := by simp
  have newest : (channel.sendAll events).kept.take events.reverse.length <+: events.reverse := by
    have among := List.prefix_take_iff.mpr
      ⟨(List.take_prefix events.reverse.length _).trans (kept_sendAll upToDate.heard events),
        List.length_take_le _ _⟩
    rwa [List.take_left] at among
  simp only [drain, position, pending, sent, since]
  rw [← List.reverse_prefix, List.reverse_reverse]
  exact newest

end UpToDate

end Channel

end SceneFlow
