import SceneFlow.Event.Basic

/-!
# Event channels

A channel carries events to any number of subscribers. It keeps the newest events up to its
capacity, and each subscriber has a position in the stream. Who falls behind further than the
channel reaches back learns how many events are lost and goes on with the oldest one kept. Events
that are sent while nobody has subscribed are not part of the stream.
-/

set_option autoImplicit false

namespace SceneFlow

-- Powers are those of the core library, whatever else is imported.
attribute [local instance (high)] instPowNat

structure Channel where
  capacity : Nat
  /-- How many events were sent so far. -/
  sent : Nat
  /-- The events kept, the newest first. -/
  kept : List Event
  /-- How many events had been sent when each subscriber was up to date last. -/
  positions : List Nat

structure Delivery where
  /-- How many events came too early to be kept. -/
  missed : Nat
  events : List Event

namespace Channel

/-- The least power of two that reaches `size`. -/
def powerOfTwoFrom (size : Nat) : Nat :=
  if size ≤ 1 then 1 else 2 ^ ((size - 1).log2 + 1)

theorem le_powerOfTwoFrom (size : Nat) : size ≤ powerOfTwoFrom size := by
  unfold powerOfTwoFrom
  split
  · assumption
  · have reached := Nat.lt_log2_self (n := size - 1)
    omega

/-- A channel for at least `size` events. Capacities are powers of two. -/
def ofSize (size : Nat) : Channel :=
  { capacity := powerOfTwoFrom size, sent := 0, kept := [], positions := [] }

/-- Adds a subscriber, whose number is the count of those before. It receives what is sent from now
on. -/
def subscribe (channel : Channel) : Nat × Channel :=
  (channel.positions.length, { channel with positions := channel.positions ++ [channel.sent] })

def send (channel : Channel) (event : Event) : Channel :=
  if channel.positions.isEmpty then channel
  else
    { channel with
      sent := channel.sent + 1
      kept := (event :: channel.kept).take channel.capacity }

def sendAll (channel : Channel) (events : List Event) : Channel :=
  events.foldl send channel

/-- What a subscriber at some position has still to receive. -/
def pending (channel : Channel) (position : Nat) : Delivery :=
  let oldest := channel.sent - channel.kept.length
  { missed := oldest - position
    events := (channel.kept.take (channel.sent - position)).reverse }

/-- Delivers everything pending to a subscriber; nothing to one that does not exist. -/
def drain (channel : Channel) (subscriber : Nat) : Delivery × Channel :=
  match channel.positions[subscriber]? with
  | none => (⟨0, []⟩, channel)
  | some position =>
      (channel.pending position,
        { channel with positions := channel.positions.set subscriber channel.sent })

end Channel

end SceneFlow
