import SceneFlow.Event.Channel
import SceneFlow.Run.Status

/-!
# Players

A player keeps the world, a channel for events and at most one run. Starting a run gives up the one
before it. A run that is over stays with the player until it is given up, too.
-/

set_option autoImplicit false

namespace SceneFlow

structure PlayerConfig where
  /-- How many events its channel keeps at least. -/
  eventBufferSize : Nat
  /-- Whether a host wants each graph linted before it starts. What is found does not keep a run
  from starting. -/
  validatesOnStart : Bool
deriving DecidableEq

namespace PlayerConfig

def standard : PlayerConfig := ⟨1000, true⟩

end PlayerConfig

structure Player (σ : Type) where
  config : PlayerConfig
  world : Option σ
  channel : Channel
  run : Option Run
  /-- How many runs were started. -/
  started : Nat

namespace Player

variable {σ : Type}

/-- A player that has not started a run yet. Without a world, nodes that need one are done at
once. -/
def ofConfig (config : PlayerConfig) (world : Option σ) : Player σ :=
  { config, world, channel := .ofSize config.eventBufferSize, run := none, started := 0 }

def send (player : Player σ) (events : List Event) : Player σ :=
  { player with channel := player.channel.sendAll events }

/-- Gives up the run, if there is one. -/
def stop (player : Player σ) : Player σ :=
  match player.run with
  | none => player
  | some run => { player with run := none }.send [run.stoppedReport]

theorem run_stop (player : Player σ) : player.stop.run = none := by
  unfold stop
  cases current : player.run with
  | none => exact current
  | some run => rfl

theorem world_stop (player : Player σ) : player.stop.world = player.world := by
  unfold stop
  cases player.run <;> rfl

theorem started_stop (player : Player σ) : player.stop.started = player.started := by
  unfold stop
  cases player.run <;> rfl

/-- Starts a run of a graph in place of the one before it, and tells its identity. -/
def start [World σ] (graph : Graph) (player : Player σ) : RunId × Player σ :=
  let player := player.stop
  let id := RunId.outermost player.started
  let (run, events) := Run.start player.world id graph
  (id, { player with run := some run, started := player.started + 1 }.send events)

def tick [World σ] (seconds : Float32) (player : Player σ) : Player σ :=
  match player.run with
  | none => player
  | some run =>
      let ticked := run.tick seconds player.world
      { player with run := some ticked.run, world := ticked.world }.send ticked.events

def signal (trigger : String) (player : Player σ) : Nat × Player σ :=
  match player.run with
  | none => (0, player)
  | some run =>
      let signalled := run.signal trigger
      (signalled.woken, { player with run := some signalled.run }.send signalled.events)

def isRunning (player : Player σ) : Bool :=
  player.run.any (!·.isFinished)

def graph? (player : Player σ) : Option Graph :=
  player.run.map (·.level.graph)

def current? (player : Player σ) : Option Instance :=
  player.run.bind (·.level.current?)

def nodeStatuses [World σ] (player : Player σ) : List NodeStatus :=
  (player.run.map (·.nodeStatuses player.world)).getD []

def subscribe (player : Player σ) : Nat × Player σ :=
  let (subscriber, channel) := player.channel.subscribe
  (subscriber, { player with channel })

def drain (subscriber : Nat) (player : Player σ) : Delivery × Player σ :=
  let (delivery, channel) := player.channel.drain subscriber
  (delivery, { player with channel })

end Player

end SceneFlow
