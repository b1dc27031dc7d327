import SceneFlow.Number.Places
import SceneFlow.Player
import SceneFlow.World.Scripted

/-!
# Playing a graph back

A graph is played against a scripted world: tick after tick the world's time passes, the run
advances and the triggers that are due are signalled. What happens is told in lines of text, in the
order in which it happens. The number of ticks is limited, and a run that is not over by then is
stopped.
-/

set_option autoImplicit false

namespace SceneFlow

/-- What a command does to its output: it writes a line, or it lets one tick's time pass. -/
inductive Cue where
  | line (text : String)
  | pause
deriving DecidableEq

structure Playback where
  player : Player ScriptedWorld
  /-- The subscription by which events are told. -/
  subscriber : Nat
  script : Script
  seconds : Float32
  /-- Whether ticks take as long as they last. -/
  realtime : Bool
  ticks : Nat
  told : Array Cue

namespace Playback

/-! ## Lines -/

def commandLine : Command → String
  | .play sequence => "     💬 play dialogue '" ++ sequence ++ "'"
  | .activate objective => "     🎯 objective '" ++ objective ++ "' activated"
  | .complete objective => "     🏁 objective '" ++ objective ++ "' completed"

/-- The line that tells of an event, two blanks in for every level. Nothing is told of nodes that
are left and of signals, which are told where they are given. -/
def eventLine? (event : Event) : Option String :=
  let lead := "".pushn ' ' (2 * (event.depth + 1))
  match event.report with
  | .runStarted graph => some (lead ++ "▶️  Graph '" ++ graph ++ "' started")
  | .nodeEntered node type tick =>
      some (lead ++ "⚡ [" ++ toString tick ++ "] " ++ type.name ++ " '" ++ node ++ "'")
  | .runFinished graph ticks =>
      some (lead ++ "✨ Graph '" ++ graph ++ "' finished after " ++ toString ticks ++ " ticks")
  | .runStopped graph => some (lead ++ "💥 Graph '" ++ graph ++ "' stopped")
  | .nodeExited .. | .triggerSignalled .. => none

def deliveryLines (delivery : Delivery) : List String :=
  (if delivery.missed = 0 then []
   else ["  (skipped " ++ toString delivery.missed ++ " events)"]) ++
    delivery.events.filterMap eventLine?

def signalLine (trigger : String) (tick woken : Nat) : String :=
  "  🔔 Trigger '" ++ trigger ++ "' after tick " ++ toString tick ++ " woke " ++ toString woken ++
    " node(s)"

/-! ## Steps -/

def tell (lines : List String) (playback : Playback) : Playback :=
  { playback with told := playback.told ++ (lines.map Cue.line).toArray }

def tellEvents (playback : Playback) : Playback :=
  let (delivery, player) := playback.player.drain playback.subscriber
  { playback with player }.tell (deliveryLines delivery)

def tellCommands (playback : Playback) : Playback :=
  match playback.player.world with
  | none => playback
  | some world =>
      let (journal, world) := world.takeJournal
      { playback with player := { playback.player with world := some world } }.tell
        (journal.map commandLine)

def start (graph : Graph) (script : Script) (seconds : Float32) (realtime : Bool) : Playback :=
  let player := Player.ofConfig .standard (some (ScriptedWorld.ofScript script))
  let (subscriber, player) := player.subscribe
  let (_, player) := player.start graph
  tellEvents { player, subscriber, script, seconds, realtime, ticks := 0, told := #[] }

def isRunning (playback : Playback) : Bool :=
  playback.player.isRunning

def signal (playback : Playback) (trigger : String) : Playback :=
  let (woken, player) := playback.player.signal trigger
  { playback with player }.tell [signalLine trigger playback.ticks woken]

/-- Lets a tick's time pass for those who watch. The first tick comes at once. -/
def wait (playback : Playback) : Playback :=
  if playback.realtime && 0 < playback.ticks then
    { playback with told := playback.told.push .pause }
  else
    playback

/-- Lets a tick's time pass in the world, and advances the run. -/
def advance (playback : Playback) : Playback :=
  let player := playback.player
  let player := { player with world := player.world.map (ScriptedWorld.advance playback.seconds) }
  { playback with ticks := playback.ticks + 1, player := player.tick playback.seconds }

def tick (playback : Playback) : Playback :=
  let playback := playback.wait.advance.tellCommands.tellEvents
  ((playback.script.triggersAt playback.ticks).foldl signal playback).tellEvents

/-- Plays until the run is over, but no more than `limit` ticks. -/
def play : (limit : Nat) → Playback → Playback
  | 0, playback => playback
  | limit + 1, playback => if playback.isRunning then play limit playback.tick else playback

/-! ## The end -/

/-- Tells where the run is stuck, and stops it. -/
def giveUp (playback : Playback) : Playback :=
  let stuck := playback.player.nodeStatuses.filter (·.active)
  let playback := playback.tell
    ("⏹️  Tick limit reached, stopping run" ::
      stuck.map fun status => "   Stuck at: " ++ status.line)
  { playback with player := playback.player.stop }.tellEvents

def simulatedSeconds (playback : Playback) : Float32 :=
  (UInt64.ofNat playback.ticks).toFloat32 * playback.seconds

def summary (finished : Bool) (playback : Playback) : List String :=
  ["",
   "📊 Run Summary:",
   "   Ticks: " ++ toString playback.ticks,
   "   Simulated time: " ++ twoPlaces playback.simulatedSeconds ++ "s",
   "   Finished: " ++ truthText finished]

/-- Ends a playback whose ticks were played. -/
def close (playback : Playback) : Playback :=
  let finished := !playback.isRunning
  let playback := if finished then playback else playback.giveUp
  playback.tell (playback.summary finished)

end Playback

end SceneFlow
