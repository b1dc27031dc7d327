import SceneFlow.CommandLine.Arguments
import SceneFlow.CommandLine.Playback
import SceneFlow.Graph.Document
import SceneFlow.Lint.Check

/-!
# Commands

What each command answers, given the files it looks at: cues for its output, at most one file that
it writes, and how it exits.
-/

set_option autoImplicit false

namespace SceneFlow

-- Powers are those of the core library, whatever else is imported.
attribute [local instance (high)] instPowNat

inductive Entry where
  | missing
  /-- Something that cannot be read as text, such as a directory. -/
  | unreadable
  | text (content : String)

inductive WriteRefusal where
  | noDirectory
  | isDirectory
  | notDirectory
  | nameTooLong

namespace WriteRefusal

def message : WriteRefusal → String
  | noDirectory => "No such file or directory (os error 2)"
  | notDirectory => "Not a directory (os error 20)"
  | isDirectory => "Is a directory (os error 21)"
  | nameTooLong => "File name too long (os error 36)"

end WriteRefusal

structure Disk where
  entry : String → Entry
  refusal? : String → Option WriteRefusal

inductive Exit where
  | success
  | failure (complaint : String)
  | usage
  /-- The command broke off. -/
  | abort

namespace Exit

def code : Exit → Nat
  | .success => 0
  | .failure _ => 1
  | .usage => 2
  | .abort => 101

def errorText : Exit → String
  | .failure complaint => "Error: " ++ complaint
  | _ => ""

end Exit

structure Answer where
  output : List Cue
  /-- The path and the content of the file it writes. -/
  written : Option (String × String)
  exit : Exit

namespace Answer

def ofLines (lines : List String) (exit : Exit) : Answer :=
  { output := lines.map .line, written := none, exit }

def text (answer : Answer) : String :=
  String.join (answer.output.filterMap fun
    | .line text => some (text ++ "\n")
    | .pause => none)

end Answer

/-- Reads a script from what stands at its path. -/
def Script.ofEntry : Entry → Except Failure Script
  | .text content => ((ofText? content).map .ok).getD (.error .malformed)
  | _ => .error .unreadable

namespace CommandLine

def loadGraph (disk : Disk) (path : String) : Except String Graph :=
  match disk.entry path with
  | .missing => .error (GraphError.notFound path).message
  | .unreadable => .error ("reading " ++ path)
  | .text content =>
      match Graph.ofText? content with
      | some graph => .ok graph
      | none => .error ("parsing " ++ path)

def loadScript (disk : Disk) : Option String → Except String Script
  | none => .ok .empty
  | some path =>
      match Script.ofEntry (disk.entry path) with
      | .ok script => .ok script
      | .error _ => .error ("loading world script " ++ path)

/-! ## Running a graph -/

/-- Whether a tick can last that long: rounded to nanoseconds it must not vanish, and its seconds
have to fit a 64-bit word. -/
def isPeriod (seconds : Float32) : Bool :=
  match (Unpacked.ofFloat32 seconds).magnitude with
  | .finite mantissa exponent =>
      0 < roundedQuotient (mantissa * 10 ^ (9 : Nat) * 2 ^ exponent.toNat)
          (2 ^ (-exponent).toNat) &&
        mantissa * 2 ^ exponent.toNat < 2 ^ (64 : Nat) * 2 ^ (-exponent).toNat
  | _ => false

def introduction (graph : Graph) : List String :=
  ["📋 Graph: " ++ graph.id,
   "   Nodes: " ++ toString graph.nodes.length,
   "   Actor slots: " ++ toString graph.slots.length] ++
  (graph.autoSpawnSlots.map fun slot =>
    "   🧍 spawn '" ++ slot.id ++ "' (" ++ slot.prefab.getD "no prefab" ++ ")") ++
  [""]

def playGraph (options : RunOptions) (graph : Graph) (script : Script) : List Cue × Exit :=
  let playback := Playback.start graph script options.seconds options.realtime
  if isPeriod options.seconds then
    ((playback.play options.maxTicks).close.told.toList, .success)
  else
    (playback.told.toList, .abort)

def run (disk : Disk) (options : RunOptions) : Answer :=
  if !options.seconds.isFinite || options.seconds ≤ 0 then
    .ofLines [] (.failure ("--dt must be positive, got " ++ writtenOut options.seconds))
  else
    let loading := "🚀 Loading graph from: " ++ options.file
    match loadGraph disk options.file with
    | .error complaint => .ofLines [loading] (.failure complaint)
    | .ok graph =>
        let lines := loading :: introduction graph
        match loadScript disk options.world with
        | .error complaint => .ofLines lines (.failure complaint)
        | .ok script =>
            let (cues, exit) := playGraph options graph script
            { output := lines.map .line ++ cues, written := none, exit }

/-! ## Other commands -/

def verdict (report : LintReport) : Exit :=
  match report.ensureValid with
  | .ok () => .success
  | .error error => .failure error.message

def validationLines (file : String) (graph : Graph) (report : LintReport) : List String :=
  ["🔍 Validating graph: " ++ file,
   "   Name: " ++ graph.id,
   "   Nodes: " ++ toString graph.nodes.length] ++
  (if report.isClean then ["✅ Graph is valid"]
   else
    (report.issues.map fun issue => "   " ++ issue.text) ++
    (if report.hasErrors then []
     else ["✅ Graph is valid (" ++ toString report.warnings.length ++ " warnings)"]))

def validate (disk : Disk) (file : String) (asJson : Bool) : Answer :=
  match loadGraph disk file with
  | .error complaint => .ofLines [] (.failure complaint)
  | .ok graph =>
      let report := graph.lint
      .ofLines
        (if asJson then [report.toJson.wideText] else validationLines file graph report)
        (verdict report)

def nodes : Answer :=
  .ofLines
    ("📦 Available Node Types:" :: "" ::
      NodeType.all.flatMap fun type => ["  • " ++ type.name, "    " ++ type.description])
    .success

/-- A graph to start from: a gate that opens for a key or a lever. -/
def exampleGraph : Graph :=
  { id := "gate_scene"
    nodes :=
      [(Node.start "Start").followedBy "activate",
       (Node.objective "activate" "reach_gate" .activate).followedBy "intro",
       (Node.dialogue "intro" "intro_talk" true).followedBy "has_key",
       (Node.branch "has_key" [("player_has_key", "open_gate")]).followedBy "wait_lever",
       (Node.waitForTrigger "wait_lever" "gate_lever").followedBy "open_gate",
       Node.sequence "open_gate" ["pause", "patrol", "finish"],
       Node.delay "pause" 1,
       Node.loop "patrol" "patrol_leg" 2,
       (Node.delay "patrol_leg" 0.5).followedBy "patrol",
       Node.objective "finish" "reach_gate" .complete]
    slots :=
      [((ActorSlot.ofId "Gate_A").withPrefab "Props/Gate").withPosition ⟨4, 0, 12⟩] }

def init (disk : Disk) (path : String) : Answer :=
  match disk.refusal? path with
  | some refusal => .ofLines [] (.failure refusal.message)
  | none =>
      { Answer.ofLines
          ["✨ Created example graph: " ++ path, "", "Run it with:",
           "  flow run --file " ++ path ++ " --dt 0.5"]
          .success with
        written := some (path, exampleGraph.toText) }

def help : Answer :=
  .ofLines
    ["Usage: flow <COMMAND>", "", "Commands:",
     "  run --file <FILE> [--world <FILE>] [--dt <SECONDS>] [--max-ticks <N>]",
     "      [--realtime] [--verbose]",
     "  validate <FILE> [--json]", "  nodes", "  init [--output <FILE>]", "  help"]
    .success

def answer (disk : Disk) : Invocation → Answer
  | .run options => run disk options
  | .validate file asJson => validate disk file asJson
  | .nodes => nodes
  | .init path => init disk path
  | .help => help

def answerWords (disk : Disk) (words : List String) : Answer :=
  match Invocation.ofWords? words with
  | some invocation => answer disk invocation
  | none => .ofLines [] .usage

end CommandLine

end SceneFlow
