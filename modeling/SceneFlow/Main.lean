import SceneFlow.CommandLine.Execution

/-!
# The program

Looks the files of a command up on the disk, and carries its answer out. What the answer is has been
decided before.
-/

set_option autoImplicit false

namespace SceneFlow.Program

/-- The number by which the system knows an error. Some of its calls give it negated. -/
def systemNumber (code : UInt32) : UInt32 :=
  min code (-code)

def readEntry (path : String) : IO Entry := do
  try
    return .text (← IO.FS.readFile path)
  catch error =>
    match error with
    | .noFileOrDirectory .. => return .missing
    | .inappropriateType _ code _ =>
        return if systemNumber code = 20 then .missing else .unreadable
    | .invalidArgument _ code _ =>
        return if systemNumber code = 36 then .missing else .unreadable
    | _ => return .unreadable

def probeWriting (path : String) : IO (Option WriteRefusal) := do
  try
    let _ ← IO.FS.Handle.mk path .append
    return none
  catch error =>
    match error with
    | .noFileOrDirectory .. => return some .noDirectory
    | .inappropriateType _ code _ =>
        return some (if systemNumber code = 21 then .isDirectory else .notDirectory)
    | .invalidArgument .. => return some .nameTooLong
    | _ => return some .notDirectory

/-- The part of the disk that an invocation looks at. -/
def readDisk (invocation : Invocation) : IO Disk := do
  let paths :=
    match invocation with
    | .run options => options.file :: options.world.toList
    | .validate file _ => [file]
    | .init _ | .nodes | .help => []
  let entries ← paths.mapM fun path => do return (path, ← readEntry path)
  let refusal ←
    match invocation with
    | .init path => probeWriting path
    | _ => pure none
  return { entry := fun path => (entries.lookup path).getD .missing, refusal? := fun _ => refusal }

/-- Carries a cue out; `milliseconds` is how long a pause lasts. -/
def perform (milliseconds : UInt32) : Cue → IO Unit
  | .line text => IO.println text
  | .pause => IO.sleep milliseconds

def tickMilliseconds : Invocation → UInt32
  | .run options => (options.seconds * 1000).toUInt32
  | _ => 0

def carryOut (invocation : Invocation) (answer : Answer) : IO UInt32 := do
  if let some (path, content) := answer.written then
    IO.FS.writeFile path content
  for cue in answer.output do
    perform (tickMilliseconds invocation) cue
  if answer.exit.errorText ≠ "" then
    IO.eprintln answer.exit.errorText
  return UInt32.ofNat answer.exit.code

def run (words : List String) : IO UInt32 := do
  match Invocation.ofWords? words with
  | none =>
      IO.eprintln "error: the arguments were not understood; try 'help'"
      return UInt32.ofNat Exit.usage.code
  | some invocation =>
      let disk ← readDisk invocation
      carryOut invocation (CommandLine.answer disk invocation)

end SceneFlow.Program

def main (words : List String) : IO UInt32 :=
  SceneFlow.Program.run words
