import SceneFlow.Number.Reading

/-!
# Arguments of the command line

What the words of a command line ask for. Words are read from left to right, and the first that
cannot be understood refuses the whole; a request for help that comes before it wins.
-/

set_option autoImplicit false

namespace SceneFlow

structure RunOptions where
  file : String
  world : Option String
  seconds : Float32
  maxTicks : Nat
  /-- Whether ticks take as long as they last. -/
  realtime : Bool

inductive Invocation where
  | run (options : RunOptions)
  | validate (file : String) (asJson : Bool)
  | nodes
  | init (output : String)
  | help

namespace CommandLine

/-! ## Words -/

structure OptionRule where
  name : String
  short : Option Char
  takesValue : Bool

/-- What one word says, or two words where the second one is the value of an option. -/
inductive Item where
  | flag (name : String)
  | option (name value : String)
  | positional (value : String)
  | help
  | refused

/-- Whether a word is an option rather than the value of one. -/
def looksLikeOption (word : String) : Bool :=
  word.startsWith "-" && word ≠ "-"

inductive WordReading where
  | items (items : List Item)
  /-- The next word is the value of the option last named. -/
  | needsValue (before : List Item) (name : String)

/-- Reads a word behind two dashes: the name of an option, and its value behind an equals sign. -/
def readLong (rules : List OptionRule) (word : String) : WordReading :=
  let name := String.ofList (word.toList.takeWhile (· ≠ '='))
  let value? :=
    match word.toList.dropWhile (· ≠ '=') with
    | [] => none
    | _ :: value => some (String.ofList value)
  match rules.find? (·.name == name), value? with
  | some rule, some value =>
      .items [if rule.takesValue then .option name value else .refused]
  | some rule, none => if rule.takesValue then .needsValue [] name else .items [.flag name]
  | none, none => .items [if name = "help" then .help else .refused]
  | none, some _ => .items [.refused]

/-- Reads the letters behind one dash. A letter that takes a value takes the rest of the word, less
an equals sign, or else the next word. -/
def readShort (rules : List OptionRule) : List Char → WordReading
  | [] => .items []
  | letter :: rest =>
      match rules.find? (·.short == some letter) with
      | none => .items [if letter = 'h' then .help else .refused]
      | some rule =>
          if rule.takesValue then
            match rest with
            | [] => .needsValue [] rule.name
            | '=' :: value => .items [.option rule.name (String.ofList value)]
            | value => .items [.option rule.name (String.ofList value)]
          else
            match readShort rules rest with
            | .items items => .items (.flag rule.name :: items)
            | .needsValue before name => .needsValue (.flag rule.name :: before) name

def readWord (rules : List OptionRule) (word : String) : WordReading :=
  match word.toList with
  | '-' :: '-' :: name => readLong rules (String.ofList name)
  | '-' :: letter :: rest => readShort rules (letter :: rest)
  | _ => .items [.positional word]

/-- Reads the words of a command. Behind two dashes alone nothing is an option any more. -/
def readWords (rules : List OptionRule) : List String → List Item
  | [] => []
  | word :: rest =>
      if word = "--" then rest.map .positional
      else
        match readWord rules word with
        | .items items => items ++ readWords rules rest
        | .needsValue before name =>
            match rest with
            | [] => before ++ [.refused]
            | value :: rest =>
                if looksLikeOption value then before ++ [.refused]
                else before ++ .option name value :: readWords rules rest

/-! ## Commands -/

inductive Outcome (α : Type) where
  | done (value : α)
  | help
  | refused

namespace Outcome

def bind {α β : Type} (outcome : Outcome α) (next : α → Option β) : Outcome β :=
  match outcome with
  | .done value =>
      match next value with
      | some result => .done result
      | none => .refused
  | .help => .help
  | .refused => .refused

end Outcome

/-- Takes items in one after the other, up to a request for help or one that is not accepted. -/
def gather {α : Type} (accept : α → Item → Option α) : α → List Item → Outcome α
  | gathered, [] => .done gathered
  | _, .help :: _ => .help
  | gathered, item :: rest =>
      match accept gathered item with
      | some gathered => gather accept gathered rest
      | none => .refused

/-- A path, which must not be empty, in a place that is still free. -/
def newPath? (present : Option String) (path : String) : Option String :=
  if present.isNone && path ≠ "" then some path else none

structure RunDraft where
  file : Option String
  world : Option String
  seconds : Option Float32
  maxTicks : Option Nat
  realtime : Bool
  verbose : Bool

def runRules : List OptionRule :=
  [⟨"file", some 'f', true⟩, ⟨"world", some 'w', true⟩, ⟨"dt", none, true⟩,
    ⟨"max-ticks", none, true⟩, ⟨"realtime", none, false⟩, ⟨"verbose", some 'v', false⟩]

/-- Takes in one item of the command that runs a graph. Nothing may be given twice. -/
def RunDraft.accept (draft : RunDraft) : Item → Option RunDraft
  | .option "file" path =>
      (newPath? draft.file path).map fun file => { draft with file := some file }
  | .option "world" path =>
      (newPath? draft.world path).map fun world => { draft with world := some world }
  | .option "dt" text =>
      if draft.seconds.isSome then none
      else (typedFloat32? text).map fun seconds => { draft with seconds := some seconds }
  | .option "max-ticks" text =>
      if draft.maxTicks.isSome then none
      else (typedNat? UInt64.size text).map fun limit => { draft with maxTicks := some limit }
  | .flag "realtime" => if draft.realtime then none else some { draft with realtime := true }
  | .flag "verbose" => if draft.verbose then none else some { draft with verbose := true }
  | _ => none

def defaultSeconds : Float32 := 0.1

def defaultMaxTicks : Nat := 10000

/-- The run that a draft describes; it needs a file. -/
def RunDraft.invocation? (draft : RunDraft) : Option Invocation :=
  draft.file.map fun file =>
    .run
      { file
        world := draft.world
        seconds := draft.seconds.getD defaultSeconds
        maxTicks := draft.maxTicks.getD defaultMaxTicks
        realtime := draft.realtime }

def acceptValidate (draft : Option String × Bool) : Item → Option (Option String × Bool)
  | .positional path => (newPath? draft.1 path).map fun file => (some file, draft.2)
  | .flag "json" => if draft.2 then none else some (draft.1, true)
  | _ => none

def acceptInit (output : Option String) : Item → Option (Option String)
  | .option "output" path => (newPath? output path).map some
  | _ => none

def defaultOutput : String := "flow.json"

def commandNames : List String := ["run", "validate", "nodes", "init"]

def readCommand (command : String) (words : List String) : Outcome Invocation :=
  match command with
  | "run" =>
      (gather RunDraft.accept ⟨none, none, none, none, false, false⟩
        (readWords runRules words)).bind RunDraft.invocation?
  | "validate" =>
      (gather acceptValidate (none, false) (readWords [⟨"json", none, false⟩] words)).bind
        fun (file, asJson) => file.map (.validate · asJson)
  | "nodes" =>
      (gather (fun (_ : Unit) _ => none) () (readWords [] words)).bind fun _ => some .nodes
  | "init" =>
      (gather acceptInit none (readWords [⟨"output", some 'o', true⟩] words)).bind
        fun output => some (.init (output.getD defaultOutput))
  | _ => .refused

end CommandLine

namespace Invocation

/-- What a command line asks for; none if it cannot be understood. -/
def ofWords? : List String → Option Invocation
  | [] => none
  | "help" :: rest =>
      match rest with
      | [] => some .help
      | [command] =>
          if ("help" :: CommandLine.commandNames).contains command then some .help else none
      | _ => none
  | "--help" :: _ | "-h" :: _ => some .help
  | command :: rest =>
      match CommandLine.readCommand command rest with
      | .done invocation => some invocation
      | .help => some .help
      | .refused => none

end Invocation

end SceneFlow
