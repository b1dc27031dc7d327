import SceneFlow.Json.Reader
import SceneFlow.Json.Writer

/-!
# Fields of documents

What readers of documents share: values of the basic types, and the members of an object looked up
by name. A name that a reader knows may stand once in an object; other names do not matter.
-/

set_option autoImplicit false

namespace SceneFlow

namespace Json

/-! ## Values of the basic types -/

def text? : Json → Option String
  | .string text => some text
  | _ => none

/-- A text that may be given as null. -/
def nullableText? : Json → Option (Option String)
  | .null => some none
  | .string text => some (some text)
  | _ => none

def flag? : Json → Option Bool
  | .bool value => some value
  | _ => none

/-- A number, rounded to binary32. -/
def real? : Json → Option Float32
  | .number numeral => numeral.number?.map Number.toFloat32
  | _ => none

/-- A natural number below a bound; it has to be spelled without point and exponent. -/
def below? (bound : Nat) : Json → Option Nat
  | .number numeral => numeral.number?.bind (·.below? bound)
  | _ => none

def texts? : Json → Option (List String)
  | .array items => items.mapM text?
  | _ => none

/-! ## Members -/

/-- Whether none of the given names stands twice among the members. -/
def once (names : List String) (members : List (String × Json)) : Bool :=
  names.all fun name => (members.filter (·.1 == name)).length ≤ 1

def required? {α : Type} (name : String) (read : Json → Option α)
    (members : List (String × Json)) : Option α :=
  (members.lookup name).bind read

/-- A field with a default, which stands where the field is missing. -/
def optional? {α : Type} (name : String) (missing : α) (read : Json → Option α)
    (members : List (String × Json)) : Option α :=
  match members.lookup name with
  | none => some missing
  | some value => read value

/-- The members of a document that gives known fields by name, or the first few of them by
position. -/
def record? (names : List String) : Json → Option (List (String × Json))
  | .object members => if once names members then some members else none
  | .array items => if items.length ≤ names.length then some (names.zip items) else none
  | _ => none

def recordOutline (names : List String) : Outline :=
  .fields (names.map (·, .everything))

end Json

end SceneFlow
