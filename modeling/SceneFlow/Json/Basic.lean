import SceneFlow.Json.Numeral

/-!
# JSON documents

A document as a tree. The members of an object stand in the order in which they are written, a name
may stand more than once, and numbers keep their spelling: what a member means is the business of
whoever reads it.
-/

set_option autoImplicit false

namespace SceneFlow

inductive Json where
  | null
  | bool (value : Bool)
  | number (numeral : Numeral)
  | string (text : String)
  | array (items : List Json)
  | object (members : List (String × Json))
deriving Inhabited

namespace Json

def nat (value : Nat) : Json :=
  .number (.ofNat value)

/-- A binary32 number; the infinities and not-a-number have no numeral and become null. -/
def float32 (value : Float32) : Json :=
  match Numeral.ofFloat32? value with
  | some numeral => .number numeral
  | none => .null

def strings (texts : List String) : Json :=
  .array (texts.map .string)

def string? : Option String → Json
  | some text => .string text
  | none => .null

/-- The first member of an object with the given name. -/
def member? (name : String) : Json → Option Json
  | .object members => members.lookup name
  | _ => none

end Json

end SceneFlow
