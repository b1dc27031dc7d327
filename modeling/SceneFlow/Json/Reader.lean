import SceneFlow.Json.Token

/-!
# Reading documents

A document is read along an outline, which says what its reader is going to look at. Members that
the outline does not name are passed over: they have to be grammatical, but how deep they nest, how
large their numbers are and whether their strings stand for a text does not matter, and they leave
no trace in the tree. Everything else is read in full. There, arrays and objects nest at most
`nestingLimit` deep, every number is in range and every string stands for a text.
-/

set_option autoImplicit false

namespace SceneFlow

/-- What a reader is going to look at in a document. -/
inductive Outline where
  /-- Nothing: the value is passed over. -/
  | nothing
  | everything
  /-- The named members of an object, or the items of an array that gives them by position. -/
  | fields (known : List (String × Outline))
  | items (each : Outline)

namespace Outline

def isRead : Outline → Bool
  | .nothing => false
  | _ => true

def member (name : String) : Outline → Outline
  | .nothing => .nothing
  | .everything => .everything
  | .fields known => (known.lookup name).getD .nothing
  | .items _ => .everything

def leadingItems : Outline → List Outline
  | .fields known => known.map Prod.snd
  | _ => []

def furtherItems : Outline → Outline
  | .nothing => .nothing
  | .items each => each
  | _ => .everything

end Outline

namespace Json

/-- How many arrays and objects may be open at once where a document is read. -/
def nestingLimit : Nat := 127

/-- How many more may be open inside of an array or object; none if it may not be opened itself. -/
def openedWithin? (outline : Outline) (room : Nat) : Option Nat :=
  if outline.isRead then
    match room with
    | 0 => none
    | room + 1 => some room
  else
    some room

/-- The value of a number token: one that is read has to be in range. -/
def ofNumeral? (outline : Outline) (numeral : Numeral) : Option Json :=
  if outline.isRead && numeral.number?.isNone then none else some (.number numeral)

/-- The value of a string token: one that is read has to stand for a text. -/
def ofString? (outline : Outline) : Option String → Option Json
  | some text => some (.string text)
  | none => if outline.isRead then none else some .null

/-- The members of an object with one more in front, unless it was passed over. -/
def withMember (outline : Outline) (name : String) (value : Json)
    (members : List (String × Json)) : List (String × Json) :=
  if outline.isRead then (name, value) :: members else members

mutual

/-- Reads one value from the front of the tokens. Each call spends one unit of fuel. -/
def readValue? : (fuel room : Nat) → Outline → List Token → Option (Json × List Token)
  | 0, _, _, _ => none
  | fuel + 1, room, outline, tokens =>
      match tokens with
      | .null :: rest => some (.null, rest)
      | .bool value :: rest => some (.bool value, rest)
      | .number numeral :: rest => (ofNumeral? outline numeral).map (·, rest)
      | .string text :: rest => (ofString? outline text).map (·, rest)
      | .openBracket :: .closeBracket :: rest =>
          (openedWithin? outline room).map fun _ => (.array [], rest)
      | .openBracket :: rest => do
          let room ← openedWithin? outline room
          let (items, rest) ← readItems? fuel room outline.leadingItems outline.furtherItems rest
          some (.array items, rest)
      | .openBrace :: .closeBrace :: rest =>
          (openedWithin? outline room).map fun _ => (.object [], rest)
      | .openBrace :: rest => do
          let room ← openedWithin? outline room
          let (members, rest) ← readMembers? fuel room outline rest
          some (.object members, rest)
      | _ => none

/-- Reads the items of an array up to its closing bracket. The leading outlines belong to the first
items, and the further one to all that follow. -/
def readItems? : (fuel room : Nat) → List Outline → Outline → List Token →
    Option (List Json × List Token)
  | 0, _, _, _, _ => none
  | fuel + 1, room, leading, further, tokens => do
      let (item, rest) ← readValue? fuel room (leading.headD further) tokens
      match rest with
      | .comma :: rest =>
          let (items, rest) ← readItems? fuel room leading.tail further rest
          some (item :: items, rest)
      | .closeBracket :: rest => some ([item], rest)
      | _ => none

/-- Reads the members of an object up to its closing brace. Where an object is read, the names of
its members have to stand for texts, too. -/
def readMembers? : (fuel room : Nat) → Outline → List Token →
    Option (List (String × Json) × List Token)
  | 0, _, _, _ => none
  | fuel + 1, room, outline, .string name :: .colon :: rest => do
      let name ← if outline.isRead then name else some ""
      let inside := outline.member name
      let (value, rest) ← readValue? fuel room inside rest
      match rest with
      | .comma :: rest =>
          let (members, rest) ← readMembers? fuel room outline rest
          some (withMember inside name value members, rest)
      | .closeBrace :: rest => some (withMember inside name value [], rest)
      | _ => none
  | _ + 1, _, _, _ => none

end

/-- Reads a list of tokens that is one whole document. Every token takes two calls at most. -/
def ofTokens? (outline : Outline) (tokens : List Token) : Option Json :=
  match readValue? (2 * tokens.length) nestingLimit outline tokens with
  | some (document, []) => some document
  | _ => none

def ofText? (outline : Outline) (text : String) : Option Json :=
  (Token.ofText? text).bind (ofTokens? outline)

end Json

end SceneFlow
