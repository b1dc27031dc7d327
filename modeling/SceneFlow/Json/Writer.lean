import SceneFlow.Json.Token

/-!
# Writing documents

A document is written token by token. The compact layout has no blanks; the wide layout gives every
item and member a line of its own, two blanks deeper than what it stands in, and puts a blank behind
each colon. An empty array or object stays on its line.
-/

set_option autoImplicit false

namespace SceneFlow

namespace Json

mutual

def tokens : Json → List Token
  | .null => [.null]
  | .bool value => [.bool value]
  | .number numeral => [.number numeral]
  | .string text => [.string (some text)]
  | .array items => .openBracket :: (itemTokens items ++ [.closeBracket])
  | .object members => .openBrace :: (memberTokens members ++ [.closeBrace])

def itemTokens : List Json → List Token
  | [] => []
  | [last] => last.tokens
  | item :: rest => item.tokens ++ .comma :: itemTokens rest

def memberTokens : List (String × Json) → List Token
  | [] => []
  | [(name, value)] => .string (some name) :: .colon :: value.tokens
  | (name, value) :: rest =>
      .string (some name) :: .colon :: (value.tokens ++ .comma :: memberTokens rest)

end

/-- A new line with the blanks of its depth. -/
def lineBreak (depth : Nat) : List Char :=
  '\n' :: List.replicate (2 * depth) ' '

/-- The wide layout of tokens, `depth` arrays and objects deep. What stands first in an array or
object begins a line, and so does the end of one that is not empty. -/
def wideLayout : (depth : Nat) → (first : Bool) → List Token → List Char
  | _, _, [] => []
  | depth, first, token :: rest =>
      let lead := if first then lineBreak depth else []
      match token with
      | .openBracket | .openBrace => lead ++ token.chars ++ wideLayout (depth + 1) true rest
      | .closeBracket | .closeBrace =>
          (if first then [] else lineBreak (depth - 1)) ++ token.chars ++
            wideLayout (depth - 1) false rest
      | .comma => token.chars ++ lineBreak depth ++ wideLayout depth false rest
      | .colon => token.chars ++ ' ' :: wideLayout depth false rest
      | _ => lead ++ token.chars ++ wideLayout depth false rest

/-- The text of a document without blanks. -/
def compactText (document : Json) : String :=
  String.ofList (document.tokens.flatMap Token.chars)

/-- The text of a document on many lines. -/
def wideText (document : Json) : String :=
  String.ofList (wideLayout 0 false document.tokens)

end Json

end SceneFlow
