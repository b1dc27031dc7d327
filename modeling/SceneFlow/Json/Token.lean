import SceneFlow.Json.Basic

/-!
# Tokens

The tokens of a JSON text, read from its characters and written back to them. Blanks stand between
tokens only, so a layout decides about nothing but them.

A string may spell half of a surrogate pair by an escape. Such a string is grammatical, and a reader
that passes over it does not mind, but there is no text it stands for; its token carries none.
-/

set_option autoImplicit false

namespace SceneFlow

inductive Token where
  | openBrace
  | closeBrace
  | openBracket
  | closeBracket
  | colon
  | comma
  | null
  | bool (value : Bool)
  | number (numeral : Numeral)
  /-- A string, with the text it stands for, if there is one. -/
  | string (text : Option String)

namespace Token

/-! ## Strings -/

/-- One written element of a string: a character, or a 16-bit unit given by its code. -/
inductive Element where
  | char (char : Char)
  | unit (code : Nat)

def hexDigit? (char : Char) : Option Nat :=
  if '0' ≤ char ∧ char ≤ '9' then some (char.toNat - '0'.toNat)
  else if 'a' ≤ char ∧ char ≤ 'f' then some (char.toNat - 'a'.toNat + 10)
  else if 'A' ≤ char ∧ char ≤ 'F' then some (char.toNat - 'A'.toNat + 10)
  else none

def unitCode? (first second third fourth : Char) : Option Nat := do
  some (4096 * (← hexDigit? first) + 256 * (← hexDigit? second) + 16 * (← hexDigit? third) +
    (← hexDigit? fourth))

/-- The character that a backslash and one further character stand for. -/
def escaped? : Char → Option Char
  | '"' => some '"'
  | '\\' => some '\\'
  | '/' => some '/'
  | 'b' => some '\x08'
  | 'f' => some '\x0c'
  | 'n' => some '\n'
  | 'r' => some '\r'
  | 't' => some '\t'
  | _ => none

/-- Reads the elements of a string up to and including the quote that ends it. Control characters
have to be escaped. -/
def readElements? : List Char → Option (List Element × List Char)
  | [] => none
  | '"' :: rest => some ([], rest)
  | '\\' :: 'u' :: first :: second :: third :: fourth :: rest => do
      let code ← unitCode? first second third fourth
      let (elements, rest) ← readElements? rest
      some (.unit code :: elements, rest)
  | '\\' :: char :: rest => do
      let char ← escaped? char
      let (elements, rest) ← readElements? rest
      some (.char char :: elements, rest)
  | char :: rest =>
      if char.toNat < 0x20 then none
      else do
        let (elements, rest) ← readElements? rest
        some (.char char :: elements, rest)

/-- Whether a unit is the first half of a surrogate pair. -/
def isHigh (code : Nat) : Bool :=
  0xd800 ≤ code && code < 0xdc00

/-- Whether a unit is the second half of a surrogate pair. -/
def isLow (code : Nat) : Bool :=
  0xdc00 ≤ code && code < 0xe000

/-- The characters that elements stand for; none if half of a surrogate pair lacks the other. -/
def characters? : List Element → Option (List Char)
  | [] => some []
  | .char char :: rest => (characters? rest).map (char :: ·)
  | .unit high :: .unit low :: rest =>
      if isHigh high then
        if isLow low then
          (characters? rest).map
            (Char.ofNat (0x10000 + 1024 * (high - 0xd800) + (low - 0xdc00)) :: ·)
        else
          none
      else if isLow high then none
      else (characters? (.unit low :: rest)).map (Char.ofNat high :: ·)
  | .unit code :: rest =>
      if isHigh code || isLow code then none
      else (characters? rest).map (Char.ofNat code :: ·)

def readString? (chars : List Char) : Option (Token × List Char) :=
  (readElements? chars).map fun (elements, rest) =>
    (.string ((characters? elements).map String.ofList), rest)

/-! ## From characters to tokens -/

/-- The four blanks that may stand between tokens. -/
def isBlank (char : Char) : Bool :=
  char == ' ' || char == '\t' || char == '\n' || char == '\r'

def read? : List Char → Option (Token × List Char)
  | '{' :: rest => some (.openBrace, rest)
  | '}' :: rest => some (.closeBrace, rest)
  | '[' :: rest => some (.openBracket, rest)
  | ']' :: rest => some (.closeBracket, rest)
  | ':' :: rest => some (.colon, rest)
  | ',' :: rest => some (.comma, rest)
  | 'n' :: 'u' :: 'l' :: 'l' :: rest => some (.null, rest)
  | 't' :: 'r' :: 'u' :: 'e' :: rest => some (.bool true, rest)
  | 'f' :: 'a' :: 'l' :: 's' :: 'e' :: rest => some (.bool false, rest)
  | '"' :: rest => readString? rest
  | chars => (Numeral.read? chars).map fun (numeral, rest) => (.number numeral, rest)

/-- Reads tokens, at most `fuel` characters and tokens of them. -/
def readAll? : (fuel : Nat) → List Char → Option (List Token)
  | _, [] => some []
  | 0, _ :: _ => none
  | fuel + 1, char :: rest =>
      if isBlank char then
        readAll? fuel rest
      else do
        let (token, rest) ← read? (char :: rest)
        let tokens ← readAll? fuel rest
        some (token :: tokens)

/-- The tokens of a text. A token takes a character at least, so the text's length bounds the
reading. -/
def ofText? (text : String) : Option (List Token) :=
  readAll? text.length text.toList

/-! ## From tokens to characters -/

def hexChar (digit : Nat) : Char :=
  if digit < 10 then Char.ofNat ('0'.toNat + digit) else Char.ofNat ('a'.toNat + (digit - 10))

/-- How one character of a string is written: quote, backslash and control characters by an escape,
all others as they are. -/
def escapedText (char : Char) : List Char :=
  if char = '"' then ['\\', '"']
  else if char = '\\' then ['\\', '\\']
  else if char = '\x08' then ['\\', 'b']
  else if char = '\x0c' then ['\\', 'f']
  else if char = '\n' then ['\\', 'n']
  else if char = '\r' then ['\\', 'r']
  else if char = '\t' then ['\\', 't']
  else if char.toNat < 0x20 then
    ['\\', 'u', '0', '0', hexChar (char.toNat / 16), hexChar (char.toNat % 16)]
  else [char]

def quoted (text : String) : List Char :=
  '"' :: (text.toList.flatMap escapedText ++ ['"'])

/-- The characters of a token. A string without text is written as one lone surrogate. -/
def chars : Token → List Char
  | .openBrace => ['{']
  | .closeBrace => ['}']
  | .openBracket => ['[']
  | .closeBracket => [']']
  | .colon => [':']
  | .comma => [',']
  | .null => ['n', 'u', 'l', 'l']
  | .bool true => ['t', 'r', 'u', 'e']
  | .bool false => ['f', 'a', 'l', 's', 'e']
  | .number numeral => numeral.text
  | .string (some text) => quoted text
  | .string none => ['"', '\\', 'u', 'd', '8', '0', '0', '"']

end Token

end SceneFlow
