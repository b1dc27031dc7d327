import SceneFlow.Text.Plain

/-!
# Quoted text

Text in quotes for people to read: quotes, backslashes and the common control characters are written
by their short escapes, and every other character that is not plain by its code in braces.
-/

set_option autoImplicit false

namespace SceneFlow.Text

def hexText (number : Nat) : String :=
  String.ofList (Nat.toDigits 16 number)

def quotedChar (char : Char) : String :=
  if char = '"' then "\\\""
  else if char = '\\' then "\\\\"
  else if char = '\n' then "\\n"
  else if char = '\r' then "\\r"
  else if char = '\t' then "\\t"
  else if char = '\x00' then "\\0"
  else if isPlain char then char.toString
  else "\\u\x7b" ++ hexText char.toNat ++ "\x7d"

def quoted (text : String) : String :=
  "\"" ++ String.join (text.toList.map quotedChar) ++ "\""

end SceneFlow.Text
