import MathTyping.Json

/-!
# Writing JSON

A value is written either on one line without blanks, or over several lines
with two blanks of indentation for each level.
-/

namespace MathTyping

namespace Json

/-- Write four hexadecimal digits. -/
def hex4 (n : Nat) : Text :=
  let digits := Nat.toDigits 16 n
  List.replicate (4 - digits.length) '0' ++ digits

/-- Write one character of a string literal. -/
def escapeChar (c : Char) : Text :=
  if c = '"' then ['\\', '"']
  else if c = '\\' then ['\\', '\\']
  else if c = '\n' then ['\\', 'n']
  else if c = '\r' then ['\\', 'r']
  else if c = '\t' then ['\\', 't']
  else if c = '\x08' then ['\\', 'b']
  else if c = '\x0c' then ['\\', 'f']
  else if c.toNat < 0x20 then '\\' :: 'u' :: hex4 c.toNat
  else [c]

/-- Write a string literal. -/
def literal (t : Text) : Text := '"' :: (t.flatMap escapeChar ++ ['"'])

/-- Write an integer. -/
def integerText (n : Int) : Text := (toString n).toList

mutual

/-- Write a value on one line. -/
def compact : Json → Text
  | null => "null".toList
  | bool b => (if b then "true" else "false").toList
  | integer n => integerText n
  | decimal d => d.toText
  | string t => literal t
  | broken => literal []
  | array items => '[' :: (compactItems items ++ [']'])
  | object members => '\x7b' :: (compactMembers members ++ ['\x7d'])

/-- Write the items of an array on one line. -/
def compactItems : List Json → Text
  | [] => []
  | [j] => compact j
  | j :: js => compact j ++ ',' :: compactItems js

/-- Write the members of an object on one line. -/
def compactMembers : List (Text × Json) → Text
  | [] => []
  | [(k, v)] => literal k ++ ':' :: compact v
  | (k, v) :: ms => literal k ++ ':' :: (compact v ++ ',' :: compactMembers ms)

end

/-- Start a new line at a level of indentation. -/
def newline (level : Nat) : Text := '\n' :: List.replicate (2 * level) ' '

mutual

/-- Write a value over several lines, indented from a level. -/
def prettyAt (level : Nat) : Json → Text
  | array [] => "[]".toList
  | array items => '[' :: (prettyItems (level + 1) items ++ newline level ++ [']'])
  | object [] => ['\x7b', '\x7d']
  | object members =>
      '\x7b' :: (prettyMembers (level + 1) members ++ newline level ++ ['\x7d'])
  | j => compact j

/-- Write the items of an array, each on lines of its own. -/
def prettyItems (level : Nat) : List Json → Text
  | [] => []
  | [j] => newline level ++ prettyAt level j
  | j :: js => newline level ++ prettyAt level j ++ ',' :: prettyItems level js

/-- Write the members of an object, each on lines of its own. -/
def prettyMembers (level : Nat) : List (Text × Json) → Text
  | [] => []
  | [(k, v)] => newline level ++ literal k ++ ':' :: ' ' :: prettyAt level v
  | (k, v) :: ms =>
      newline level ++ literal k ++ ':' :: ' ' :: (prettyAt level v ++ ',' :: prettyMembers level ms)

end

/-- Write a value over several lines. -/
def pretty (j : Json) : Text := prettyAt 0 j

end Json

end MathTyping
