import MathTyping.Bracket

/-!
# Bracket tokens

The brackets of a source that are code.  A string runs from a double quote to
the next one that no backslash escapes, a line comment from `//` to the end of
the line, and block comments between `/*` and `*/` nest; brackets in any of
them are not tokens.
-/

namespace MathTyping

/-- A bracket of a source. -/
structure BracketToken where
  kind : BracketKind
  opens : Bool
  place : Place
deriving DecidableEq, Repr, Inhabited

/-- What the scanner is inside of.  A block comment counts the comments around
it. -/
inductive ScanMode where
  | code
  | string (escaped : Bool)
  | lineComment
  | blockComment (around : Nat)
deriving DecidableEq, Repr

namespace BracketToken

/-- The token of a character at a place, if it is a bracket. -/
def ofChar? (c : Char) (place : Place) : Option BracketToken :=
  (BracketKind.ofChar? c).map fun k => ⟨k.1, k.2, place⟩

/-- The mode after a character of a string. -/
def stringMode (escaped : Bool) (c : Char) : ScanMode :=
  if escaped then .string false
  else if c = '"' then .code
  else .string (c == '\\')

/-- The two-character mark that starts at a character, with the mode after it. -/
def mark? : ScanMode → Char → Char → Option ScanMode
  | .code, c, d =>
      if c = '/' ∧ d = '/' then some .lineComment
      else if c = '/' ∧ d = '*' then some (.blockComment 0)
      else none
  | .blockComment n, c, d =>
      if c = '*' ∧ d = '/' then
        match n with
        | 0 => some .code
        | m + 1 => some (.blockComment m)
      else if c = '/' ∧ d = '*' then some (.blockComment (n + 1))
      else none
  | _, _, _ => none

/-- The mode after a character that starts no mark. -/
def nextMode : ScanMode → Char → ScanMode
  | .code, c => if c = '"' then .string false else .code
  | .string escaped, c => stringMode escaped c
  | .lineComment, c => if c = '\n' then .code else .lineComment
  | .blockComment n, _ => .blockComment n

/-- Scan a source from a place and a mode on. -/
def scanFrom (mode : ScanMode) (place : Place) : Text → List BracketToken
  | [] => []
  | [c] => if mode = .code then (ofChar? c place).toList else []
  | c :: d :: t =>
      match mark? mode c d with
      | some after => scanFrom after ((place.after c).after d) t
      | none =>
          (if mode = .code then (ofChar? c place).toList else []) ++
            scanFrom (nextMode mode c) (place.after c) (d :: t)

/-- List the bracket tokens of a source, in order. -/
def scan (source : Text) : List BracketToken := scanFrom .code .origin source

end BracketToken

end MathTyping
