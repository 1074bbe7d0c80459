import MathTyping.Query
import MathTyping.Buffer
import MathTyping.Text.Blank
import MathTyping.Text.Digit

/-!
# Detecting a query before the cursor

A query is the longest end of the text before the cursor that has the form of a
query and stands at the start of the line or after a boundary character.  A
symbol query is two or more letters and dots, or two or more operator
characters, with an optional backslash before them.  A snippet query is a word,
an optional argument in parentheses, and an at sign.
-/

namespace MathTyping

namespace Query

/-- Tell whether a character is an ASCII letter. -/
def isLetter (c : Char) : Bool := ('a' ≤ c && c ≤ 'z') || ('A' ≤ c && c ≤ 'Z')

/-- Tell whether a character may stand in the name of a snippet. -/
def isWordChar (c : Char) : Bool := isLetter c || ('0' ≤ c && c ≤ '9')

/-- Tell whether a character may stand in the name of a symbol. -/
def isNameChar (c : Char) : Bool := isLetter c || c == '.'

/-- Tell whether a character may stand in a shorthand. -/
def isOperatorChar (c : Char) : Bool := "-<>|=[]~:".toList.contains c

/-- Tell whether a character is punctuation that both kinds of query may follow. -/
def isBoundaryMark (c : Char) : Bool :=
  "$()[]\x7b\x7d<>+-/*=!?#%&\x27:;,".toList.contains c || isDecimalDigit c

/-- Tell whether a snippet query may follow a character. -/
def beforeSnippet (c : Char) : Bool := c == ' ' || isBoundaryMark c

/-- Tell whether a symbol query may follow a character. -/
def beforeSymbol (c : Char) : Bool :=
  isBlank c || isBoundaryMark c || c == '^' || c == '_'

/-- Read a text as an argument in parentheses and an at sign; the argument holds
no line feed. -/
def readArgument? (t : Text) : Option Text :=
  match t with
  | '(' :: rest =>
      match rest.reverse with
      | '@' :: ')' :: inner =>
          if inner.contains '\n' then none else some ('(' :: (inner.reverse ++ [')']))
      | _ => none
  | _ => none

/-- Read a whole text as a snippet query: its word and argument. -/
def readSnippet? (t : Text) : Option (Text × Option Text) :=
  let word := t.takeWhile isWordChar
  let rest := t.dropWhile isWordChar
  if word.isEmpty then none
  else if rest = ['@'] then some (word, none)
  else (readArgument? rest).map fun a => (word, some a)

/-- Tell whether a text is two or more characters of one class. -/
def isRun (allowed : Char → Bool) (t : Text) : Bool :=
  decide (2 ≤ t.length) && t.all allowed

/-- Read a whole text as a symbol query. -/
def readSymbol? (t : Text) : Option Text :=
  -- One backslash may come first; a second one belongs to no class.
  let body := match t with
    | '\\' :: rest => rest
    | _ => t
  if isRun isNameChar body || isRun isOperatorChar body then some t else none

/-- Find the longest end of a text that `read` accepts at a place where a query
may start, with the code units before it.  `column` counts the units already
passed, and `fresh` tells whether a query may start right here. -/
def scanTails (boundary : Char → Bool) (read : Text → Option α) (column : Nat) (fresh : Bool) :
    Text → Option (Nat × α)
  | [] => none
  | c :: t =>
      match if fresh then read (c :: t) else none with
      | some found => some (column, found)
      | none => scanTails boundary read (column + charUnits c) (boundary c) t

/-- Detect a query at the end of the text before the cursor.  A line that starts
an import holds no snippet query, and no query ends with a space. -/
def detect? (before : Text) (cursor : Position) : Option Query :=
  match before.getLast? with
  | none => none
  | some last =>
      if last = '@' then
        if before.beginsWith "#import".toList then none
        else (scanTails beforeSnippet readSnippet? 0 true before).map fun (column, word, argument) =>
          ⟨.snippet, word, argument, ⟨cursor.line, column⟩⟩
      else if last = ' ' then none
      else (scanTails beforeSymbol readSymbol? 0 true before).map fun (column, word) =>
        ⟨.symbol, word, none, ⟨cursor.line, column⟩⟩

/-- Detect a query right before the cursor of a document. -/
def detectAt? (b : Buffer) (cursor : Position) : Option Query :=
  let cursor := b.clamp cursor
  let line := b.line cursor.line
  detect? (Text.takeBytes (line.columnToByte cursor.column) line) cursor

end Query

end MathTyping
