import MathTyping.Buffer
import MathTyping.Text.Blank

/-!
# Code in a document

Math assistance stays off inside code.  A fence line opens or closes a block of
code, an unescaped backtick opens or closes a span on its line; an odd number
of them before the cursor puts it inside.
-/

namespace MathTyping

namespace CodeContext

/-- Tell whether a line is a fence: it begins with three backticks or tildes
after its blanks. -/
def isFence (line : Text) : Bool :=
  line.trim.beginsWith ['\x60', '\x60', '\x60'] || line.trim.beginsWith "~~~".toList

/-- Tell whether the cursor is inside a fenced block. -/
def inBlock (b : Buffer) (cursor : Position) : Bool :=
  (b.lines.take cursor.line).countP isFence % 2 == 1

/-- Count the unescaped backticks of a text in one pass; `escaped` tells whether
its first character is escaped. -/
def ticksFrom (escaped : Bool) : Text → Nat
  | [] => 0
  | c :: t =>
      if c = '\\' then ticksFrom (!escaped) t
      else if c = '\x60' ∧ escaped = false then ticksFrom false t + 1
      else ticksFrom false t

/-- Tell whether the cursor is inside a span of code on its line. -/
def inSpan (b : Buffer) (cursor : Position) : Bool :=
  match b.line? cursor.line with
  | none => false
  | some line =>
      ticksFrom false (Text.takeBytes (line.columnToByte cursor.column) line) % 2 == 1

/-- Tell whether the cursor is inside code. -/
def inCode (b : Buffer) (cursor : Position) : Bool := inBlock b cursor || inSpan b cursor

end CodeContext

end MathTyping
