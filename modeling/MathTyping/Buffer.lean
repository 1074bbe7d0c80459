import MathTyping.Text.Column
import MathTyping.Position

/-!
# The document buffer

A buffer holds the text of a document.  Lines end at line feeds only.  The
buffer converts between positions, byte offsets and code unit offsets; a
position past the end of its line means the end of the line, and a line past
the end means the end of the document.
-/

namespace MathTyping

/-- The text of a document. -/
structure Buffer where
  text : Text
deriving DecidableEq, Inhabited

namespace Text

/-- Split a text into its lines; an empty text has one empty line. -/
def lines (t : Text) : List Text := splitOn '\n' t

/-- List the byte offset at which each of some consecutive lines starts. -/
def startsOf (offset : Nat) : List Text → List Nat
  | [] => []
  | l :: ls => offset :: startsOf (offset + l.bytes + 1) ls

end Text

namespace Buffer

/-- The lines of the document. -/
def lines (b : Buffer) : List Text := b.text.lines

/-- The number of lines. -/
def lineCount (b : Buffer) : Nat := b.lines.length

/-- The byte offset at which each line starts. -/
def lineStarts (b : Buffer) : List Nat := Text.startsOf 0 b.lines

/-- The text of a line, if the document has it. -/
def line? (b : Buffer) (index : Nat) : Option Text := b.lines[index]?

/-- The text of a line, empty when there is none. -/
def line (b : Buffer) (index : Nat) : Text := (b.line? index).getD []

/-- The byte offset of the start of a line, if the document has it. -/
def lineStart? (b : Buffer) (index : Nat) : Option Nat := b.lineStarts[index]?

/-- The byte offset of the start of a line, zero when there is none. -/
def lineStart (b : Buffer) (index : Nat) : Nat := (b.lineStart? index).getD 0

/-- The code units of a line. -/
def lineUnits (b : Buffer) (index : Nat) : Nat := (b.line index).units

/-- The position after the last character. -/
def endPosition (b : Buffer) : Position :=
  ⟨b.lineCount - 1, b.lineUnits (b.lineCount - 1)⟩

/-- Bring a position into the document. -/
def clamp (b : Buffer) (p : Position) : Position :=
  if b.lineCount ≤ p.line then b.endPosition
  else ⟨p.line, min p.column (b.lineUnits p.line)⟩

/-- Count the bytes before a position. -/
def toByte (b : Buffer) (p : Position) : Nat :=
  let q := b.clamp p
  b.lineStart q.line + (b.line q.line).columnToByte q.column

/-- Find the line on which a byte offset lies: the last one starting at or before it. -/
def lineOfByte (b : Buffer) (byte : Nat) : Nat :=
  b.lineStarts.countP (· ≤ byte) - 1

/-- Find the position of a byte offset, rounding down to a character. -/
def ofByte (b : Buffer) (byte : Nat) : Position :=
  let byte := min byte b.text.bytes
  let line := b.lineOfByte byte
  ⟨line, (b.line line).byteToColumn (byte - b.lineStart line)⟩

/-- Count the code units before a position; a line feed counts as one. -/
def toOffset (b : Buffer) (p : Position) : Nat :=
  let q := b.clamp p
  (b.lines.take q.line).foldl (fun n l => n + (l.units + 1)) 0 + q.column

/-- Walk over lines until a code unit offset falls on one; past the last line
the answer is its end. -/
def positionIn : List Text → Nat → Nat → Position
  | [], index, _ => ⟨index, 0⟩
  | [l], index, offset => ⟨index, min offset l.units⟩
  | l :: ls, index, offset =>
      if offset ≤ l.units then ⟨index, offset⟩
      else positionIn ls (index + 1) (offset - (l.units + 1))

/-- Find the position of a code unit offset. -/
def ofOffset (b : Buffer) (offset : Nat) : Position := positionIn b.lines 0 offset

/-- The byte offsets of the ends of a range, the smaller first. -/
def byteRange (b : Buffer) (r : Range) : Nat × Nat :=
  (min (b.toByte r.start) (b.toByte r.stop), max (b.toByte r.start) (b.toByte r.stop))

/-- The text that a range covers. -/
def slice (b : Buffer) (r : Range) : Text :=
  let (start, stop) := b.byteRange r
  b.text.slice start stop

/-- Replace the text that a range covers. -/
def replace (b : Buffer) (r : Range) (text : Text) : Buffer :=
  let (start, stop) := b.byteRange r
  ⟨Text.takeBytes start b.text ++ text ++ Text.dropBytes stop b.text⟩

/-- Give the position after a text that replaced a range. -/
def afterReplace (b : Buffer) (r : Range) (text : Text) : Position :=
  (b.ofByte (b.byteRange r).1).advance text

end Buffer

end MathTyping
