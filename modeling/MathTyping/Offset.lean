import MathTyping.Buffer

/-!
# Byte offsets of places in a source

The byte offset of a line and column, found by walking over the lines.  A place
that the source does not have, on a missing line or past the end of a line, is
read as the end of the source.
-/

namespace MathTyping

namespace Text

/-- Count the bytes before a line and column of some consecutive lines. -/
def offsetIn? : List Text → Nat → Nat → Option Nat
  | [], _, _ => none
  | l :: _, 0, column => columnToByte? l column
  | l :: ls, line + 1, column => (offsetIn? ls line column).map (l.bytes + 1 + ·)

/-- Count the bytes before a position of a source. -/
def offsetOf (t : Text) (p : Position) : Nat :=
  (offsetIn? t.lines p.line p.column).getD t.bytes

/-- Count the bytes before a line and column that may be negative; such a place is
read as the start. -/
def offsetOfInt (t : Text) (line column : Int) : Nat :=
  if line < 0 ∨ column < 0 then 0 else t.offsetOf ⟨line.toNat, column.toNat⟩

end Text

end MathTyping
