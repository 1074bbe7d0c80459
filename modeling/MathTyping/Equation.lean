import MathTyping.Region.Locate
import MathTyping.Snippet
import MathTyping.Edit
import MathTyping.Bracket

/-!
# Working on the equation around the cursor

Jumping moves the cursor to the next stop inside a region, or out of the region
from its boundary.  A stop is a cursor marker, which is deleted, or the outer
side of a bracket, or the boundary.  Two commands act on the whole equation: one
puts a box around it, the other selects it.
-/

namespace MathTyping

/-- The direction of a jump. -/
inductive JumpDirection where
  | forward
  | backward
deriving DecidableEq, Repr, Inhabited

namespace JumpDirection

/-- The name of a direction. -/
def name : JumpDirection → String
  | forward => "forward"
  | backward => "backward"

end JumpDirection

namespace Text

/-- Count the bytes before the first character of a class. -/
def firstByte? (wanted : Char → Bool) : Text → Option Nat
  | [] => none
  | c :: t => if wanted c then some 0 else (firstByte? wanted t).map (c.utf8Size + ·)

/-- Count the bytes before the last character of a class. -/
def lastByte? (wanted : Char → Bool) : Text → Option Nat
  | [] => none
  | c :: t =>
      match lastByte? wanted t with
      | some n => some (c.utf8Size + n)
      | none => if wanted c then some 0 else none

end Text

namespace Equation

/-- Delete the cursor marker at a byte offset and put the cursor there. -/
def removeMarker (b : Buffer) (byte : Nat) : Splice :=
  let p := b.ofByte byte
  ⟨some (.delete p cursorMarker.length), p⟩

/-- Jump forward inside the bytes from `start` to `stop`. -/
def jumpForward (b : Buffer) (offset stop delimiter : Nat) : Splice :=
  let rest := b.text.slice offset stop
  if offset = stop then .moveTo (b.ofByte (stop + delimiter))
  else
    match Text.cut? cursorMarker rest with
    | some (before, _) => removeMarker b (offset + before.bytes)
    | none =>
        match Text.firstByte? BracketKind.closes rest with
        | some n => .moveTo (b.ofByte (offset + n + 1))
        | none => .moveTo (b.ofByte stop)

/-- Jump backward inside the bytes from `start` to `stop`. -/
def jumpBackward (b : Buffer) (start offset delimiter : Nat) : Splice :=
  let head := b.text.slice start offset
  if offset = start then .moveTo (b.ofByte (start - delimiter))
  else
    match Text.cutLast? cursorMarker head with
    | some (before, _) => removeMarker b (start + before.bytes)
    | none =>
        match Text.lastByte? BracketKind.opens head with
        | some n => .moveTo (b.ofByte (start + n))
        | none => .moveTo (b.ofByte start)

/-- Jump to the next stop of a region, from the place of the region nearest to
the cursor. -/
def jump (b : Buffer) (region : Region) (cursor : Position) (direction : JumpDirection) : Splice :=
  let start := b.toByte region.start
  let stop := b.toByte region.stop
  let offset := max start (min (b.toByte cursor) stop)
  let delimiter := region.kind.delimiter.bytes
  match direction with
  | .forward => jumpForward b offset stop delimiter
  | .backward => jumpBackward b start offset delimiter

/-- Put a box around the inline equation at the cursor. -/
def box? (b : Buffer) (cursor : Position) : Option Splice :=
  (Region.inlineAt? b cursor).map fun r =>
    .replacing ⟨r.range, "box(".toList ++ r.content ++ [')']⟩

/-- Select the inline equation at the cursor, or else the display equation. -/
def select? (b : Buffer) (cursor : Position) : Option Range :=
  ((Region.inlineAt? b cursor).or (Region.displayAt? b cursor)).map (·.range)

end Equation

end MathTyping
