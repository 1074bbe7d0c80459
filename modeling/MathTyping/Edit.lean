import MathTyping.Buffer

/-!
# Edits

An edit replaces a range of a document.  A splice is an optional edit followed
by a placement of the cursor; the placement is brought into the edited
document.
-/

namespace MathTyping

/-- A replacement of a range by a text. -/
structure Edit where
  range : Range
  text : Text
deriving DecidableEq, Repr, Inhabited

namespace Edit

/-- Insert a text at a position. -/
def insert (p : Position) (text : Text) : Edit := ⟨⟨p, p⟩, text⟩

/-- Delete code units of one line from a position on. -/
def delete (p : Position) (length : Nat) : Edit := ⟨Range.onLine p length, []⟩

/-- The position after the inserted text. -/
def stop (e : Edit) : Position := e.range.start.advance e.text

/-- Carry out an edit. -/
def apply (e : Edit) (b : Buffer) : Buffer := b.replace e.range e.text

end Edit

/-- An optional edit and where the cursor goes after it. -/
structure Splice where
  edit : Option Edit
  cursor : Position
deriving DecidableEq, Repr, Inhabited

namespace Splice

/-- An edit after which the cursor stands behind the inserted text. -/
def replacing (e : Edit) : Splice := ⟨some e, e.stop⟩

/-- A move of the cursor alone. -/
def moveTo (cursor : Position) : Splice := ⟨none, cursor⟩

/-- Carry out the edit of a splice. -/
def edited (s : Splice) (b : Buffer) : Buffer :=
  match s.edit with
  | none => b
  | some e => e.apply b

/-- Carry out a splice: the edited document and the cursor in it. -/
def apply (s : Splice) (b : Buffer) : Buffer × Position :=
  (s.edited b, (s.edited b).clamp s.cursor)

end Splice

end MathTyping
