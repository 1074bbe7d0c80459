import MathTyping.Text.Search

/-!
# Positions in a document

A position is a line and a column in UTF-16 code units, both from zero, as
editors report it.  Positions are ordered by line first.
-/

namespace MathTyping

/-- A place between two characters of a document. -/
structure Position where
  line : Nat
  column : Nat
deriving DecidableEq, Repr, Inhabited

namespace Position

/-- The start of a document. -/
def origin : Position := ⟨0, 0⟩

instance : LT Position := ⟨fun p q => p.line < q.line ∨ p.line = q.line ∧ p.column < q.column⟩

instance : LE Position := ⟨fun p q => p.line < q.line ∨ p.line = q.line ∧ p.column ≤ q.column⟩

instance (p q : Position) : Decidable (p < q) :=
  inferInstanceAs (Decidable (p.line < q.line ∨ p.line = q.line ∧ p.column < q.column))

instance (p q : Position) : Decidable (p ≤ q) :=
  inferInstanceAs (Decidable (p.line < q.line ∨ p.line = q.line ∧ p.column ≤ q.column))

/-- Compare two positions. -/
def compare (p q : Position) : Ordering :=
  if p < q then .lt else if p = q then .eq else .gt

/-- Move right on the line. -/
def right (p : Position) (delta : Nat) : Position := ⟨p.line, p.column + delta⟩

/-- Move left on the line, stopping at its start. -/
def left (p : Position) (delta : Nat) : Position := ⟨p.line, p.column - delta⟩

/-- The last column that a position can name: columns are counted in 64 bits. -/
def lastColumn : Nat := Nat.pow 2 64 - 1

/-- Move along the line by a signed distance, stopping at its start and at the last
column. -/
def shift (p : Position) (offset : Int) : Position :=
  ⟨p.line, min (p.column + offset).toNat lastColumn⟩

/-- Give the position reached after writing a text at a position. -/
def advance (p : Position) : Text → Position
  | [] => p
  | c :: t => if c = '\n' then advance ⟨p.line + 1, 0⟩ t else advance (p.right (charUnits c)) t

/-- Write a position as `line:column`. -/
def toText (p : Position) : Text :=
  Text.ofNat p.line ++ ':' :: Text.ofNat p.column

theorem le_def (p q : Position) :
    p ≤ q ↔ p.line < q.line ∨ p.line = q.line ∧ p.column ≤ q.column := Iff.rfl

theorem lt_def (p q : Position) :
    p < q ↔ p.line < q.line ∨ p.line = q.line ∧ p.column < q.column := Iff.rfl

@[simp] theorem advance_nil (p : Position) : p.advance [] = p := rfl

theorem advance_append (p : Position) (s t : Text) :
    p.advance (s ++ t) = (p.advance s).advance t := by
  induction s generalizing p with
  | nil => rfl
  | cons c s ih => by_cases h : c = '\n' <;> simp [advance, h, ih]

end Position

/-- A stretch of a document, `start` included and `stop` excluded. -/
structure Range where
  start : Position
  stop : Position
deriving DecidableEq, Repr, Inhabited

namespace Range

/-- The range of `length` code units on one line. -/
def onLine (start : Position) (length : Nat) : Range := ⟨start, start.right length⟩

/-- Tell whether a range covers nothing. -/
def isEmpty (r : Range) : Bool := decide (r.stop ≤ r.start)

/-- Write a range as `start-stop`. -/
def toText (r : Range) : Text := r.start.toText ++ '-' :: r.stop.toText

end Range

end MathTyping
