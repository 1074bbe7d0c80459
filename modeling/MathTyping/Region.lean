import MathTyping.Buffer

/-!
# Math regions

A region is the text between two math delimiters, with its place in the
document.  Places inside a region can be given local to its content: a line
and a column, the column shifted on the first line only.
-/

namespace MathTyping

/-- The two kinds of math: between single dollars on one line, or between
double dollars over any number of lines. -/
inductive MathKind where
  | inline
  | display
deriving DecidableEq, Repr, Inhabited

namespace MathKind

/-- The name of a kind. -/
def name : MathKind → String
  | inline => "inline"
  | display => "display"

/-- The kind of a name. -/
def ofName? (t : Text) : Option MathKind :=
  [inline, display].find? fun k => k.name.toList == t

/-- The delimiter on both sides of a region. -/
def delimiter : MathKind → Text
  | inline => ['$']
  | display => ['$', '$']

end MathKind

/-- A math expression: its kind, the text between the delimiters, and the
positions right after the opening and right before the closing one. -/
structure Region where
  kind : MathKind
  content : Text
  start : Position
  stop : Position
deriving DecidableEq, Repr, Inhabited

namespace Region

/-- The range of the content. -/
def range (r : Region) : Range := ⟨r.start, r.stop⟩

/-- Tell whether a position lies between the delimiters, both ends included. -/
def contains (r : Region) (p : Position) : Bool := decide (r.start ≤ p) && decide (p ≤ r.stop)

/-- Give a position local to the content, or nothing before its start. -/
def toLocal? (r : Region) (p : Position) : Option Position :=
  if p.line < r.start.line then none
  else if p.line = r.start.line then
    if p.column < r.start.column then none else some ⟨0, p.column - r.start.column⟩
  else some ⟨p.line - r.start.line, p.column⟩

/-- Give the position in the document of a place local to the content. -/
def ofLocal (r : Region) (p : Position) : Position :=
  ⟨p.line + r.start.line, if p.line = 0 then p.column + r.start.column else p.column⟩

end Region

end MathTyping
