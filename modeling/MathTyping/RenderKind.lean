import MathTyping.Region

/-!
# Kinds of rendered source

A source is set as inline math, as display math or as a block of code.
-/

namespace MathTyping

/-- How a source is set. -/
inductive RenderKind where
  | inline
  | display
  | codeblock
deriving DecidableEq, Repr, Inhabited

namespace RenderKind

/-- The name of a kind. -/
def name : RenderKind → String
  | inline => "inline"
  | display => "display"
  | codeblock => "codeblock"

/-- The kind of a name. -/
def ofName? (t : Text) : Option RenderKind :=
  [inline, display, codeblock].find? fun k => k.name.toList == t

/-- The way a math region is set. -/
def ofMath : MathKind → RenderKind
  | .inline => inline
  | .display => display

end RenderKind

end MathTyping
