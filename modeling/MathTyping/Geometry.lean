import MathTyping.Position

/-!
# Where a popup hangs

Positions have boxes on the screen, in pixels.  A popup hangs below the end of
its text, aligned with the start of the text, or with the start of the line
when the text wraps onto another row.
-/

namespace MathTyping

/-- The box of a position on the screen. -/
structure ScreenBox where
  left : Float
  top : Float
  bottom : Float
deriving Inhabited

/-- A point on the screen. -/
structure ScreenPoint where
  x : Float
  y : Float
deriving Inhabited

/-- A grid of cells of one size, without wrapping. -/
structure CellGrid where
  cellWidth : Float
  lineHeight : Float

namespace CellGrid

/-- The grid of a common terminal font. -/
def standard : CellGrid := ⟨8, 20⟩

/-- The box of a position. -/
def boxAt (g : CellGrid) (p : Position) : ScreenBox :=
  let top := p.line.toFloat * g.lineHeight
  ⟨p.column.toFloat * g.cellWidth, top, top + g.lineHeight⟩

end CellGrid

namespace ScreenPoint

/-- Tops further apart than this lie on different rows. -/
def rowTolerance : Float := 8

/-- The point below a text between two boxes. -/
def between (start stop lineStart : ScreenBox) : ScreenPoint :=
  let wraps := (stop.top - start.top).abs > rowTolerance
  ⟨if wraps then lineStart.left else start.left, stop.bottom⟩

/-- The point below a range of a grid. -/
def below (g : CellGrid) (r : Range) : ScreenPoint :=
  between (g.boxAt r.start) (g.boxAt r.stop) (g.boxAt ⟨r.start.line, 0⟩)

end ScreenPoint

end MathTyping
