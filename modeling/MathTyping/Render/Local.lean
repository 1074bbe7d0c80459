import MathTyping.Render
import MathTyping.Bracket.Match
import MathTyping.Text.Blank
import MathTyping.Text.Quoted

/-!
# The local renderer

Sets a source as one line of monospace text, eight units for each character.
Line feeds become spaces; any other control character is an error.
-/

namespace MathTyping

namespace LocalRenderer

/-- The width of a character. -/
def cellWidth : Nat := 8

/-- The height of the line. -/
def lineHeight : Nat := 16

/-- The diagnostic about a control character at a byte offset. -/
def controlError (offset : Nat) (c : Char) : Diagnostic :=
  .ofError ⟨offset, offset + c.utf8Size⟩ ("unexpected control character ".toList ++ Text.quotedChar c)

/-- Write one character of the body, as an entity where markup needs it. -/
def entity (c : Char) : Text :=
  if c = '<' then "&lt;".toList
  else if c = '>' then "&gt;".toList
  else if c = '&' then "&amp;".toList
  else if c = '\n' then [' ']
  else [c]

/-- Write characters of a source as the body of the text element.  An error is placed by a
search through the whole source. -/
def written (source : Text) : Text → Except Diagnostic Text
  | [] => .ok []
  | c :: t =>
      if isControl c ∧ c ≠ '\n' then
        .error (controlError ((Text.firstAt? [c] source).getD 0) c)
      else (written source t).map (entity c ++ ·)

/-- The width of a source; an empty one takes one character. -/
def width (source : Text) : Nat := max source.length 1 * cellWidth

/-- Write the markup around a body. -/
def markup (width : Nat) (body : Text) : Text :=
  "<svg xmlns=\"http://www.w3.org/2000/svg\" width=\"".toList ++ Text.ofNat width ++
    "\" height=\"".toList ++ Text.ofNat lineHeight ++
    "\"><text x=\"0\" y=\"12\" font-family=\"monospace\">".toList ++ body ++
    "</text></svg>".toList

/-- Set a source. -/
def render (source : Text) : Rendered Rendering :=
  match written source source with
  | .ok body => .ok ⟨markup (width source) body, []⟩
  | .error d => .error [d]

/-- The local renderer: bracket pairs come from the scanner. -/
def renderer : Renderer where
  render source _ _ := render source
  bracketPairs content := .ok (BracketPair.ofSource content)

end LocalRenderer

end MathTyping
