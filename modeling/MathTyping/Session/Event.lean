import MathTyping.Key
import MathTyping.Popup
import MathTyping.Highlight
import MathTyping.Render

/-!
# Events and effects

A host reports events; a session answers with effects for the host to carry
out, in order.  A session never touches the editor itself.
-/

namespace MathTyping

/-- The document and caret as the host reports them. -/
structure Snapshot where
  text : Text
  cursor : Position
deriving DecidableEq, Repr, Inhabited

/-- A command of the user. -/
inductive Command where
  | boxEquation
  | selectEquation
deriving DecidableEq, Repr, Inhabited

namespace Command

/-- The name of a command. -/
def name : Command → String
  | boxEquation => "boxEquation"
  | selectEquation => "selectEquation"

/-- The command of a name. -/
def ofName? (t : Text) : Option Command :=
  [boxEquation, selectEquation].find? fun c => c.name.toList == t

end Command

/-- Something that happened in the editor. -/
inductive Event where
  | changed (snapshot : Snapshot)
  | cursorMoved (cursor : Position)
  | selectionChanged (range : Range)
  | keyDown (chord : Chord)
  | hover (index : Nat)
  | select (index : Nat)
  | repaint (generation : Nat)
  | focus (gained : Bool)
  | command (command : Command)
  | rendered (reply : RenderReply)
  | close

/-- Something the host must do. -/
inductive Effect where
  | splice (splice : Splice)
  | setSelection (range : Range)
  | showPopup (view : PopupView)
  | closePopup
  | addHighlights (highlights : List Highlight)
  | removeHighlights (classes : List Text)
  | request (request : RenderRequest)
  | showPreview (anchor : Position) (svg : Text)
  | showPreviewError (anchor : Position) (diagnostics : List Diagnostic)
  | hidePreview
  | notice (notice : Notice)
  | defer (delay generation : Nat)
deriving DecidableEq, Repr

/-- The answer to an event.  A handled key must not reach the editor. -/
structure Reaction where
  handled : Bool
  effects : List Effect
deriving DecidableEq, Repr, Inhabited

end MathTyping
