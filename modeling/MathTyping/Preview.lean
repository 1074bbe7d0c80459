import MathTyping.Region.Locate
import MathTyping.CodeContext
import MathTyping.Render

/-!
# The inline preview

The preview shows the inline equation around the cursor, outside code and
display math, and never while the popup is open.  Each request has a ticket of
its own; only the answer to the last one counts.
-/

namespace MathTyping

/-- The state of the preview: the last ticket, the ticket waited for, and the
source and anchor of what is shown or about to be. -/
structure Preview where
  ticket : Nat
  pending : Option Nat
  shown : Option (Text × Position)
deriving DecidableEq, Repr, Inhabited

/-- What the preview does after a change. -/
inductive PreviewUpdate where
  | keep
  | hide
  | render (request : PreviewRequest)
deriving DecidableEq, Repr

namespace Preview

/-- The preview before any request. -/
def initial : Preview := ⟨0, none, none⟩

/-- Tell whether a preview is shown or about to be. -/
def isVisible (p : Preview) : Bool := p.shown.isSome

/-- The end of the equation that the preview hangs below. -/
def anchor? (p : Preview) : Option Position := p.shown.map (·.2)

/-- Hide the preview and stop waiting for an answer. -/
def hide (p : Preview) : Preview × PreviewUpdate :=
  (⟨p.ticket, none, none⟩, if p.shown.isSome then .hide else .keep)

/-- The equation that may be previewed at the cursor. -/
def equation? (b : Buffer) (cursor : Position) (popupOpen : Bool) : Option Region :=
  if popupOpen || CodeContext.inCode b cursor then none
  else if (Region.displayAt? b cursor).isSome then none
  else Region.inlineAt? b cursor

/-- Reconsider the preview after a change. -/
def update (p : Preview) (processor : Text) (b : Buffer) (cursor : Position) (popupOpen : Bool) :
    Preview × PreviewUpdate :=
  match equation? b cursor popupOpen with
  | none => p.hide
  | some r =>
      if p.shown = some (r.content, r.stop) then (p, .keep)
      else
        let ticket := p.ticket + 1
        (⟨ticket, some ticket, some (r.content, r.stop)⟩,
          .render ⟨ticket, r.content, .inline, processor⟩)

/-- Take the answer to a ticket, and tell whether it was waited for. -/
def commit (p : Preview) (ticket : Nat) : Preview × Bool :=
  if p.pending = some ticket then (⟨p.ticket, none, p.shown⟩, true) else (p, false)

end Preview

end MathTyping
