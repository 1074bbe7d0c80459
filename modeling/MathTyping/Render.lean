import MathTyping.RenderKind
import MathTyping.Diagnostic
import MathTyping.Bracket

/-!
# Renderers

A renderer sets a source as SVG and finds its bracket pairs; either may fail
with diagnostics.  A session asks through requests and is answered by replies.
-/

namespace MathTyping

/-- A rendered source, with the warnings raised. -/
structure Rendering where
  svg : Text
  diagnostics : List Diagnostic
deriving DecidableEq, Repr, Inhabited

/-- An answer of a renderer: a value, or the diagnostics of a failure. -/
abbrev Rendered (α : Type) := Except (List Diagnostic) α

/-- What sets math and analyses its brackets. -/
structure Renderer where
  render : (source : Text) → RenderKind → (processor : Text) → Rendered Rendering
  bracketPairs : (content : Text) → Rendered (List BracketPair)

/-- A preview that is asked for.  The ticket tells the answers apart. -/
structure PreviewRequest where
  ticket : Nat
  source : Text
  kind : RenderKind
  processor : Text
deriving DecidableEq, Repr, Inhabited

/-- A request to a renderer. -/
inductive RenderRequest where
  | brackets (content : Text)
  | preview (request : PreviewRequest)
deriving DecidableEq, Repr

/-- The answer to a request. -/
inductive RenderReply where
  | brackets (content : Text) (result : Rendered (List BracketPair))
  | preview (ticket : Nat) (result : Rendered Rendering)

namespace Renderer

/-- Answer a request. -/
def answer (r : Renderer) : RenderRequest → RenderReply
  | .brackets content => .brackets content (r.bracketPairs content)
  | .preview q => .preview q.ticket (r.render q.source q.kind q.processor)

/-- Render with a first renderer and, if that fails, with a second one.  When both
fail, the first one's diagnostics count; brackets are only asked of the first. -/
def fallback (first second : Renderer) : Renderer where
  render source kind processor :=
    match first.render source kind processor with
    | .ok result => .ok result
    | .error diagnostics =>
        match second.render source kind processor with
        | .ok result => .ok result
        | .error _ => .error diagnostics
  bracketPairs := first.bracketPairs

/-- A renderer that fails every request with one message. -/
def failing (message : Text) : Renderer where
  render _ _ _ := .error [.ofError ⟨0, 0⟩ message]
  bracketPairs _ := .error [.ofError ⟨0, 0⟩ message]

end Renderer

end MathTyping
