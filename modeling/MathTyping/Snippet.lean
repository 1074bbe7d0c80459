import MathTyping.RenderKind

/-!
# Snippets

A snippet is a named template.  The marker `#CURSOR` in its content says where
the cursor goes.  The content of a script snippet is a script that computes the
template from an argument.
-/

namespace MathTyping

/-- The text that marks the place of the cursor in a template. -/
def cursorMarker : Text := ['#', 'C', 'U', 'R', 'S', 'O', 'R']

/-- A configured snippet.  `processor` names what renders its preview. -/
structure Snippet where
  category : Text
  name : Text
  description : Text
  kind : RenderKind
  processor : Text
  content : Text
  script : Bool
deriving DecidableEq, Repr

namespace Snippet

/-- The snippet whose fields are all left to their defaults. -/
def standard : Snippet where
  category := "Uncategorized".toList
  name := "new".toList
  description := []
  kind := .display
  processor := []
  content := cursorMarker
  script := false

instance : Inhabited Snippet := ⟨standard⟩

/-- The source of the preview in the popup; scripts have none. -/
def previewSource? (s : Snippet) : Option Text :=
  if s.script then none
  else match s.kind with
    | .inline => some (if s.processor.isEmpty then s.content else s.processor ++ ':' :: s.content)
    | _ => some (s.processor ++ '\n' :: (s.content ++ ['\n']))

/-- The label in the popup; a parcel marks scripts. -/
def label (s : Snippet) : Text :=
  (if s.script then "📦".toList else []) ++ s.name ++ " (".toList ++ s.category ++ [')']

/-- Tell whether a snippet needs an argument before it can be executed. -/
def wantsArgument (s : Snippet) : Bool := s.script

end Snippet

end MathTyping
