import MathTyping.Snippet
import MathTyping.Query
import MathTyping.Edit
import MathTyping.Fault

/-!
# Expanding snippets

Executing a snippet replaces the query by the expansion and puts the cursor at
the marker.  Completing one replaces the query by the full name, or executes
the snippet when the name is already there.
-/

namespace MathTyping

/-- What runs the script of a snippet on an argument, if there is one. -/
abbrev Evaluator := Text → Option Text → Except Fault Text

namespace Snippet

/-- The notice about a script that failed. -/
def scriptFault (s : Snippet) (f : Fault) : Fault :=
  .notice ⟨"execute_snippet".toList, []⟩ ⟨s.name, f.userText⟩

/-- The template of a snippet: its content, or what its script computes. -/
def template (s : Snippet) (q : Query) (evaluate : Evaluator) : Except Fault Text :=
  if s.script then (evaluate s.content q.argumentInput?).mapError s.scriptFault
  else .ok s.content

/-- Replace a query by a template.  The first marker is removed and the cursor
put there; without a marker a space is added and the cursor put behind it. -/
def expand (q : Query) (template : Text) : Splice :=
  match Text.cut? cursorMarker template with
  | some (before, after) => ⟨some ⟨q.range, before ++ after⟩, q.start.advance before⟩
  | none => .replacing ⟨q.range, template ++ [' ']⟩

/-- Replace a query by the expansion of a snippet. -/
def execute (s : Snippet) (q : Query) (evaluate : Evaluator) : Except Fault Splice :=
  (s.template q evaluate).map (expand q)

/-- The argument written after the completed name of a snippet. -/
def completedArgument (s : Snippet) (q : Query) : Text :=
  if s.script then q.argument.getD ['(', ')'] else []

/-- Replace a query by the name of a snippet, or execute the snippet when its
name is already there and no argument is missing. -/
def complete (s : Snippet) (q : Query) (evaluate : Evaluator) : Except Fault Splice :=
  let missing := s.wantsArgument && q.argument.isNone
  if !missing && s.name == q.word then s.execute q evaluate
  else .ok (.replacing ⟨q.range, s.name ++ s.completedArgument q ++ ['@']⟩)

end Snippet

end MathTyping
