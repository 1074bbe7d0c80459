import MathTyping.Edit

/-!
# Shortcuts

A shortcut is a template around the selected math, bound to a typed character.
Every `$1` in the template stands for the selected text.
-/

namespace MathTyping

/-- The text that stands for the selection in a template. -/
def selectionMarker : Text := ['$', '1']

/-- A template, the group it is listed under, and how far the cursor moves from
the end of the replacement. -/
structure Shortcut where
  content : Text
  category : Text
  offset : Int
deriving DecidableEq, Repr, Inhabited

namespace Shortcut

/-- Fill in a template. -/
def fill (s : Shortcut) (selected : Text) : Text := s.content.replace selectionMarker selected

/-- Replace a selection by the template around its text. -/
def apply (s : Shortcut) (selection : Range) (selected : Text) : Splice :=
  let edit : Edit := ⟨selection, s.fill selected⟩
  ⟨some edit, edit.stop.shift s.offset⟩

end Shortcut

/-- Shortcuts by the text of their key. -/
abbrev Shortcuts := List (Text × Shortcut)

namespace Shortcuts

/-- A shortcut given by literals. -/
def entry (key content category : String) (offset : Int) : Text × Shortcut :=
  (key.toList, ⟨content.toList, category.toList, offset⟩)

/-- The shortcuts that hold without any configuration. -/
def standard : Shortcuts :=
  [entry "(" "($1)" "bracket" 0, entry "/" "($1)/()" "operator" (-1),
    entry "[" "[$1]" "bracket" 0, entry "^" "($1)^()" "operator" (-1),
    entry "_" "($1)_()" "operator" (-1), entry "\x7b" "\x7b$1\x7d" "bracket" 0,
    entry "|" "abs($1)" "bracket" 0]

/-- Find the shortcut of a typed character. -/
def find? (shortcuts : Shortcuts) (c : Char) : Option Shortcut :=
  (List.find? (fun s => s.1 == [c]) shortcuts).map (·.2)

end Shortcuts

end MathTyping
