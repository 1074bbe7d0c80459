import MathTyping.Completion

/-!
# The popup as shown

The view of the popup that a host draws: where it hangs, its items and the
highlighted one.
-/

namespace MathTyping

/-- A candidate as shown: its label, a second line, and a source to render. -/
structure PopupItem where
  label : Text
  detail : Option Text
  preview : Option (Text × RenderKind)
deriving DecidableEq, Repr, Inhabited

/-- The popup as shown. -/
structure PopupView where
  kind : QueryKind
  range : Range
  items : List PopupItem
  selected : Option Nat
deriving DecidableEq, Repr, Inhabited

namespace PopupItem

/-- A text, if it is not empty. -/
def nonempty? (t : Text) : Option Text := if t.isEmpty then none else some t

/-- Show a snippet. -/
def ofSnippet (s : Snippet) : PopupItem :=
  ⟨s.label, nonempty? s.description, s.previewSource?.map fun source => (source, s.kind)⟩

/-- Show a symbol, by its LaTeX name if the query is one. -/
def ofSymbol (latex : Bool) (m : SymbolMatch) : PopupItem :=
  ⟨m.label latex, nonempty? m.symbol.unicodeName, none⟩

end PopupItem

namespace PopupView

/-- The view of a state; there is none while it is idle. -/
def of? : Completion → Option PopupView
  | .idle => none
  | .snippets found =>
      some ⟨.snippet, found.query.range, found.candidates.map .ofSnippet, found.selected⟩
  | .symbols found =>
      let latex := found.query.word.head? == some '\\'
      some ⟨.symbol, found.query.range, found.candidates.map (.ofSymbol latex), found.selected⟩

end PopupView

end MathTyping
