import MathTyping.Key
import MathTyping.Snippet.Expand
import MathTyping.Symbol.Insert

/-!
# The suggestion popup

The popup is idle, or offers snippets or symbols for a query.  Two inputs drive
it: the query found after every change of the document, and the keys pressed
while it is open.  It answers with splices and carries none out.
-/

namespace MathTyping

/-- The candidates for a query, best first, and the one highlighted. -/
structure Suggestions (α : Type) where
  query : Query
  candidates : List α
  selected : Option Nat
deriving DecidableEq, Repr

namespace Suggestions

/-- Offer candidates, if there are any. -/
def offer? (query : Query) (candidates : List α) (selected : Option Nat) :
    Option (Suggestions α) :=
  if candidates.isEmpty then none else some ⟨query, candidates, selected⟩

/-- Move the highlight down, around the end. -/
def next (s : Suggestions α) : Suggestions α :=
  { s with selected := some (match s.selected with
      | none => 0
      | some i => (i + 1) % s.candidates.length) }

/-- Move the highlight up, around the start. -/
def previous (s : Suggestions α) : Suggestions α :=
  { s with selected := some (match s.selected with
      | none => s.candidates.length - 1
      | some i => (i + s.candidates.length - 1) % s.candidates.length) }

/-- Highlight a candidate, if it exists. -/
def highlight (s : Suggestions α) (index : Nat) : Suggestions α :=
  if index < s.candidates.length then { s with selected := some index } else s

/-- The highlighted candidate, or else the first one. -/
def chosen? (s : Suggestions α) : Option α :=
  s.candidates[min (s.selected.getD 0) (s.candidates.length - 1)]?

/-- Keep a highlight that still names a candidate. -/
def surviving (candidates : List α) (selected : Option Nat) : Option Nat :=
  selected.filter (· < candidates.length)

end Suggestions

/-- The state of the popup. -/
inductive Completion where
  | idle
  | snippets (found : Suggestions Snippet)
  | symbols (found : Suggestions SymbolMatch)
deriving DecidableEq, Repr

/-- What turns a choice into text. -/
structure Sources where
  snippets : List Snippet
  symbols : SymbolIndex
  evaluate : Evaluator
  unicode : Bool

/-- The answer to a key or a click.  Only `pass` leaves the key to the editor. -/
inductive Outcome where
  | pass
  | consumed
  | splice (splice : Splice)
  | notice (notice : Notice)
deriving DecidableEq, Repr

namespace Outcome

/-- Tell whether the key was taken. -/
def handled : Outcome → Bool
  | pass => false
  | _ => true

/-- The splice of an outcome. -/
def splice? : Outcome → Option Splice
  | splice s => some s
  | _ => none

/-- The notice of an outcome. -/
def notice? : Outcome → Option Notice
  | notice n => some n
  | _ => none

/-- The notice that tells the user about a fault. -/
def noticeOf (f : Fault) : Notice :=
  f.notice?.getD ⟨"mathmate".toList, f.toText⟩

/-- Answer with a splice, or with a notice about the fault. -/
def ofExcept : Except Fault Splice → Outcome
  | .ok s => splice s
  | .error f => notice (noticeOf f)

end Outcome

namespace Completion

instance : Inhabited Completion := ⟨idle⟩

/-- Tell whether the popup is shown. -/
def isOpen : Completion → Bool
  | idle => false
  | _ => true

/-- The query that the popup answers. -/
def query? : Completion → Option Query
  | idle => none
  | snippets found => some found.query
  | symbols found => some found.query

/-- The highlighted candidate. -/
def selected? : Completion → Option Nat
  | idle => none
  | snippets found => found.selected
  | symbols found => found.selected

/-- The highlight of a popup that offers snippets. -/
def snippetHighlight? : Completion → Option Nat
  | snippets found => found.selected
  | _ => none

/-- The highlight of a popup that offers symbols. -/
def symbolHighlight? : Completion → Option Nat
  | symbols found => found.selected
  | _ => none

/-- The snippets whose name contains a word. -/
def matchingSnippets (src : Sources) (word : Text) : List Snippet :=
  src.snippets.filter fun s => s.name.contains word

/-- Recompute the candidates for the query at the cursor.  A highlight survives
while the kind of query stays; a snippet whose name is typed in full is
highlighted. -/
def update (src : Sources) (state : Completion) : Option Query → Completion
  | none => idle
  | some query =>
      match query.kind with
      | .snippet =>
          let candidates := matchingSnippets src query.word
          let exact := candidates.findIdx? (·.name == query.word)
          let kept := Suggestions.surviving candidates state.snippetHighlight?
          match Suggestions.offer? query candidates (exact.or kept) with
          | some found => snippets found
          | none => idle
      | .symbol =>
          let candidates := src.symbols.search query.word
          let kept := Suggestions.surviving candidates state.symbolHighlight?
          match Suggestions.offer? query candidates kept with
          | some found => symbols found
          | none => idle

/-- Close the popup if asked to. -/
def closeIf (close : Bool) (state : Completion) : Completion := if close then idle else state

/-- Complete a snippet; a failing script closes the popup. -/
def completeSnippet (src : Sources) (found : Suggestions Snippet) (s : Snippet) :
    Completion × Outcome :=
  match s.complete found.query src.evaluate with
  | .ok splice => (snippets found, .splice splice)
  | .error f => (idle, .notice (Outcome.noticeOf f))

/-- Handle a key while snippets are offered.  Characters typed now go before the
at sign, or before the closing parenthesis of an argument. -/
def snippetKey (src : Sources) (found : Suggestions Snippet) (chord : Chord) (cursor : Position) :
    Completion × Outcome :=
  let argument := found.query.argument
  let wordEnd := cursor.left (if argument.isSome then 2 else 1)
  match chord.key with
  | .up => (snippets found.previous, .consumed)
  | .down => (snippets found.next, .consumed)
  | .tab | .right =>
      match found.chosen? with
      | none => (snippets found, .pass)
      | some s => completeSnippet src found s
  | .enter =>
      match found.chosen? with
      | none => (snippets found, .pass)
      | some s =>
          if s.wantsArgument && argument.isNone then completeSnippet src found s
          else (idle, .ofExcept (s.execute found.query src.evaluate))
  | .escape => (idle, .consumed)
  | .shift => (snippets found, .consumed)
  | .backspace =>
      if found.query.word.isEmpty then (idle, .pass)
      else
        -- An empty argument goes as a whole, otherwise one character does.
        let start := cursor.left (if argument.isSome then 3 else 2)
        let length := if argument = some ['(', ')'] then 2 else 1
        (snippets found, .splice ⟨some (.delete start length), cursor.left length⟩)
  | _ =>
      match chord.typed? with
      | none => (idle, .pass)
      | some c =>
          if c = '(' then
            (snippets found, .splice ⟨some (.insert wordEnd ['(', ')']), cursor.right 2⟩)
          else if c = ' ' ∧ argument.isNone then (idle, .pass)
          else
            (snippets found, .splice ⟨some (.insert wordEnd [c]), cursor.right (charUnits c)⟩)

/-- Handle a key while symbols are offered.  Typed characters reach the editor,
and the query is detected again afterwards. -/
def symbolKey (src : Sources) (found : Suggestions SymbolMatch) (chord : Chord)
    (cursor : Position) : Completion × Outcome :=
  match chord.key with
  | .up => (symbols found.previous, .consumed)
  | .down => (symbols found.next, .consumed)
  | .tab | .right =>
      match found.chosen? with
      | none => (symbols found, .pass)
      | some m => (symbols found, .splice (m.symbol.complete found.query cursor src.unicode))
  | .enter =>
      match found.chosen? with
      | none => (symbols found, .pass)
      | some m => (idle, .splice (m.symbol.apply found.query cursor src.unicode))
  | .escape => (idle, .consumed)
  | .backspace | .shift => (symbols found, .pass)
  | _ => (closeIf chord.typed?.isNone (symbols found), .pass)

/-- Handle a key while the popup may be open. -/
def onKey (src : Sources) (state : Completion) (chord : Chord) (cursor : Position) :
    Completion × Outcome :=
  match state with
  | idle => (idle, .pass)
  | snippets found => snippetKey src found chord cursor
  | symbols found => symbolKey src found chord cursor

/-- Highlight the candidate under the pointer. -/
def hover (state : Completion) (index : Nat) : Completion :=
  match state with
  | idle => idle
  | snippets found => snippets (found.highlight index)
  | symbols found => symbols (found.highlight index)

/-- Take the candidate that was clicked: a snippet is executed, a symbol applied,
and the popup closes. -/
def choose (src : Sources) (state : Completion) (index : Nat) (cursor : Position) :
    Completion × Outcome :=
  match state with
  | idle => (idle, .pass)
  | snippets found =>
      match found.candidates[index]? with
      | none => (state, .pass)
      | some s => (idle, .ofExcept (s.execute found.query src.evaluate))
  | symbols found =>
      match found.candidates[index]? with
      | none => (state, .pass)
      | some m => (idle, .splice (m.symbol.apply found.query cursor src.unicode))

end Completion

end MathTyping
