import MathTyping.Proofs.Guarded.Operation
import MathTyping.Proofs.Popup.Replies

/-!
# Guarded keys of the popup

The highlight moves around the ends of the candidates, by remainders, and a choice takes the
candidate at the highlight or the first one.  Both are defined only while there are
candidates, and no key checks that.

A popup is only offered with candidates, and neither keys nor the pointer take any away, so an
open popup is always stocked (`stocked_update`, `Completion.Retains.stocked`).
-/

namespace MathTyping

namespace Guarded

variable {α : Type}

/-! ### Edits -/

/-- An edit after which the cursor stands behind the inserted text. -/
def replacing (e : Edit) : Guarded Splice := do
  let stop ← advance e.range.start e.text
  pure ⟨some e, stop⟩

/-- Replace a query, up to the cursor, by a symbol. -/
def applySymbol (s : SymbolRecord) (q : Query) (cursor : Position) (unicode : Bool) :
    Guarded Splice :=
  replacing ⟨⟨q.start, cursor⟩, s.inserted unicode⟩

/-- Replace a query by the name of a symbol, or apply the symbol when its name is already
there. -/
def completeSymbol (s : SymbolRecord) (q : Query) (cursor : Position) (unicode : Bool) :
    Guarded Splice :=
  if s.name = q.word then applySymbol s q cursor unicode else replacing ⟨q.range, s.name⟩

/-- Replace a query by a template, with the cursor at the marker or behind the template. -/
def expand (q : Query) (template : Text) : Guarded Splice :=
  match Text.firstAt? cursorMarker template with
  | some marker => do
      let before ← cut template 0 marker
      let cursor ← advance q.start before
      pure ⟨some ⟨q.range, Text.removeFirst cursorMarker template⟩, cursor⟩
  | none => replacing ⟨q.range, template ++ [' ']⟩

/-- Replace a query by the expansion of a snippet. -/
def execute (s : Snippet) (q : Query) (evaluate : Evaluator) : Guarded (Except Fault Splice) :=
  match s.template q evaluate with
  | .ok template => .ok <$> expand q template
  | .error f => pure (.error f)

/-- Replace a query by the name of a snippet, or execute the snippet when its name is already
there and no argument is missing. -/
def complete (s : Snippet) (q : Query) (evaluate : Evaluator) : Guarded (Except Fault Splice) :=
  let missing := s.wantsArgument && q.argument.isNone
  if !missing && s.name == q.word then execute s q evaluate
  else .ok <$> replacing ⟨q.range, s.name ++ s.completedArgument q ++ ['@']⟩

theorem replacing_eq (e : Edit) : replacing e = pure (.replacing e) := by
  rw [replacing, advance_eq, pure_bind]
  rfl

theorem applySymbol_eq (s : SymbolRecord) (q : Query) (cursor : Position) (unicode : Bool) :
    applySymbol s q cursor unicode = pure (s.apply q cursor unicode) :=
  replacing_eq _

theorem completeSymbol_eq (s : SymbolRecord) (q : Query) (cursor : Position) (unicode : Bool) :
    completeSymbol s q cursor unicode = pure (s.complete q cursor unicode) := by
  rw [completeSymbol, applySymbol_eq, replacing_eq, SymbolRecord.complete]
  split <;> rfl

theorem expand_eq (q : Query) (template : Text) :
    expand q template = pure (Snippet.expand q template) := by
  rw [expand, Text.firstAt?, Text.removeFirst, Snippet.expand]
  cases hcut : Text.cut? cursorMarker template with
  | none => exact replacing_eq _
  | some parts =>
      obtain ⟨before, after⟩ := parts
      dsimp only [Option.map_some]
      nth_rewrite 1 [(Text.cut?_eq_some_iff.mp hcut).1]
      rw [List.append_assoc, cut_front, pure_bind, advance_eq, pure_bind]

theorem execute_eq (s : Snippet) (q : Query) (evaluate : Evaluator) :
    execute s q evaluate = pure (s.execute q evaluate) := by
  rw [execute, Snippet.execute]
  cases s.template q evaluate with
  | ok template =>
      dsimp only
      rw [expand_eq, map_pure]
      rfl
  | error f => rfl

theorem complete_eq (s : Snippet) (q : Query) (evaluate : Evaluator) :
    complete s q evaluate = pure (s.complete q evaluate) := by
  rw [complete, Snippet.complete, execute_eq, replacing_eq, map_pure]
  split <;> rfl

/-! ### The highlight -/

/-- Move the highlight down, around the end. -/
def next (s : Suggestions α) : Guarded (Suggestions α) := do
  let index ← match s.selected with
    | none => pure 0
    | some i => modulo (i + 1) s.candidates.length
  pure { s with selected := some index }

/-- Move the highlight up, around the start. -/
def previous (s : Suggestions α) : Guarded (Suggestions α) := do
  let last ← minus s.candidates.length 1
  let index ← match s.selected with
    | none => pure last
    | some i => do
        let before ← minus (i + s.candidates.length) 1
        modulo before s.candidates.length
  pure { s with selected := some index }

/-- The highlighted candidate, or else the first one. -/
def chosen (s : Suggestions α) : Guarded α := do
  let last ← minus s.candidates.length 1
  entry s.candidates (min (s.selected.getD 0) last)

variable {s : Suggestions α}

theorem next_eq (h : s.candidates ≠ []) : next s = pure s.next := by
  have hpos := List.length_pos_iff.mpr h
  rw [next, Suggestions.next]
  cases s.selected with
  | none => rfl
  | some i =>
      dsimp only
      rw [modulo_of_pos hpos, pure_bind]

theorem previous_eq (h : s.candidates ≠ []) : previous s = pure s.previous := by
  have hpos := List.length_pos_iff.mpr h
  rw [previous, Suggestions.previous, minus_of_le hpos, pure_bind]
  cases s.selected with
  | none => rfl
  | some i =>
      dsimp only
      rw [minus_of_le (Nat.le_add_left_of_le hpos), pure_bind, modulo_of_pos hpos, pure_bind]

theorem exists_chosen (h : s.candidates ≠ []) :
    ∃ a, s.chosen? = some a ∧ chosen s = pure a := by
  have hpos := List.length_pos_iff.mpr h
  have hlt : min (s.selected.getD 0) (s.candidates.length - 1) < s.candidates.length := by omega
  refine ⟨s.candidates[min (s.selected.getD 0) (s.candidates.length - 1)], ?_, ?_⟩
  · exact List.getElem?_eq_getElem hlt
  · rw [chosen, minus_of_le hpos, pure_bind]
    exact entry_of_getElem? (List.getElem?_eq_getElem hlt)

/-- Without candidates there is nothing to move to, and nothing to take. -/
example (q : Query) (index : Nat) :
    next (⟨q, [], some index⟩ : Suggestions α) = throw .remainder ∧
      previous (⟨q, [], some index⟩ : Suggestions α) = throw .underflow ∧
      chosen (⟨q, [], some index⟩ : Suggestions α) = throw .underflow := ⟨rfl, rfl, rfl⟩

/-- A highlight that a click has set is on a candidate. -/
theorem chosen_highlight {index : Nat} (h : index < s.candidates.length) :
    chosen (s.highlight index) = pure s.candidates[index] := by
  have hmin : min index (s.candidates.length - 1) = index := by omega
  rw [Suggestions.highlight, if_pos h, chosen, minus_of_le (Nat.zero_lt_of_lt h), pure_bind,
    Option.getD_some, hmin]
  exact entry_of_getElem? (List.getElem?_eq_getElem h)

/-! ### Keys and clicks -/

/-- Complete a snippet; a failing script closes the popup. -/
def completeSnippet (src : Sources) (found : Suggestions Snippet) (s : Snippet) :
    Guarded (Completion × Outcome) := do
  match ← complete s found.query src.evaluate with
  | .ok splice => pure (.snippets found, .splice splice)
  | .error f => pure (.idle, .notice (Outcome.noticeOf f))

/-- Handle a key while snippets are offered. -/
def snippetKey (src : Sources) (found : Suggestions Snippet) (chord : Chord)
    (cursor : Position) : Guarded (Completion × Outcome) :=
  match chord.key with
  | .up => do
      let moved ← previous found
      pure (.snippets moved, .consumed)
  | .down => do
      let moved ← next found
      pure (.snippets moved, .consumed)
  | .tab | .right => do
      let s ← chosen found
      completeSnippet src found s
  | .enter => do
      let s ← chosen found
      if s.wantsArgument && found.query.argument.isNone then completeSnippet src found s
      else do
        let result ← execute s found.query src.evaluate
        pure (.idle, .ofExcept result)
  -- The other keys only move positions along the line, and these stop at its start.
  | _ => pure (Completion.snippetKey src found chord cursor)

/-- Handle a key while symbols are offered. -/
def symbolKey (src : Sources) (found : Suggestions SymbolMatch) (chord : Chord)
    (cursor : Position) : Guarded (Completion × Outcome) :=
  match chord.key with
  | .up => do
      let moved ← previous found
      pure (.symbols moved, .consumed)
  | .down => do
      let moved ← next found
      pure (.symbols moved, .consumed)
  | .tab | .right => do
      let m ← chosen found
      let splice ← completeSymbol m.symbol found.query cursor src.unicode
      pure (.symbols found, .splice splice)
  | .enter => do
      let m ← chosen found
      let splice ← applySymbol m.symbol found.query cursor src.unicode
      pure (.idle, .splice splice)
  -- The other keys edit nothing.
  | _ => pure (Completion.symbolKey src found chord cursor)

/-- Handle a key while the popup may be open. -/
def onKey (src : Sources) (state : Completion) (chord : Chord) (cursor : Position) :
    Guarded (Completion × Outcome) :=
  match state with
  | .idle => pure (.idle, .pass)
  | .snippets found => snippetKey src found chord cursor
  | .symbols found => symbolKey src found chord cursor

/-- Take the candidate that was clicked. -/
def choose (src : Sources) (state : Completion) (index : Nat) (cursor : Position) :
    Guarded (Completion × Outcome) :=
  match state with
  | .idle => pure (.idle, .pass)
  | .snippets found =>
      if index < found.candidates.length then do
        let s ← chosen (found.highlight index)
        let result ← execute s found.query src.evaluate
        pure (.idle, .ofExcept result)
      else pure (state, .pass)
  | .symbols found =>
      if index < found.candidates.length then do
        let m ← chosen (found.highlight index)
        let splice ← applySymbol m.symbol found.query cursor src.unicode
        pure (.idle, .splice splice)
      else pure (state, .pass)

theorem completeSnippet_eq (src : Sources) (found : Suggestions Snippet) (s : Snippet) :
    completeSnippet src found s = pure (Completion.completeSnippet src found s) := by
  rw [completeSnippet, complete_eq, pure_bind, Completion.completeSnippet]
  cases s.complete found.query src.evaluate <;> rfl

theorem snippetKey_eq (src : Sources) {found : Suggestions Snippet} (chord : Chord)
    (cursor : Position) (h : found.candidates ≠ []) :
    snippetKey src found chord cursor = pure (Completion.snippetKey src found chord cursor) := by
  obtain ⟨s, hmodel, hchosen⟩ := exists_chosen h
  rw [snippetKey]
  cases hkey : chord.key with
  | up => simp only [previous_eq h, pure_bind, Completion.snippetKey, hkey]
  | down => simp only [next_eq h, pure_bind, Completion.snippetKey, hkey]
  | tab | right =>
      simp only [hchosen, pure_bind, completeSnippet_eq, Completion.snippetKey, hkey, hmodel]
  | enter =>
      simp only [hchosen, pure_bind, completeSnippet_eq, execute_eq, Completion.snippetKey, hkey,
        hmodel]
      split <;> rfl
  | left | backspace | escape | shift | char | named => rfl

theorem symbolKey_eq (src : Sources) {found : Suggestions SymbolMatch} (chord : Chord)
    (cursor : Position) (h : found.candidates ≠ []) :
    symbolKey src found chord cursor = pure (Completion.symbolKey src found chord cursor) := by
  obtain ⟨m, hmodel, hchosen⟩ := exists_chosen h
  rw [symbolKey]
  cases hkey : chord.key with
  | up => simp only [previous_eq h, pure_bind, Completion.symbolKey, hkey]
  | down => simp only [next_eq h, pure_bind, Completion.symbolKey, hkey]
  | tab | right =>
      simp only [hchosen, pure_bind, completeSymbol_eq, Completion.symbolKey, hkey, hmodel]
  | enter =>
      simp only [hchosen, pure_bind, applySymbol_eq, Completion.symbolKey, hkey, hmodel]
  | left | backspace | escape | shift | char | named => rfl

/-! ### An open popup has candidates -/

/-- The popup is closed, or has candidates. -/
def Stocked : Completion → Prop
  | .idle => True
  | .snippets found => found.candidates ≠ []
  | .symbols found => found.candidates ≠ []

variable {state later : Completion}

theorem onKey_eq (src : Sources) (chord : Chord) (cursor : Position) (h : Stocked state) :
    onKey src state chord cursor = pure (state.onKey src chord cursor) := by
  cases state with
  | idle => rfl
  | snippets found => exact snippetKey_eq src chord cursor h
  | symbols found => exact symbolKey_eq src chord cursor h

theorem choose_eq (src : Sources) (state : Completion) (index : Nat) (cursor : Position) :
    choose src state index cursor = pure (state.choose src index cursor) := by
  cases state with
  | idle => rfl
  | snippets found =>
      rw [choose, Completion.choose]
      split
      · rename_i hlt
        rw [chosen_highlight hlt, pure_bind, execute_eq, pure_bind, List.getElem?_eq_getElem hlt]
      · rename_i hge
        rw [List.getElem?_eq_none (Nat.le_of_not_lt hge)]
  | symbols found =>
      rw [choose, Completion.choose]
      split
      · rename_i hlt
        rw [chosen_highlight hlt, pure_bind, applySymbol_eq, pure_bind,
          List.getElem?_eq_getElem hlt]
      · rename_i hge
        rw [List.getElem?_eq_none (Nat.le_of_not_lt hge)]

/-- Candidates are only offered if there are any. -/
theorem candidates_of_offer? {q : Query} {candidates : List α} {selected : Option Nat}
    {found : Suggestions α} (h : Suggestions.offer? q candidates selected = some found) :
    found.candidates ≠ [] := by
  rw [Suggestions.offer?] at h
  obtain ⟨hsome, hfound⟩ := Option.ite_none_left_eq_some.mp h
  obtain rfl := Option.some.inj hfound
  exact fun hnil => hsome (List.isEmpty_iff.mpr hnil)

theorem stocked_update (src : Sources) (state : Completion) (query : Option Query) :
    Stocked (state.update src query) := by
  cases query with
  | none => trivial
  | some q =>
      rw [Completion.update]
      cases q.kind with
      | snippet =>
          dsimp only
          split
          · rename_i found hfound
            exact candidates_of_offer? hfound
          · trivial
      | symbol =>
          dsimp only
          split
          · rename_i found hfound
            exact candidates_of_offer? hfound
          · trivial

/-- Keys and the pointer take no candidate away. -/
theorem Stocked.retained (h : Stocked state) (hretains : state.Retains later) :
    Stocked later := by
  cases hretains with
  | closed => trivial
  | snippets found selected => exact h
  | symbols found selected => exact h

end Guarded

end MathTyping
