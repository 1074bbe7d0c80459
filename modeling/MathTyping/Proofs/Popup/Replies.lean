import MathTyping.Completion

/-!
# The replies of the popup

A key or a click is answered by the state that the popup goes to and by an
outcome.  The replies come in a few forms, listed once for snippets and once for
symbols.  The highlight moves, or the popup stays or closes without an edit, or
a candidate is written in place of the query.  Only a popup of snippets also
edits the query itself: it takes typed characters and erases.

What becomes of the state is read off the forms: keys and the pointer close it or
move its highlight (`Retains`).  `Answers` says that a state offers what a fresh
search for a query finds.
-/

namespace MathTyping

namespace Completion

/-- The forms of a reply of offered snippets. -/
inductive SnippetReply (src : Sources) (found : Suggestions Snippet) (cursor : Position) :
    Completion × Outcome → Prop
  | moved (selected : Option Nat) :
      SnippetReply src found cursor (snippets { found with selected := selected }, .consumed)
  | stayed (o : Outcome) (hquiet : o.splice? = none) :
      SnippetReply src found cursor (snippets found, o)
  | left (o : Outcome) (hquiet : o.splice? = none) : SnippetReply src found cursor (idle, o)
  | completed (s : Snippet) : SnippetReply src found cursor (completeSnippet src found s)
  | executed (s : Snippet) :
      SnippetReply src found cursor (idle, .ofExcept (s.execute found.query src.evaluate))
  | typed (text : Text) :
      SnippetReply src found cursor (snippets found, .splice
        ⟨some (.insert (cursor.left (if found.query.argument.isSome then 2 else 1)) text),
          cursor.right text.units⟩)
  | erased (length : Nat)
      (hlength : length = if found.query.argument = some ['(', ')'] then 2 else 1)
      (hword : found.query.word ≠ []) :
      SnippetReply src found cursor (snippets found, .splice
        ⟨some (.delete (cursor.left (if found.query.argument.isSome then 3 else 2)) length),
          cursor.left length⟩)

/-- The forms of a reply of offered symbols. -/
inductive SymbolReply (src : Sources) (found : Suggestions SymbolMatch) (cursor : Position) :
    Completion × Outcome → Prop
  | moved (selected : Option Nat) :
      SymbolReply src found cursor (symbols { found with selected := selected }, .consumed)
  | stayed : SymbolReply src found cursor (symbols found, .pass)
  | left (o : Outcome) (hquiet : o.splice? = none) : SymbolReply src found cursor (idle, o)
  | completed (m : SymbolMatch) :
      SymbolReply src found cursor
        (symbols found, .splice (m.symbol.complete found.query cursor src.unicode))
  | applied (m : SymbolMatch) :
      SymbolReply src found cursor
        (idle, .splice (m.symbol.apply found.query cursor src.unicode))

/-- A typed character goes into the query, or is a space that closes the popup. -/
theorem snippetReply_character (src : Sources) (found : Suggestions Snippet) (cursor : Position)
    (c : Char) :
    let wordEnd := cursor.left (if found.query.argument.isSome then 2 else 1)
    SnippetReply src found cursor
      (if c = '(' then
        (snippets found, .splice ⟨some (.insert wordEnd ['(', ')']), cursor.right 2⟩)
      else if c = ' ' ∧ found.query.argument.isNone then (idle, .pass)
      else (snippets found, .splice ⟨some (.insert wordEnd [c]), cursor.right (charUnits c)⟩)) := by
  intro wordEnd
  split
  · exact .typed ['(', ')']
  · split
    · exact .left .pass rfl
    · exact .typed [c]

theorem snippetReply_snippetKey (src : Sources) (found : Suggestions Snippet) (chord : Chord)
    (cursor : Position) :
    SnippetReply src found cursor (snippetKey src found chord cursor) := by
  cases hkey : chord.key with
  | up | down =>
      simp only [snippetKey, hkey]
      exact .moved _
  | tab | right =>
      simp only [snippetKey, hkey]
      cases found.chosen? with
      | none => exact .stayed .pass rfl
      | some s => exact .completed s
  | enter =>
      simp only [snippetKey, hkey]
      cases found.chosen? with
      | none => exact .stayed .pass rfl
      | some s =>
          by_cases hmissing : (s.wantsArgument && found.query.argument.isNone) = true
          · simp only [if_pos hmissing]
            exact .completed s
          · simp only [if_neg hmissing]
            exact .executed s
  | escape =>
      simp only [snippetKey, hkey]
      exact .left .consumed rfl
  | shift =>
      simp only [snippetKey, hkey]
      exact .stayed .consumed rfl
  | backspace =>
      simp only [snippetKey, hkey]
      by_cases hword : found.query.word.isEmpty
      · rw [if_pos hword]
        exact .left .pass rfl
      · rw [if_neg hword]
        exact .erased _ rfl (by simpa using hword)
  | left | char _ | named _ =>
      simp only [snippetKey, hkey]
      cases chord.typed? with
      | none => exact .left .pass rfl
      | some c => exact snippetReply_character src found cursor c

theorem symbolReply_symbolKey (src : Sources) (found : Suggestions SymbolMatch) (chord : Chord)
    (cursor : Position) : SymbolReply src found cursor (symbolKey src found chord cursor) := by
  cases hkey : chord.key with
  | up | down =>
      simp only [symbolKey, hkey]
      exact .moved _
  | tab | right =>
      simp only [symbolKey, hkey]
      cases found.chosen? with
      | none => exact .stayed
      | some m => exact .completed m
  | enter =>
      simp only [symbolKey, hkey]
      cases found.chosen? with
      | none => exact .stayed
      | some m => exact .applied m
  | escape =>
      simp only [symbolKey, hkey]
      exact .left .consumed rfl
  | shift | backspace =>
      simp only [symbolKey, hkey]
      exact .stayed
  | left | char _ | named _ =>
      simp only [symbolKey, hkey]
      cases chord.typed? with
      | none => exact .left .pass rfl
      | some c => exact .stayed

/-- A click executes or applies the candidate, if it exists. -/
theorem snippetReply_choose (src : Sources) (found : Suggestions Snippet) (index : Nat)
    (cursor : Position) :
    SnippetReply src found cursor ((snippets found).choose src index cursor) := by
  simp only [choose]
  cases found.candidates[index]? with
  | none => exact .stayed .pass rfl
  | some s => exact .executed s

theorem symbolReply_choose (src : Sources) (found : Suggestions SymbolMatch) (index : Nat)
    (cursor : Position) :
    SymbolReply src found cursor ((symbols found).choose src index cursor) := by
  simp only [choose]
  cases found.candidates[index]? with
  | none => exact .stayed
  | some m => exact .applied m

/-! ### What becomes of the state -/

/-- The state offers what a fresh search for a query finds; a closed popup offers nothing. -/
def Answers (src : Sources) (q : Query) : Completion → Prop
  | idle => False
  | snippets found =>
      found.query = q ∧ q.kind = .snippet ∧ found.candidates = matchingSnippets src q.word
  | symbols found =>
      found.query = q ∧ q.kind = .symbol ∧ found.candidates = src.symbols.search q.word

/-- What keys and the pointer make of a state: it is closed, or its highlight moves. -/
inductive Retains : Completion → Completion → Prop
  | closed (state : Completion) : Retains state idle
  | snippets (found : Suggestions Snippet) (selected : Option Nat) :
      Retains (snippets found) (snippets { found with selected := selected })
  | symbols (found : Suggestions SymbolMatch) (selected : Option Nat) :
      Retains (symbols found) (symbols { found with selected := selected })

variable {src : Sources} {q : Query} {state later : Completion}

theorem Retains.refl (state : Completion) : state.Retains state := by
  cases state with
  | idle => exact .closed idle
  | snippets found => exact .snippets found found.selected
  | symbols found => exact .symbols found found.selected

theorem SnippetReply.retains {found : Suggestions Snippet} {cursor : Position}
    {answer : Completion × Outcome} (h : SnippetReply src found cursor answer) :
    (snippets found).Retains answer.1 := by
  cases h with
  | moved selected => exact .snippets found selected
  | left | executed => exact .closed _
  | stayed | typed | erased => exact .refl _
  | completed s =>
      unfold completeSnippet
      split
      · exact .refl _
      · exact .closed _

theorem SymbolReply.retains {found : Suggestions SymbolMatch} {cursor : Position}
    {answer : Completion × Outcome} (h : SymbolReply src found cursor answer) :
    (symbols found).Retains answer.1 := by
  cases h with
  | moved selected => exact .symbols found selected
  | left | applied => exact .closed _
  | stayed | completed => exact .refl _

theorem retains_onKey (src : Sources) (state : Completion) (chord : Chord) (cursor : Position) :
    state.Retains (state.onKey src chord cursor).1 := by
  cases state with
  | idle => exact .refl _
  | snippets found => exact (snippetReply_snippetKey src found chord cursor).retains
  | symbols found => exact (symbolReply_symbolKey src found chord cursor).retains

theorem retains_hover (state : Completion) (index : Nat) : state.Retains (state.hover index) := by
  cases state with
  | idle => exact .refl _
  | snippets found =>
      simp only [hover, Suggestions.highlight]
      split
      · exact .snippets found _
      · exact .refl _
  | symbols found =>
      simp only [hover, Suggestions.highlight]
      split
      · exact .symbols found _
      · exact .refl _

theorem retains_choose (src : Sources) (state : Completion) (index : Nat) (cursor : Position) :
    state.Retains (state.choose src index cursor).1 := by
  cases state with
  | idle => exact .refl _
  | snippets found => exact (snippetReply_choose src found index cursor).retains
  | symbols found => exact (symbolReply_choose src found index cursor).retains

/-- A state that is retained answers the same query, or is closed. -/
theorem Answers.retained (h : state.Answers src q) (hretains : state.Retains later) :
    later = idle ∨ later.Answers src q := by
  cases hretains with
  | closed => exact Or.inl rfl
  | snippets found selected => exact Or.inr h
  | symbols found selected => exact Or.inr h

theorem Answers.query?_eq (h : state.Answers src q) : state.query? = some q := by
  cases state with
  | idle => exact h.elim
  | snippets found => exact congrArg some h.1
  | symbols found => exact congrArg some h.1

theorem Answers.isOpen (h : state.Answers src q) : state.isOpen := by
  cases state with
  | idle => exact h.elim
  | snippets found => rfl
  | symbols found => rfl

/-- A closed popup stays closed. -/
theorem Retains.eq_idle (hretains : idle.Retains later) : later = idle := by
  cases hretains
  rfl

/-- A popup that is computed for a query answers it, unless nothing is found. -/
theorem answers_update (src : Sources) (state : Completion) (q : Query) :
    state.update src (some q) = idle ∨ (state.update src (some q)).Answers src q := by
  cases hkind : q.kind with
  | snippet =>
      simp only [update, hkind, Suggestions.offer?]
      by_cases hnone : (matchingSnippets src q.word).isEmpty
      · rw [if_pos hnone]
        exact Or.inl rfl
      · rw [if_neg hnone]
        exact Or.inr ⟨rfl, hkind, rfl⟩
  | symbol =>
      simp only [update, hkind, Suggestions.offer?]
      by_cases hnone : (src.symbols.search q.word).isEmpty
      · rw [if_pos hnone]
        exact Or.inl rfl
      · rw [if_neg hnone]
        exact Or.inr ⟨rfl, hkind, rfl⟩

end Completion

end MathTyping
