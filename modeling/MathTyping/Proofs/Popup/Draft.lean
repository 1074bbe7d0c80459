import MathTyping.Proofs.Popup.Edits

/-!
# A draft under the popup

The popup answers a key with a splice and never sees the document.  What a user sees is the
whole round: the splice is carried out, the query is detected again at the caret that it
leaves, and the popup is computed anew from what the key made of it.  A `Draft` is a document
with its caret and its popup, and `press?` is one round.

The popup that a round leaves open was computed for the query that was found
(`Completion.answers_of_update`), and a round leaves it closed exactly if nothing is offered for
that query (`Completion.update_eq_idle_iff`).
-/

namespace MathTyping

/-- A document, the caret in it, and the popup over it. -/
structure Draft where
  buffer : Buffer
  caret : Position
  popup : Completion
deriving DecidableEq

namespace Draft

/-- Press a key that the popup answers with a splice, carry the splice out, and follow the
query at the new caret. -/
def press? (src : Sources) (d : Draft) (chord : Chord) : Option Draft :=
  let answer := d.popup.onKey src chord d.caret
  answer.2.splice?.map fun s =>
    ⟨(s.apply d.buffer).1, (s.apply d.buffer).2,
      answer.1.update src (Query.detectAt? (s.apply d.buffer).1 (s.apply d.buffer).2)⟩

variable {src : Sources} {d : Draft} {chord : Chord}

theorem press?_of_splice {state : Completion} {s : Splice} {b : Buffer} {caret : Position}
    (h : d.popup.onKey src chord d.caret = (state, .splice s))
    (hs : s.apply d.buffer = (b, caret)) :
    d.press? src chord = some ⟨b, caret, state.update src (Query.detectAt? b caret)⟩ := by
  rw [press?, h]
  dsimp only [Outcome.splice?, Option.map_some]
  rw [hs]

theorem press?_of_pass {state : Completion}
    (h : d.popup.onKey src chord d.caret = (state, .pass)) : d.press? src chord = none := by
  rw [press?, h]
  rfl

end Draft

/-! ### The popup that is computed -/

namespace Completion

/-- Something is found for a query. -/
def Offers (src : Sources) (q : Query) : Prop :=
  match q.kind with
  | .snippet => matchingSnippets src q.word ≠ []
  | .symbol => src.symbols.search q.word ≠ []

variable {src : Sources} {state later : Completion} {q : Query}

theorem update_snippets (hkind : q.kind = .snippet) (hsome : matchingSnippets src q.word ≠ []) :
    state.update src (some q) =
      snippets ⟨q, matchingSnippets src q.word,
        ((matchingSnippets src q.word).findIdx? (·.name == q.word)).or
          (Suggestions.surviving (matchingSnippets src q.word) state.snippetHighlight?)⟩ := by
  simp only [update, hkind]
  rw [Suggestions.offer?, if_neg (by simpa using hsome)]

theorem update_symbols (hkind : q.kind = .symbol) (hsome : src.symbols.search q.word ≠ []) :
    state.update src (some q) =
      symbols ⟨q, src.symbols.search q.word,
        Suggestions.surviving (src.symbols.search q.word) state.symbolHighlight?⟩ := by
  simp only [update, hkind]
  rw [Suggestions.offer?, if_neg (by simpa using hsome)]

/-- The popup is closed exactly if nothing is found for what is asked for. -/
theorem update_eq_idle_iff (src : Sources) (state : Completion) (found : Option Query) :
    state.update src found = idle ↔ ∀ q, found = some q → ¬ Offers src q := by
  cases found with
  | none => exact iff_of_true rfl fun q h => by contradiction
  | some q =>
      have hquery : (∀ p, some q = some p → ¬ Offers src p) ↔ ¬ Offers src q :=
        ⟨fun h => h q rfl, fun h p hp => Option.some.inj hp ▸ h⟩
      rw [hquery]
      cases hkind : q.kind with
      | snippet =>
          by_cases hnone : matchingSnippets src q.word = []
          · simp [update, Offers, Suggestions.offer?, hkind, hnone]
          · simp [update_snippets hkind hnone, Offers, hkind, hnone]
      | symbol =>
          by_cases hnone : src.symbols.search q.word = []
          · simp [update, Offers, Suggestions.offer?, hkind, hnone]
          · simp [update_symbols hkind hnone, Offers, hkind, hnone]

/-- An open popup was computed for a query that was found, and answers it. -/
theorem answers_of_update {found : Option Query} (h : state.update src found = later)
    (hopen : later ≠ idle) : ∃ q, found = some q ∧ later.Answers src q := by
  cases found with
  | none => exact absurd h.symm hopen
  | some q =>
      rcases answers_update src state q with hidle | hanswers
      · exact absurd (h.symm.trans hidle) hopen
      · exact ⟨q, rfl, h ▸ hanswers⟩

end Completion

end MathTyping
