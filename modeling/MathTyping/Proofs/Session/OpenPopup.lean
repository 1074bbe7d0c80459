import MathTyping.Proofs.Session.Step
import MathTyping.Proofs.Popup.Replies

/-!
# The open popup

The candidates of the popup are searched once, for the query that a report of
the document or the caret puts before the caret.  Until the next report the
popup lives through keys, the pointer, answers and commands, while the document
and the caret are kept elsewhere in the session.

An event either computes the popup anew from the document and the caret that it
leaves, or retains all three.  So an open popup always answers the query that
would be detected now.
-/

namespace MathTyping

namespace Session

/-! ### What an event leaves -/

@[simp] theorem syncPopup_completion (s : Session) :
    (syncPopup s).1.completion = s.completion := by
  rcases syncPopup_cases s with ⟨-, h⟩ | ⟨-, h⟩ | ⟨shown, q, -, -, -, h⟩ <;> rw [h]

@[simp] theorem updatePreview_completion (setup : Setup) (s : Session) :
    (updatePreview setup s).1.completion = s.completion := by
  rw [updatePreview_fst]

/-- The popup was computed for the document and the caret of a session, and the caret was
brought into the document. -/
def Computed (setup : Setup) (s : Session) : Prop :=
  (∃ p, s.cursor = s.buffer.clamp p) ∧
    ∃ earlier : Completion, s.completion = earlier.update setup.sources s.currentQuery?

/-- The document and the caret are the same, and the popup was closed or rehighlighted. -/
structure Kept (s t : Session) : Prop where
  buffer : t.buffer = s.buffer
  cursor : t.cursor = s.cursor
  completion : s.completion.Retains t.completion

theorem place_refresh (setup : Setup) (s : Session) :
    (refresh setup s).1.buffer = s.buffer ∧ (refresh setup s).1.cursor = s.cursor :=
  ⟨(updatePreview_buffer setup _).trans (syncPopup_buffer _),
    (updatePreview_cursor setup _).trans (syncPopup_cursor _)⟩

/-- Following the document and the caret computes the popup for them. -/
theorem computed_refresh (setup : Setup) (s : Session) (p : Position)
    (hcursor : s.cursor = s.buffer.clamp p) : Computed setup (refresh setup s).1 := by
  obtain ⟨hbuffer, hsame⟩ := place_refresh setup s
  have hcompletion : (refresh setup s).1.completion =
      s.completion.update setup.sources s.currentQuery? :=
    (updatePreview_completion setup _).trans (syncPopup_completion _)
  refine ⟨⟨p, ?_⟩, s.completion, ?_⟩
  · rw [hbuffer, hsame, hcursor]
  · rw [hcompletion, currentQuery?, currentQuery?, hbuffer, hsame]

/-- Whatever the popup answers to an input, only its own state changes. -/
theorem kept_syncPopup {s : Session} {completion : Completion}
    (h : s.completion.Retains completion) :
    Kept s (syncPopup { s with completion := completion }).1 where
  buffer := syncPopup_buffer _
  cursor := syncPopup_cursor _
  completion := by
    rw [syncPopup_completion]
    exact h

theorem kept_rendered (reply : RenderReply) (s : Session) : Kept s (rendered reply s).1 := by
  cases reply <;> exact ⟨rfl, rfl, .refl _⟩

/-- An event computes the popup anew from the document and the caret that it leaves, or
retains all three. -/
theorem computed_or_kept_hear (setup : Setup) (event : Event) (s : Session) :
    Computed setup (hear setup event s).1 ∨ Kept s (hear setup event s).1 := by
  cases event with
  | changed snapshot => exact Or.inl (computed_refresh setup _ snapshot.cursor rfl)
  | cursorMoved cursor => exact Or.inl (computed_refresh setup _ cursor rfl)
  | selectionChanged range =>
      exact Or.inl (computed_refresh setup _ (s.buffer.clamp range.stop) rfl)
  | keyDown chord =>
      refine Or.inr ?_
      simp only [hear, handle, keyDown]
      split
      · exact kept_syncPopup (Completion.retains_onKey setup.sources _ chord _)
      · split
        · exact ⟨rfl, rfl, .refl _⟩
        · split <;> exact ⟨rfl, rfl, .refl _⟩
  | hover index => exact Or.inr (kept_syncPopup (Completion.retains_hover _ index))
  | select index =>
      exact Or.inr (kept_syncPopup (Completion.retains_choose setup.sources _ index _))
  | repaint generation => exact Or.inr ⟨rfl, rfl, .refl _⟩
  | focus gained =>
      cases gained with
      | true => exact Or.inr ⟨rfl, rfl, .refl _⟩
      | false => exact Or.inr ⟨rfl, rfl, .closed _⟩
  | command command => exact Or.inr ⟨rfl, rfl, .refl _⟩
  | rendered reply => exact Or.inr (kept_rendered reply s)
  | close => exact Or.inr ⟨rfl, rfl, .closed _⟩

/-! ### Runs -/

/-- The popup is closed, or answers the query at the caret. -/
def PopupCurrent (setup : Setup) (s : Session) : Prop :=
  s.completion = .idle ∨
    ∃ q, s.currentQuery? = some q ∧ s.completion.Answers setup.sources q

theorem Computed.popupCurrent {setup : Setup} {s : Session} (h : Computed setup s) :
    PopupCurrent setup s := by
  obtain ⟨-, earlier, hcompletion⟩ := h
  cases hquery : s.currentQuery? with
  | none =>
      rw [hquery] at hcompletion
      exact Or.inl hcompletion
  | some q =>
      rw [PopupCurrent, hcompletion, hquery]
      rcases Completion.answers_update setup.sources earlier q with hidle | hanswers
      · exact Or.inl hidle
      · exact Or.inr ⟨q, rfl, hanswers⟩

theorem PopupCurrent.kept {setup : Setup} {s t : Session} (h : PopupCurrent setup s)
    (hkept : Kept s t) : PopupCurrent setup t := by
  have hquery : t.currentQuery? = s.currentQuery? := by
    rw [currentQuery?, currentQuery?, hkept.buffer, hkept.cursor]
  rcases h with hidle | ⟨q, hcurrent, hanswers⟩
  · refine Or.inl (Completion.Retains.eq_idle ?_)
    rw [← hidle]
    exact hkept.completion
  · rcases hanswers.retained hkept.completion with hidle | hlater
    · exact Or.inl hidle
    · exact Or.inr ⟨q, hquery.trans hcurrent, hlater⟩

/-- After every run the popup is closed or answers the query at the caret. -/
theorem popupCurrent_after (setup : Setup) (events : List Event) :
    PopupCurrent setup (after setup events) := by
  induction events using List.reverseRecOn with
  | nil => exact Or.inl rfl
  | append_singleton events event ih =>
      rw [after_concat]
      rcases computed_or_kept_hear setup event (after setup events) with hcomputed | hkept
      · exact hcomputed.popupCurrent
      · exact ih.kept hkept

/-- There is a query to suggest for only inside math and outside code. -/
theorem currentQuery?_eq_some_iff {s : Session} {q : Query} :
    s.currentQuery? = some q ↔
      (Region.locate? s.buffer s.cursor).isSome ∧ CodeContext.inCode s.buffer s.cursor = false ∧
        Query.detectAt? s.buffer s.cursor = some q := by
  unfold currentQuery?
  cases hregion : Region.locate? s.buffer s.cursor with
  | none => simp
  | some region =>
      cases hcode : CodeContext.inCode s.buffer s.cursor <;> simp

/-- **An open popup is never stale and never outside math.**  After every run, if the popup is
open then the caret is in a region and not in code, the query of the popup is the one detected
at the caret, and its candidates are those of a fresh search: the configured snippets whose
name contains the word, in their order, or the ranked symbols for the word. -/
theorem open_popup_current (setup : Setup) (events : List Event)
    (hopen : (after setup events).completion ≠ .idle) :
    let s := after setup events
    (Region.locate? s.buffer s.cursor).isSome ∧
      CodeContext.inCode s.buffer s.cursor = false ∧
      ∃ q, s.completion.query? = some q ∧ Query.detectAt? s.buffer s.cursor = some q ∧
        match s.completion with
        | .idle => False
        | .snippets found =>
            q.kind = .snippet ∧
              found.candidates = setup.config.snippets.filter fun c => c.name.contains q.word
        | .symbols found =>
            q.kind = .symbol ∧ found.candidates = setup.symbols.search q.word := by
  intro s
  rcases popupCurrent_after setup events with hidle | ⟨q, hquery, hanswers⟩
  · exact absurd hidle hopen
  · obtain ⟨hregion, hcode, hdetected⟩ := currentQuery?_eq_some_iff.mp hquery
    refine ⟨hregion, hcode, q, ?_⟩
    change s.completion.Answers setup.sources q at hanswers
    cases hcompletion : s.completion with
    | idle => exact absurd hcompletion hopen
    | snippets found =>
        rw [hcompletion] at hanswers
        obtain ⟨hsame, hkind, hcandidates⟩ := hanswers
        exact ⟨congrArg some hsame, hdetected, hkind, hcandidates⟩
    | symbols found =>
        rw [hcompletion] at hanswers
        obtain ⟨hsame, hkind, hcandidates⟩ := hanswers
        exact ⟨congrArg some hsame, hdetected, hkind, hcandidates⟩

/-- A setup with two snippets, one of them a beginning of the other. -/
def snippetSetup : Setup :=
  { plainSetup with
    config := { Config.standard with
      snippets := [{ Snippet.standard with name := "frac".toList },
        { Snippet.standard with name := "fraction".toList }] } }

/-- A snippet name is typed in math, and the second candidate is highlighted by key and by
pointer. -/
def highlightSecond : List Event :=
  [.changed ⟨"$1+frac@$".toList, ⟨0, 8⟩⟩, .keyDown (.plain .down), .hover 1]

/-- The highlighted popup still answers the query at the caret. -/
theorem highlighted_popup_current :
    let s := after snippetSetup highlightSecond
    s.completion ≠ .idle ∧ s.completion.selected? = some 1 ∧
      ∃ q, s.completion.query? = some q ∧ Query.detectAt? s.buffer s.cursor = some q ∧
        q.word = "frac".toList := by
  intro s
  have hopen : s.completion ≠ .idle := by decide +kernel
  obtain ⟨-, -, q, hquery, hdetected, -⟩ := open_popup_current snippetSetup highlightSecond hopen
  refine ⟨hopen, by decide +kernel, q, hquery, hdetected, ?_⟩
  have hword : (Query.detectAt? s.buffer s.cursor).map (·.word) = some "frac".toList := by
    decide +kernel
  rw [hdetected] at hword
  exact Option.some.inj hword

end Session

end MathTyping
