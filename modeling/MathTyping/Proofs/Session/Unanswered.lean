import MathTyping.Proofs.Session.Answer

/-!
# What answers cannot change

An answer of a renderer reaches two places of a session only: the cached pairs
and the ticket that is waited for.  Without these two a session is
`unanswered`.  Answers leave the unanswered session as it is, and every other
event changes it in a way that ignores all answers so far.  So it depends on
the events alone, whenever answers arrive.
-/

namespace MathTyping

namespace Session

/-- A session without what answers bring: no pairs are cached and none is waited for. -/
def unanswered (s : Session) : Session :=
  { s with
    brackets := ⟨s.brackets.region, none⟩
    preview := ⟨s.preview.ticket, none, s.preview.shown⟩ }

/-- A session is known by what answers leave alone, the pairs and the ticket waited for. -/
theorem eq_of_unanswered {s t : Session} (h : s.unanswered = t.unanswered)
    (hpairs : s.brackets.pairs = t.brackets.pairs)
    (hpending : s.preview.pending = t.preview.pending) : s = t := by
  obtain ⟨_, _, _, _, _, ⟨_, _⟩, ⟨_, _, _⟩, _⟩ := s
  obtain ⟨_, _, _, _, _, ⟨_, _⟩, ⟨_, _, _⟩, _⟩ := t
  simp only [unanswered, Session.mk.injEq, BracketCache.mk.injEq, Preview.mk.injEq] at h
  obtain ⟨rfl, rfl, rfl, rfl, rfl, ⟨rfl, -⟩, ⟨rfl, -, rfl⟩, rfl⟩ := h
  dsimp only at hpairs hpending
  rw [hpairs, hpending]

/-- A step ignores answers if it treats a session as if none had arrived. -/
def IgnoresAnswers (step : Step) : Prop :=
  ∀ s, (step s).1.unanswered = (step s.unanswered).1.unanswered

namespace IgnoresAnswers

/-- Sessions that differ in their answers only stay so. -/
theorem congr {step : Step} (h : IgnoresAnswers step) {s t : Session}
    (hst : s.unanswered = t.unanswered) : (step s).1.unanswered = (step t).1.unanswered := by
  rw [h s, hst, ← h t]

theorem andThen {first second : Step} (hfirst : IgnoresAnswers first)
    (hsecond : IgnoresAnswers second) : IgnoresAnswers (andThen first second) := by
  intro s
  exact hsecond.congr (hfirst s)

end IgnoresAnswers

theorem ignoresAnswers_syncPopup : IgnoresAnswers syncPopup := by
  intro s
  by_cases hview : PopupView.of? s.completion = s.popup
  · have hsame : PopupView.of? s.unanswered.completion = s.unanswered.popup := hview
    rw [syncPopup, if_pos hview, syncPopup, if_pos hsame]
    rfl
  · have hother : PopupView.of? s.unanswered.completion ≠ s.unanswered.popup := hview
    have hcompletion : s.unanswered.completion = s.completion := rfl
    rw [syncPopup, if_neg hview, syncPopup, if_neg hother, hcompletion]
    cases PopupView.of? s.completion <;> rfl

theorem ignoresAnswers_updatePreview (setup : Setup) :
    IgnoresAnswers (updatePreview setup) := by
  intro s
  by_cases henabled : setup.config.inlinePreview
  · simp only [updatePreview, unanswered, if_pos henabled, Preview.update]
    cases Preview.equation? s.buffer s.cursor s.completion.isOpen with
    | none => rfl
    | some r =>
        by_cases hsame : s.preview.shown = some (r.content, r.stop)
        · simp [hsame]
        · simp [hsame]
  · simp only [updatePreview, if_neg henabled]
    rfl

/-- Whether pairs are kept or requested anew, the cached region becomes the same. -/
theorem ignoresAnswers_refreshBrackets : IgnoresAnswers refreshBrackets := by
  have hregion : ∀ s : Session, (refreshBrackets s).1.unanswered =
      { s.unanswered with brackets := ⟨Region.locate? s.buffer s.cursor, none⟩ } := by
    intro s
    rw [← refreshBrackets_region s]
    rfl
  intro s
  rw [hregion s, hregion s.unanswered]
  rfl

theorem ignoresAnswers_refresh (setup : Setup) : IgnoresAnswers (refresh setup) := by
  have hcompletion : IgnoresAnswers (updateCompletion setup) := by
    intro s
    exact ignoresAnswers_syncPopup _
  exact hcompletion.andThen
    ((ignoresAnswers_updatePreview setup).andThen ignoresAnswers_refreshBrackets)

theorem ignoresAnswers_cursorMoved (setup : Setup) (cursor : Position) :
    IgnoresAnswers (cursorMoved setup cursor) := by
  have hdefer : IgnoresAnswers (deferRepaint setup) := by
    intro s
    rfl
  intro s
  exact (ignoresAnswers_refresh setup).andThen hdefer _

/-- What a key does depends on the popup and the document, never on answers. -/
theorem ignoresAnswers_keyDown (setup : Setup) (chord : Chord) :
    IgnoresAnswers (hear setup (.keyDown chord)) := by
  intro s
  have hshortcut : s.unanswered.shortcut? setup chord = s.shortcut? setup chord := rfl
  have hjump : s.unanswered.tabJump? setup chord = s.tabJump? setup chord := rfl
  have hcompletion : s.unanswered.completion = s.completion := rfl
  simp only [hear, handle, keyDown, hshortcut, hjump, hcompletion]
  by_cases hopen : s.completion.isOpen
  · simp only [if_pos hopen]
    exact ignoresAnswers_syncPopup _
  · simp only [if_neg hopen]
    cases s.shortcut? setup chord with
    | some splice => rfl
    | none => cases s.tabJump? setup chord <;> rfl

/-- Events other than answers ignore them. -/
theorem ignoresAnswers_hear (setup : Setup) {event : Event} (hevent : event.isRendered = false) :
    IgnoresAnswers (hear setup event) := by
  intro s
  cases event with
  | changed snapshot => exact ignoresAnswers_refresh setup _
  | cursorMoved cursor => exact ignoresAnswers_cursorMoved setup cursor s
  | selectionChanged range =>
      have hmoved := ignoresAnswers_cursorMoved setup (s.buffer.clamp range.stop) s
      have hselect : ∀ (t : Session) (selection : Option Range),
          Session.unanswered { t with selection := selection } =
            { t.unanswered with selection := selection } := fun _ _ => rfl
      show Session.unanswered { (cursorMoved setup (s.buffer.clamp range.stop) s).1 with
          selection := _ } = Session.unanswered
            { (cursorMoved setup (s.buffer.clamp range.stop) s.unanswered).1 with selection := _ }
      rw [hselect, hselect, hmoved]
      rfl
  | keyDown chord => exact ignoresAnswers_keyDown setup chord s
  | hover index => exact ignoresAnswers_syncPopup _
  | select index => exact ignoresAnswers_syncPopup _
  | repaint generation => rfl
  | focus gained => cases gained <;> rfl
  | command command => rfl
  | rendered reply => contradiction
  | close => rfl

/-- Answers leave the unanswered session alone. -/
theorem unanswered_rendered (reply : RenderReply) (s : Session) :
    (rendered reply s).1.unanswered = s.unanswered := by
  cases reply with
  | brackets content result =>
      rcases rendered_brackets_cases content result s with
        ⟨-, h⟩ | ⟨pairs, -, -, h⟩ | ⟨diagnostics, -, -, h⟩ <;> rw [h] <;> rfl
  | preview ticket result =>
      rcases rendered_preview_cases ticket result s with ⟨-, h⟩ | ⟨-, h⟩
      · rw [h]
      · rw [h]
        rfl

end Session

end MathTyping
