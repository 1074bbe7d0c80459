import MathTyping.Proofs.Buffer.Replacing
import MathTyping.Proofs.Session.Reached
import MathTyping.Proofs.Text.Occurrences

/-!
# The held selection

A host may report a selection backwards, empty, out of the document, or with ends inside
surrogate pairs.  What a session holds on to is brought into the document and put in order, and
an empty one is dropped.  Every other report of the document or the caret drops the selection,
and so does the end of the session; between reports the document, the caret and the selection
stay together.  So a held selection is always one of the document of the session, with the caret
at one of its ends (`Holds`).

A typed shortcut replaces the selection and forgets it.  The range, and the text between its
ends, are cut from the document at the same two places, so the text before the selection and the
text behind it stay, whatever characters its ends are inside of.
-/

namespace MathTyping

namespace Shortcut

/-- A filled template has the selected text at every marker. -/
theorem replaced_fill (shortcut : Shortcut) (selected : Text) :
    Text.Replaced selectionMarker selected shortcut.content (shortcut.fill selected) :=
  (Text.replaced_iff (List.cons_ne_nil _ _)).mpr rfl

/-- A shortcut exchanges the selection for the filled template. -/
theorem text_apply {b : Buffer} {r : Range} {pre mid post : Text}
    (htext : b.text = pre ++ mid ++ post) (hrange : b.byteRange r = (pre.bytes, (pre ++ mid).bytes))
    (shortcut : Shortcut) (selected : Text) :
    ((shortcut.apply r selected).apply b).1.text = pre ++ shortcut.fill selected ++ post :=
  congrArg Buffer.text (Buffer.replace_of_cuts htext hrange (shortcut.fill selected))

end Shortcut

namespace Session

variable {config : Config} {symbols : SymbolIndex} {setup : Setup} {s t : Session} {r : Range}
  {chord : Chord} {c : Char}

/-! ### The small steps -/

@[simp] theorem syncPopup_selection (s : Session) : (syncPopup s).1.selection = s.selection := by
  rcases syncPopup_cases s with ⟨-, h⟩ | ⟨-, h⟩ | ⟨shown, q, -, -, -, h⟩ <;> rw [h]

@[simp] theorem updatePreview_selection (setup : Setup) (s : Session) :
    (updatePreview setup s).1.selection = s.selection := by
  rw [updatePreview_fst]

theorem refresh_selection (setup : Setup) (s : Session) :
    (refresh setup s).1.selection = s.selection :=
  (updatePreview_selection setup _).trans (syncPopup_selection _)

theorem rendered_selection (reply : RenderReply) (s : Session) :
    (rendered reply s).1.selection = s.selection := by
  cases reply <;> rfl

/-! ### Events -/

/-- A selection that is in order and not empty, in the document of a session, with the caret at
one of its ends. -/
structure Holds (s : Session) (r : Range) : Prop where
  nonempty : r.isEmpty = false
  ordered : r.start ≤ r.stop
  start : s.buffer.clamp r.start = r.start
  stop : s.buffer.clamp r.stop = r.stop
  caret : s.cursor = r.start ∨ s.cursor = r.stop

/-- What an event makes of the selection: it is dropped, it stays with the document and the caret,
or it is made anew, with the caret at the second of two places. -/
inductive Reselects (s t : Session) : Prop
  | dropped (h : t.selection = none)
  | kept (hbuffer : t.buffer = s.buffer) (hcursor : t.cursor = s.cursor)
      (hselection : t.selection = s.selection)
  | made (anchor head : Position) (hanchor : t.buffer.clamp anchor = anchor)
      (hhead : t.buffer.clamp head = head) (hcursor : t.cursor = head)
      (hselection : t.selection = some (Session.ordered anchor head))
      (hnonempty : (Session.ordered anchor head).isEmpty = false)

theorem reselects_refresh (setup : Setup) (s : Session) (h : s.selection = none) :
    Reselects t (refresh setup s).1 :=
  .dropped ((refresh_selection setup s).trans h)

theorem reselects_syncPopup (s : Session) (completion : Completion) :
    Reselects s (syncPopup { s with completion := completion }).1 :=
  .kept (syncPopup_buffer _) (syncPopup_cursor _) (syncPopup_selection _)

theorem reselects_selectionChanged (setup : Setup) (range : Range) (s : Session) :
    Reselects s (selectionChanged setup range s).1 := by
  let anchor := s.buffer.clamp range.start
  let head := s.buffer.clamp range.stop
  obtain ⟨hbuffer, hcursor⟩ :=
    place_refresh setup { s with cursor := s.buffer.clamp head, selection := none }
  have hselection : (selectionChanged setup range s).1.selection =
      if (ordered anchor head).isEmpty then none else some (ordered anchor head) := rfl
  by_cases hempty : (ordered anchor head).isEmpty
  · exact .dropped (hselection.trans (if_pos hempty))
  · refine .made anchor head ?_ ?_ ?_ (hselection.trans (if_neg hempty))
      (Bool.eq_false_iff.mpr hempty)
    · exact (congrArg (Buffer.clamp · anchor) hbuffer).trans (Buffer.clamp_clamp _ _)
    · exact (congrArg (Buffer.clamp · head) hbuffer).trans (Buffer.clamp_clamp _ _)
    · exact hcursor.trans (Buffer.clamp_clamp _ _)

/-- Every event drops the selection, keeps it, or makes it. -/
theorem reselects_hear (setup : Setup) (event : Event) (s : Session) :
    Reselects s (hear setup event s).1 := by
  cases event with
  | changed snapshot => exact reselects_refresh setup _ rfl
  | cursorMoved cursor => exact .dropped (refresh_selection setup _)
  | selectionChanged range => exact reselects_selectionChanged setup range s
  | keyDown chord =>
      simp only [hear, handle, keyDown]
      split
      · exact reselects_syncPopup s _
      · split
        · exact .dropped rfl
        · split <;> exact .kept rfl rfl rfl
  | hover index => exact reselects_syncPopup s _
  | select index => exact reselects_syncPopup s _
  | repaint generation => exact .kept rfl rfl rfl
  | focus gained =>
      cases gained with
      | true => exact .kept rfl rfl rfl
      | false => exact .dropped rfl
  | command command => exact .kept rfl rfl rfl
  | rendered reply =>
      obtain ⟨hbuffer, hcursor, -⟩ := kept_rendered reply s
      exact .kept hbuffer hcursor (rendered_selection reply s)
  | close => exact .dropped rfl

theorem ordered_le (p q : Position) : (ordered p q).start ≤ (ordered p q).stop := by
  unfold ordered
  split
  · assumption
  · exact le_of_not_ge ‹_›

/-- The ends of two places in order are the two places. -/
theorem ordered_cases (p q : Position) : ordered p q = ⟨p, q⟩ ∨ ordered p q = ⟨q, p⟩ := by
  unfold ordered
  split
  · exact Or.inl rfl
  · exact Or.inr rfl

theorem Reselects.holds (h : Reselects s t) (hold : ∀ r, s.selection = some r → s.Holds r)
    (hr : t.selection = some r) : t.Holds r := by
  cases h with
  | dropped hnone =>
      rw [hnone] at hr
      contradiction
  | kept hbuffer hcursor hselection =>
      obtain ⟨hnonempty, hordered, hstart, hstop, hcaret⟩ := hold r (hselection.symm.trans hr)
      exact ⟨hnonempty, hordered, by rw [hbuffer, hstart], by rw [hbuffer, hstop],
        by rwa [hcursor]⟩
  | made anchor head hanchor hhead hcursor hselection hnonempty =>
      obtain rfl : ordered anchor head = r := Option.some.inj (hselection.symm.trans hr)
      have hle := ordered_le anchor head
      rcases ordered_cases anchor head with h | h
      · rw [h] at hnonempty hle ⊢
        exact ⟨hnonempty, hle, hanchor, hhead, Or.inr hcursor⟩
      · rw [h] at hnonempty hle ⊢
        exact ⟨hnonempty, hle, hhead, hanchor, Or.inl hcursor⟩

/-- Whatever a host has reported, the held selection is one of the document. -/
theorem Reached.holds (h : Reached config symbols s) :
    ∀ r, s.selection = some r → s.Holds r := by
  induction h with
  | initial =>
      intro r hr
      contradiction
  | heard h evaluate event ih =>
      intro r hr
      exact (reselects_hear ⟨_, _, evaluate⟩ event _).holds ih hr

/-! ### Typed shortcuts -/

/-- A typed character that no popup takes is for the shortcuts alone. -/
theorem handle_keyDown_of_typed (hclosed : s.completion = .idle) (htyped : chord.typed? = some c)
    (setup : Setup) :
    handle setup s (.keyDown chord) =
      match s.shortcut? setup chord with
      | some splice => ({ s with selection := none }, ⟨true, [.splice splice]⟩)
      | none => (s, ⟨false, []⟩) := by
  have hopen : ¬ s.completion.isOpen := by
    rw [hclosed]
    exact Bool.false_ne_true
  have htab : s.tabJump? setup chord = none := by
    refine if_neg fun h => ?_
    rw [Chord.typed?, h.1] at htyped
    contradiction
  cases hshortcut : s.shortcut? setup chord <;>
    simp only [handle, keyDown, if_neg hopen, htab, hshortcut]

/-- A character is a shortcut while there is a selection to wrap, inside math. -/
theorem shortcut?_eq_some_iff {splice : Splice} (htyped : chord.typed? = some c) :
    s.shortcut? setup chord = some splice ↔
      ∃ r shortcut, s.selection = some r ∧ setup.config.shortcuts.find? c = some shortcut ∧
        (Region.locate? s.buffer s.cursor).isSome ∧
        splice = shortcut.apply r (s.buffer.slice r) := by
  simp only [shortcut?, htyped, bind, pure, Option.bind_eq_some_iff, Option.isSome_iff_exists]
  constructor
  · rintro ⟨r, hr, typed, hsame, shortcut, hfound, region, hregion, hsplice⟩
    obtain rfl : c = typed := Option.some.inj hsame
    exact ⟨r, shortcut, hr, hfound, ⟨region, hregion⟩, (Option.some.inj hsplice).symm⟩
  · rintro ⟨r, shortcut, hr, hfound, ⟨region, hregion⟩, rfl⟩
    exact ⟨r, hr, c, rfl, shortcut, hfound, region, hregion, rfl⟩

/-- A typed character that is no shortcut is left to the editor. -/
theorem handle_keyDown_of_no_shortcut (hclosed : s.completion = .idle)
    (htyped : chord.typed? = some c)
    (hnone : s.selection = none ∨ setup.config.shortcuts.find? c = none ∨
      Region.locate? s.buffer s.cursor = none) :
    handle setup s (.keyDown chord) = (s, ⟨false, []⟩) := by
  have hshortcut : s.shortcut? setup chord = none := by
    refine Option.eq_none_iff_forall_ne_some.mpr fun splice hsome => ?_
    obtain ⟨r, shortcut, hr, hfound, hinside, -⟩ := (shortcut?_eq_some_iff htyped).mp hsome
    rcases hnone with h | h | h
    · rw [h] at hr
      contradiction
    · rw [h] at hfound
      contradiction
    · rw [h] at hinside
      contradiction
  rw [handle_keyDown_of_typed hclosed htyped, hshortcut]

/-- **A held selection is valid, and a shortcut replaces exactly it.**  In every reached session
a held selection is in order, not empty, in the document, and has the caret at one of its ends.
Let a character be typed while no popup is open.  If it is a shortcut and something is selected
with the caret in math, then the answer is one splice that exchanges the selected text, and
nothing else, for the template with the selected text at every marker, and the selection is
forgotten.  Otherwise the character is left to the editor, and nothing changes. -/
theorem selection_held_and_wrapped (hreached : Reached config symbols s) :
    (∀ r, s.selection = some r → s.Holds r) ∧
      ∀ evaluate chord c, chord.typed? = some c → s.completion = .idle →
        let answer := handle ⟨config, symbols, evaluate⟩ s (.keyDown chord)
        (∀ r shortcut, s.selection = some r → config.shortcuts.find? c = some shortcut →
            (Region.locate? s.buffer s.cursor).isSome →
            ∃ splice pre filled post,
              answer = ({ s with selection := none }, ⟨true, [.splice splice]⟩) ∧
              s.buffer.text = pre ++ s.buffer.slice r ++ post ∧
              s.buffer.toByte r.start = pre.bytes ∧
              s.buffer.toByte r.stop = (pre ++ s.buffer.slice r).bytes ∧
              Text.Replaced selectionMarker (s.buffer.slice r) shortcut.content filled ∧
              (splice.apply s.buffer).1.text = pre ++ filled ++ post) ∧
          (s.selection = none ∨ config.shortcuts.find? c = none ∨
              Region.locate? s.buffer s.cursor = none →
            answer = (s, ⟨false, []⟩)) := by
  refine ⟨hreached.holds, fun evaluate chord c htyped hclosed => ⟨?_, ?_⟩⟩
  · intro r shortcut hr hfound hinside
    have hle := Buffer.toByte_mono s.buffer (hreached.holds r hr).ordered
    obtain ⟨pre, mid, post, htext, hrange⟩ := s.buffer.exists_range_cuts r
    obtain ⟨hstart, hstop⟩ : s.buffer.toByte r.start = pre.bytes ∧
        s.buffer.toByte r.stop = (pre ++ mid).bytes := by
      rw [Buffer.byteRange, Nat.min_eq_left hle, Nat.max_eq_right hle] at hrange
      exact Prod.mk.inj hrange
    have hsplice : s.shortcut? ⟨config, symbols, evaluate⟩ chord =
        some (shortcut.apply r (s.buffer.slice r)) :=
      (shortcut?_eq_some_iff htyped).mpr ⟨r, shortcut, hr, hfound, hinside, rfl⟩
    rw [handle_keyDown_of_typed hclosed htyped, hsplice]
    rw [Buffer.slice_of_cuts htext hrange]
    exact ⟨shortcut.apply r mid, pre, shortcut.fill mid, post, rfl, htext, hstart, hstop,
      shortcut.replaced_fill mid, shortcut.text_apply htext hrange mid⟩
  · intro hnone
    exact handle_keyDown_of_no_shortcut hclosed htyped hnone

/-- In math a selection is made backwards, from inside a surrogate pair. -/
def selectBackwards : List Event :=
  [.changed ⟨"$a𝔸+b$".toList, ⟨0, 0⟩⟩, .selectionChanged ⟨⟨0, 3⟩, ⟨0, 1⟩⟩]

/-- The held selection is in order, with the caret at its start.  A parenthesis takes the whole
pair in; a letter is left to the editor. -/
theorem backward_selection_wrapped :
    let s := after plainSetup selectBackwards
    let r : Range := ⟨⟨0, 1⟩, ⟨0, 3⟩⟩
    s.selection = some r ∧ s.Holds r ∧ s.completion = .idle ∧
      (Region.locate? s.buffer s.cursor).isSome ∧
      (∃ splice pre filled post,
        handle plainSetup s (.keyDown (.plain (.char '('))) =
          ({ s with selection := none }, ⟨true, [.splice splice]⟩) ∧
        s.buffer.text = pre ++ "a𝔸".toList ++ post ∧ pre.bytes = 1 ∧
        Text.Replaced selectionMarker "a𝔸".toList "($1)".toList filled ∧
        (splice.apply s.buffer).1.text = pre ++ filled ++ post) ∧
      handle plainSetup s (.keyDown (.plain (.char 'x'))) = (s, ⟨false, []⟩) := by
  intro s r
  have hselection : s.selection = some r := by decide +kernel
  have hclosed : s.completion = .idle := by decide +kernel
  have hinside : (Region.locate? s.buffer s.cursor).isSome := by decide +kernel
  have hslice : s.buffer.slice r = "a𝔸".toList := by decide +kernel
  have hbyte : s.buffer.toByte r.start = 1 := by decide +kernel
  have hreached : Reached plainSetup.config plainSetup.symbols s := reached_after _ _
  clear_value s
  obtain ⟨hholds, hanswers⟩ := selection_held_and_wrapped hreached
  obtain ⟨hwraps, -⟩ := hanswers noScripts (.plain (.char '(')) '(' rfl hclosed
  obtain ⟨splice, pre, filled, post, hanswer, htext, hstart, -, hfilled, happlied⟩ :=
    hwraps r ⟨"($1)".toList, "bracket".toList, 0⟩ hselection (by decide) hinside
  obtain ⟨-, hleft⟩ := hanswers noScripts (.plain (.char 'x')) 'x' rfl hclosed
  rw [hslice] at htext hfilled
  exact ⟨hselection, hholds r hselection, hclosed, hinside,
    ⟨splice, pre, filled, post, hanswer, htext, hstart.symm.trans hbyte, hfilled,
      happlied⟩,
    hleft (Or.inr (Or.inl (by decide)))⟩

end Session

end MathTyping
