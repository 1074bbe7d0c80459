import MathTyping.Proofs.Host.Mirror
import MathTyping.Proofs.Popup.Undo
import MathTyping.Proofs.Session.HeldSelection
import MathTyping.Proofs.Session.PopupEdits
import MathTyping.Render.Local

/-!
# Wrapping the equation around the caret

The command that selects an equation puts the caret at its end.  The session follows this
selection as it follows every move of the caret: what is offered for a word that ends there opens
the popup, and a place between a space and the closing dollar is no place in math.  A shortcut
that is typed next comes after an open popup, and works in math only.

So an equation is wrapped if nothing is offered at its end and its end is in math.  Where symbols
are offered, or the end is not in math, the character is typed over the equation, as any other
character would be.  Where snippets are offered, the character goes into their call.
-/

namespace MathTyping

namespace Completion

/-- Offered symbols let a typed character through. -/
theorem onKey_typed_of_symbols (src : Sources) (found : Suggestions SymbolMatch)
    (cursor : Position) {chord : Chord} {c : Char} (htyped : chord.typed? = some c) :
    (symbols found).onKey src chord cursor = (symbols found, .pass) := by
  simp only [onKey, symbolKey, Chord.key_of_typed? htyped, htyped, closeIf, Option.isNone_some,
    Bool.false_eq_true, if_false]

end Completion

namespace Session

open Effect (editing)

variable {setup : Setup} {s : Session} {chord : Chord}

/-- An open popup decides whether a key is taken, and what it edits. -/
theorem reaction_of_onKey {completion : Completion} {o : Outcome} (hopen : s.completion.isOpen)
    (hkey : s.completion.onKey setup.sources chord s.cursor = (completion, o)) :
    (handle setup s (.keyDown chord)).2.handled = o.handled ∧
      editing (handle setup s (.keyDown chord)).2.effects = o.splice?.toList.map .splice := by
  rw [handle_keyDown_of_open hopen, hkey]
  exact ⟨rfl, editing_outcome o _⟩

/-- The popup is closed where nothing is offered for the query at the caret. -/
theorem Computed.idle_iff (h : Computed setup s) :
    s.completion = .idle ↔
      ∀ q, (Region.locate? s.buffer s.cursor).isSome →
        CodeContext.inCode s.buffer s.cursor = false →
        Query.detectAt? s.buffer s.cursor = some q → ¬ Completion.Offers setup.sources q := by
  obtain ⟨-, earlier, hcompletion⟩ := h
  rw [hcompletion, Completion.update_eq_idle_iff]
  simp only [currentQuery?_eq_some_iff, and_imp]

theorem completion_answerRequests (setup : Setup) (renderer : Renderer) (s : Session)
    (effects : List Effect) :
    (answerRequests setup renderer s effects).1.completion = s.completion :=
  answerRequests_keeps (·.completion) (fun reply _ => by cases reply <;> rfl) s effects

theorem selection_answerRequests (setup : Setup) (renderer : Renderer) (s : Session)
    (effects : List Effect) :
    (answerRequests setup renderer s effects).1.selection = s.selection :=
  answerRequests_keeps (·.selection) rendered_selection s effects

/-- A session that hears of a selection computes the popup for the end of it. -/
theorem computed_dispatch_selectionChanged (setup : Setup) (renderer : Renderer) (range : Range)
    (s : Session) : Computed setup (dispatch setup renderer s (.selectionChanged range)).1 := by
  have hheard : Computed setup (hear setup (.selectionChanged range) s).1 :=
    computed_refresh setup _ (s.buffer.clamp range.stop) rfl
  obtain ⟨hbuffer, hcursor⟩ := place_dispatch setup renderer s (.selectionChanged range)
  have hcompletion := completion_answerRequests setup renderer
    (hear setup (.selectionChanged range) s).1 (hear setup (.selectionChanged range) s).2
  obtain ⟨⟨p, hp⟩, earlier, hearlier⟩ := hheard
  refine ⟨⟨p, ?_⟩, earlier, ?_⟩
  · rw [hbuffer, hcursor, hp]
  · rw [dispatch_eq]
    dsimp only
    rw [hcompletion, hearlier]
    simp only [currentQuery?]
    rw [(place_answerRequests _ _).1, (place_answerRequests _ _).2]

theorem selection_dispatch_selectionChanged (setup : Setup) (renderer : Renderer) {range : Range}
    {s : Session} (hstart : s.buffer.clamp range.start = range.start)
    (hstop : s.buffer.clamp range.stop = range.stop) (hnonempty : range.isEmpty = false) :
    (dispatch setup renderer s (.selectionChanged range)).1.selection = some range := by
  have hle : range.start ≤ range.stop := by
    refine le_of_not_ge fun hge => ?_
    rw [Range.isEmpty, decide_eq_true hge] at hnonempty
    contradiction
  have hordered : ordered range.start range.stop = range := if_pos hle
  rw [dispatch_eq]
  dsimp only
  rw [selection_answerRequests]
  show (if (ordered (s.buffer.clamp range.start) (s.buffer.clamp range.stop)).isEmpty then none
    else some (ordered (s.buffer.clamp range.start) (s.buffer.clamp range.stop))) = _
  rw [hstart, hstop, hordered, hnonempty, if_neg Bool.false_ne_true]

end Session

namespace Host

open Effect (editing)
open Session (Computed)

variable {env : HostSetup} {setup : Setup} {h : Host} {event : Event} {chord : Chord} {c : Char}
  {b : Buffer} {range : Range}

/-! ### Keys -/

/-- However an event is carried out, what it edits is what becomes of the document. -/
theorem document_run (env : HostSetup) (h : Host) (event : Event) :
    (h.run env event).1.screen.document =
      (h.screen.applyAll (editing (Session.hear env.setup event h.session).2)).document := by
  obtain ⟨hdocument, -⟩ := document_step env h event
  rcases events_step env h event with hnone | ⟨change, hchange, hone⟩
  · rw [run_of_quiet hnone]
    exact hdocument
  · rw [run_of_report hone]
    exact (step_report env _ hchange).1.trans hdocument

/-- A key that the session takes is carried out by its splice. -/
theorem press_of_splice (env : HostSetup) {splice : Splice}
    (hhandled : (Session.handle env.setup h.session (.keyDown chord)).2.handled = true)
    (hedits : editing (Session.handle env.setup h.session (.keyDown chord)).2.effects =
      [.splice splice]) :
    (h.press env chord).2 = true ∧
      (h.press env chord).1.screen.buffer = (splice.apply h.screen.buffer).1 := by
  have hran : (h.run env (.keyDown chord)).2 = true := (handled_run env h _).trans hhandled
  have hdocument := document_run env h (.keyDown chord)
  rw [Session.hear, hedits] at hdocument
  rw [press]
  generalize h.run env (.keyDown chord) = ran at hran hdocument
  obtain ⟨host, handled⟩ := ran
  obtain rfl : handled = true := hran
  exact ⟨rfl, congrArg Prod.fst hdocument⟩

/-- A character that the session lets through is typed over the selection. -/
theorem press_of_typed (env : HostSetup) (htyped : chord.typed? = some c)
    (hhandled : (Session.handle env.setup h.session (.keyDown chord)).2.handled = false)
    (hedits : editing (Session.handle env.setup h.session (.keyDown chord)).2.effects = []) :
    (h.press env chord).2 = false ∧
      (h.press env chord).1.screen.buffer =
        h.screen.buffer.replace (h.screen.selection.getD ⟨h.screen.cursor, h.screen.cursor⟩)
          [c] := by
  have hran : (h.run env (.keyDown chord)).2 = false := (handled_run env h _).trans hhandled
  have hdocument := document_run env h (.keyDown chord)
  rw [Session.hear, hedits] at hdocument
  rw [press]
  generalize h.run env (.keyDown chord) = ran at hran hdocument
  obtain ⟨host, handled⟩ := ran
  obtain rfl : handled = false := hran
  have hbuffer : host.screen.buffer = h.screen.buffer := congrArg Prod.fst hdocument
  have hcursor : host.screen.cursor = h.screen.cursor := congrArg (·.2.1) hdocument
  have hselection : host.screen.selection = h.screen.selection := congrArg (·.2.2) hdocument
  have haction : defaultAction host.screen chord =
      changedBy (insert host.screen [c]) := by rw [defaultAction, htyped]
  dsimp only
  rw [haction]
  refine ⟨rfl, ?_⟩
  dsimp only [changedBy]
  rw [tell_report env _ rfl]
  have hreport : (Event.changed (insert host.screen [c]).snapshot).isReport := rfl
  have hreported := (step_report env { host with screen := insert host.screen [c] } hreport).1
  refine (congrArg Prod.fst hreported).trans ?_
  show (insert host.screen [c]).buffer = _
  rw [insert, hbuffer, hcursor, hselection]

/-! ### The command -/

/-- A host with a selection that the session holds and has computed the popup for. -/
structure Selecting (setup : Setup) (h : Host) (b : Buffer) (range : Range) : Prop where
  document : h.screen.document = (b, range.stop, some range)
  mirrors : Mirrors h
  selection : h.session.selection = some range
  computed : Computed setup h.session

theorem selecting_of_command (hmirrors : Mirrors h) (renderer : Renderer)
    (hselect : Equation.select? h.screen.buffer h.screen.cursor = some range)
    (hnonempty : range.isEmpty = false) :
    Selecting setup (h.perform ⟨setup, renderer⟩ (.command .selectEquation))
      h.screen.buffer range := by
  obtain ⟨r, pre, post, rfl, hstands⟩ := Equation.stands_of_select? hselect
  have hstart : h.session.buffer.clamp r.range.start = r.range.start := by
    rw [← hmirrors.buffer]
    show h.screen.buffer.clamp r.start = r.start
    rw [hstands.start, Buffer.clamp_advance hstands.text_eq]
  have hstop : h.session.buffer.clamp r.range.stop = r.range.stop := by
    rw [← hmirrors.buffer]
    show h.screen.buffer.clamp r.stop = r.stop
    rw [hstands.stop_eq, Buffer.clamp_advance hstands.text]
  have hanswer : Session.handle setup h.session (.command .selectEquation) =
      (h.session, ⟨false, [.setSelection r.range]⟩) := by
    rw [hmirrors.buffer, hmirrors.cursor] at hselect
    simp only [Session.handle, Session.commandEffects, hselect]
    rfl
  have hheard : Session.hear setup (.command .selectEquation) h.session =
      (h.session, [.setSelection r.range]) := by rw [Session.hear, hanswer]
  -- The selection is reported back, and the session that hears of it is the one before.
  have hsession : (h.perform ⟨setup, renderer⟩ (.command .selectEquation)).session =
      (Session.dispatch setup renderer h.session (.selectionChanged r.range)).1 := by
    obtain ⟨-, hevents⟩ := document_step ⟨setup, renderer⟩ h (.command .selectEquation)
    rw [hheard] at hevents
    have hdispatch := Session.dispatch_eq setup renderer h.session (.command .selectEquation)
    rw [hheard] at hdispatch
    have hkept : (h.step ⟨setup, renderer⟩ (.command .selectEquation)).1.session = h.session := by
      rw [session_step, hdispatch]
      rfl
    show (h.run ⟨setup, renderer⟩ (.command .selectEquation)).1.session = _
    rw [run_of_report hevents, session_step, hkept]
  refine ⟨?_, mirrors_perform ⟨setup, renderer⟩ hmirrors _, ?_, ?_⟩
  · have hdocument := document_run ⟨setup, renderer⟩ h (.command .selectEquation)
    rw [hheard] at hdocument
    exact hdocument
  · rw [hsession]
    exact Session.selection_dispatch_selectionChanged setup renderer hstart hstop hnonempty
  · rw [hsession]
    exact Session.computed_dispatch_selectionChanged setup renderer r.range h.session

namespace Selecting

variable {shortcut : Shortcut}

theorem buffer_eq (hs : Selecting setup h b range) : h.session.buffer = b :=
  hs.mirrors.buffer.symm.trans (congrArg Prod.fst hs.document)

theorem cursor_eq (hs : Selecting setup h b range) : h.session.cursor = range.stop :=
  hs.mirrors.cursor.symm.trans (congrArg (·.2.1) hs.document)

/-- The popup that is shown is that of the state. -/
theorem popup_eq (hs : Selecting setup h b range) :
    h.screen.popup = PopupView.of? h.session.completion :=
  hs.mirrors.inStep.popup.trans hs.mirrors.inStep.synced

theorem popup_eq_none_iff (hs : Selecting setup h b range) :
    h.screen.popup = none ↔ h.session.completion = .idle := by
  rw [hs.popup_eq]
  cases h.session.completion <;> simp [PopupView.of?]

theorem exists_symbols (hs : Selecting setup h b range) {view : PopupView}
    (hview : h.screen.popup = some view) (hkind : view.kind = .symbol) :
    ∃ found, h.session.completion = .symbols found := by
  rw [hs.popup_eq] at hview
  cases hopen : h.session.completion with
  | symbols found => exact ⟨found, rfl⟩
  | idle =>
      rw [hopen] at hview
      contradiction
  | snippets found =>
      rw [hopen] at hview
      obtain rfl := Option.some.inj hview
      contradiction

/-- Offered snippets are for a call that is detected at the caret. -/
theorem exists_snippets (hs : Selecting setup h b range) {view : PopupView}
    (hview : h.screen.popup = some view) (hkind : view.kind = .snippet) :
    ∃ found, h.session.completion = .snippets found ∧ found.query.kind = .snippet ∧
      Query.detectAt? b range.stop = some found.query := by
  rw [hs.popup_eq] at hview
  cases hopen : h.session.completion with
  | idle =>
      rw [hopen] at hview
      contradiction
  | symbols found =>
      rw [hopen] at hview
      obtain rfl := Option.some.inj hview
      contradiction
  | snippets found =>
      obtain ⟨-, earlier, hcompletion⟩ := hs.computed
      obtain ⟨q, hquery, hanswers⟩ :=
        Completion.answers_of_update (hcompletion.symm.trans hopen) (by simp)
      obtain ⟨-, -, hdetected⟩ := Session.currentQuery?_eq_some_iff.mp hquery
      obtain ⟨rfl, hsnippet, -⟩ := hanswers
      rw [hs.buffer_eq, hs.cursor_eq] at hdetected
      exact ⟨found, rfl, hsnippet, hdetected⟩

/-- Nothing is suggested where there is no math. -/
theorem completion_eq_idle (hs : Selecting setup h b range)
    (houtside : Region.locate? b range.stop = none) : h.session.completion = .idle := by
  rw [hs.computed.idle_iff, hs.buffer_eq, hs.cursor_eq, houtside]
  intro q hinside
  contradiction

/-- Without a popup, a shortcut in math wraps what is selected. -/
theorem press_wraps (hs : Selecting setup h b range) (renderer : Renderer)
    (hclosed : h.session.completion = .idle) (htyped : chord.typed? = some c)
    (hfound : setup.config.shortcuts.find? c = some shortcut)
    (hinside : (Region.locate? b range.stop).isSome) :
    (h.press ⟨setup, renderer⟩ chord).2 = true ∧
      (h.press ⟨setup, renderer⟩ chord).1.screen.buffer =
        ((shortcut.apply range (b.slice range)).apply b).1 := by
  have hsplice : h.session.shortcut? setup chord =
      some (shortcut.apply range (b.slice range)) := by
    rw [Session.shortcut?_eq_some_iff htyped, hs.buffer_eq, hs.cursor_eq]
    exact ⟨range, shortcut, hs.selection, hfound, hinside, rfl⟩
  have hanswer := Session.handle_keyDown_of_typed hclosed htyped setup
  rw [hsplice] at hanswer
  have hpressed := press_of_splice ⟨setup, renderer⟩ (congrArg (·.2.handled) hanswer)
    (congrArg (editing ·.2.effects) hanswer)
  rwa [show h.screen.buffer = b from congrArg Prod.fst hs.document] at hpressed

/-- A character that the session lets through is typed over the equation. -/
theorem press_types (hs : Selecting setup h b range) (renderer : Renderer)
    (htyped : chord.typed? = some c)
    (hhandled : (Session.handle setup h.session (.keyDown chord)).2.handled = false)
    (hedits : editing (Session.handle setup h.session (.keyDown chord)).2.effects = []) :
    (h.press ⟨setup, renderer⟩ chord).2 = false ∧
      (h.press ⟨setup, renderer⟩ chord).1.screen.buffer = b.replace range [c] := by
  have hpressed := press_of_typed ⟨setup, renderer⟩ htyped hhandled hedits
  rwa [show h.screen.buffer = b from congrArg Prod.fst hs.document,
    show h.screen.selection = some range from congrArg (·.2.2) hs.document] at hpressed

/-- A character is let through where symbols are offered, and outside math. -/
theorem press_types_of_left (hs : Selecting setup h b range) (renderer : Renderer)
    (htyped : chord.typed? = some c)
    (hleft : (∃ view, h.screen.popup = some view ∧ view.kind = .symbol) ∨
      Region.locate? b range.stop = none) :
    (h.press ⟨setup, renderer⟩ chord).2 = false ∧
      (h.press ⟨setup, renderer⟩ chord).1.screen.buffer = b.replace range [c] := by
  rcases hleft with ⟨view, hview, hkind⟩ | houtside
  · obtain ⟨found, hopen⟩ := hs.exists_symbols hview hkind
    have hkey := Completion.onKey_typed_of_symbols setup.sources found h.session.cursor htyped
    rw [← hopen] at hkey
    obtain ⟨hhandled, hedits⟩ := Session.reaction_of_onKey (by rw [hopen]; rfl) hkey
    exact hs.press_types renderer htyped hhandled hedits
  · have hanswer : Session.handle setup h.session (.keyDown chord) =
        (h.session, ⟨false, []⟩) := by
      refine Session.handle_keyDown_of_no_shortcut (hs.completion_eq_idle houtside) htyped ?_
      rw [hs.buffer_eq, hs.cursor_eq]
      exact Or.inr (Or.inr houtside)
    exact hs.press_types renderer htyped (congrArg (·.2.handled) hanswer)
      (congrArg (editing ·.2.effects) hanswer)

/-- Offered snippets take the character into their call, and a space behind a name closes them. -/
theorem press_extends_call (hs : Selecting setup h b range) (renderer : Renderer)
    {t post : Text} (htext : b.text = t ++ post) (hstop : range.stop = Position.origin.advance t)
    (htyped : chord.typed? = some c) {view : PopupView} (hview : h.screen.popup = some view)
    (hkind : view.kind = .snippet) :
    let pressed := h.press ⟨setup, renderer⟩ chord
    ∃ q earlier front back, Query.detectAt? b range.stop = some q ∧ q.Takes front back ∧
      t = earlier ++ (front ++ back) ∧
      if c = ' ' ∧ q.argument.isNone then
        pressed.2 = false ∧ pressed.1.screen.buffer = b.replace range [c]
      else
        pressed.2 = true ∧ pressed.1.screen.buffer.text =
          earlier ++ (front ++ Draft.typedText c ++ back) ++ post := by
  intro pressed
  obtain ⟨found, hopen, hsnippet, hdetected⟩ := hs.exists_snippets hview hkind
  rw [hstop] at hdetected
  obtain ⟨earlier, ht, hstands⟩ := Query.stands_of_detectAt?_advance htext hdetected
  obtain ⟨front, back, htakes⟩ := Query.exists_takes hstands.parenthesized
  rw [htakes.text_eq hsnippet] at ht
  rw [hstop]
  refine ⟨found.query, earlier, front, back, hdetected, htakes, ht, ?_⟩
  have hisOpen : h.session.completion.isOpen := by rw [hopen]; rfl
  have hkey := Draft.onKey_typed setup.sources found h.session.cursor htyped
  rw [← hopen, ← htakes.units_eq] at hkey
  split at hkey
  · next hspace =>
    rw [if_pos hspace]
    obtain ⟨hhandled, hedits⟩ := Session.reaction_of_onKey hisOpen hkey
    exact hs.press_types renderer htyped hhandled hedits
  · next hspace =>
    rw [if_neg hspace]
    obtain ⟨hhandled, hedits⟩ := Session.reaction_of_onKey hisOpen hkey
    obtain ⟨htaken, hbuffer⟩ := press_of_splice ⟨setup, renderer⟩ hhandled hedits
    refine ⟨htaken, ?_⟩
    rw [show h.screen.buffer = b from congrArg Prod.fst hs.document, hs.cursor_eq, hstop,
      hstands.apply_insert (htakes.text_eq hsnippet)] at hbuffer
    exact congrArg Buffer.text hbuffer

end Selecting

/-- **A shortcut wraps the equation that has just been selected**, if nothing is offered at the end
of the equation and the end is in math: the key is taken, and the selected text becomes the
template with the text at every marker.  Where symbols are offered, or the end is not in math, the
key is left to the editor, which types the character over the equation.  Where snippets are
offered, the character goes into the call that ends there, or it is a space that closes them and
is typed over the equation.  The rest of the document stays. -/
theorem selected_equation_wrapped (setup : Setup) (turns : List (Renderer × Operation))
    (first second : Renderer) {chord : Chord} {c : Char} {range : Range} {shortcut : Shortcut}
    (hselect : Equation.select? (after setup turns).screen.buffer
      (after setup turns).screen.cursor = some range)
    (hnonempty : range.isEmpty = false) (htyped : chord.typed? = some c)
    (hfound : setup.config.shortcuts.find? c = some shortcut) :
    let b := (after setup turns).screen.buffer
    let selecting := (after setup turns).perform ⟨setup, first⟩ (.command .selectEquation)
    let pressed := selecting.press ⟨setup, second⟩ chord
    (selecting.screen.popup = none ↔
        ∀ q, (Region.locate? b range.stop).isSome → CodeContext.inCode b range.stop = false →
          Query.detectAt? b range.stop = some q → ¬ Completion.Offers setup.sources q) ∧
      ∃ pre filled post,
        b.text = pre ++ b.slice range ++ post ∧
        b.toByte range.start = pre.bytes ∧ b.toByte range.stop = (pre ++ b.slice range).bytes ∧
        Text.Replaced selectionMarker (b.slice range) shortcut.content filled ∧
        (selecting.screen.popup = none → (Region.locate? b range.stop).isSome →
          pressed.2 = true ∧ pressed.1.screen.buffer.text = pre ++ filled ++ post) ∧
        ((∃ view, selecting.screen.popup = some view ∧ view.kind = .symbol) ∨
            Region.locate? b range.stop = none →
          pressed.2 = false ∧ pressed.1.screen.buffer.text = pre ++ [c] ++ post) ∧
        ((∃ view, selecting.screen.popup = some view ∧ view.kind = .snippet) →
          ∃ q earlier front back,
            Query.detectAt? b range.stop = some q ∧ q.Takes front back ∧
            pre ++ b.slice range = earlier ++ (front ++ back) ∧
            if c = ' ' ∧ q.argument.isNone then
              pressed.2 = false ∧ pressed.1.screen.buffer.text = pre ++ [c] ++ post
            else
              pressed.2 = true ∧ pressed.1.screen.buffer.text =
                earlier ++ (front ++ Draft.typedText c ++ back) ++ post) := by
  have hmirrors := mirrors_after setup turns
  generalize after setup turns = h at hselect hmirrors ⊢
  intro b selecting pressed
  have hs : Selecting setup selecting b range :=
    selecting_of_command hmirrors first hselect hnonempty
  clear_value selecting
  obtain ⟨r, pre, post, rfl, hstands⟩ := Equation.stands_of_select? hselect
  have hrange : b.byteRange r.range = (pre.bytes, (pre ++ r.content).bytes) := by
    rw [Region.range, hstands.stop_eq, hstands.start]
    exact Buffer.byteRange_advance hstands.text
  have hover : (b.replace r.range [c]).text = pre ++ [c] ++ post :=
    congrArg Buffer.text (Buffer.replace_of_cuts hstands.text hrange [c])
  rw [Buffer.slice_of_cuts hstands.text hrange]
  refine ⟨?_, pre, shortcut.fill r.content, post, hstands.text, hstands.toByte_start,
    hstands.toByte_stop, shortcut.replaced_fill r.content, ?_, ?_, ?_⟩
  · rw [hs.popup_eq_none_iff, hs.computed.idle_iff, hs.buffer_eq, hs.cursor_eq]
  · intro hclosed hinside
    obtain ⟨hhandled, hbuffer⟩ :=
      hs.press_wraps second (hs.popup_eq_none_iff.mp hclosed) htyped hfound hinside
    rw [Buffer.slice_of_cuts hstands.text hrange] at hbuffer
    exact ⟨hhandled, (congrArg Buffer.text hbuffer).trans
      (shortcut.text_apply hstands.text hrange r.content)⟩
  · intro hleft
    obtain ⟨hhandled, hbuffer⟩ := hs.press_types_of_left second htyped hleft
    exact ⟨hhandled, (congrArg Buffer.text hbuffer).trans hover⟩
  · rintro ⟨view, hview, hkind⟩
    obtain ⟨q, earlier, front, back, hdetected, htakes, ht, hpressed⟩ :=
      hs.press_extends_call second hstands.text hstands.stop_eq htyped hview hkind
    refine ⟨q, earlier, front, back, hdetected, htakes, ht, ?_⟩
    split at hpressed
    · next hspace =>
      rw [if_pos hspace]
      exact ⟨hpressed.1, (congrArg Buffer.text hpressed.2).trans hover⟩
    · next hspace =>
      rw [if_neg hspace]
      exact hpressed

/-- A setup with one symbol and one snippet. -/
def alphaSetup : Setup :=
  { Session.plainSetup with
    config := { Config.standard with
      snippets := [{ Snippet.standard with name := "sum".toList, content := "∑".toList }] }
    symbols := .ofSymbols [⟨['α'], [], "alpha".toList, none, .alphabetic, "alpha".toList⟩] }

/-- A document is opened at a caret. -/
def opening (text : String) (cursor : Position) : List (Renderer × Operation) :=
  [(LocalRenderer.renderer, .load text.toList cursor)]

/-- An equation over two lines, with a space at its end, is wrapped in parentheses. -/
theorem equation_over_lines_wrapped :
    let turns := opening "$$x\n + y $$" ⟨0, 3⟩
    let selecting := (after alphaSetup turns).perform ⟨alphaSetup, LocalRenderer.renderer⟩
      (.command .selectEquation)
    let pressed := selecting.press ⟨alphaSetup, LocalRenderer.renderer⟩ (.plain (.char '('))
    ∃ pre filled post,
      (after alphaSetup turns).screen.buffer.text = pre ++ "x\n + y ".toList ++ post ∧
        Text.Replaced selectionMarker "x\n + y ".toList "($1)".toList filled ∧
        pressed.2 = true ∧ pressed.1.screen.buffer.text = pre ++ filled ++ post := by
  intro turns
  obtain ⟨hselect, hslice, hclosed, hinside⟩ :
      Equation.select? (after alphaSetup turns).screen.buffer
          (after alphaSetup turns).screen.cursor = some ⟨⟨0, 2⟩, ⟨1, 5⟩⟩ ∧
        (after alphaSetup turns).screen.buffer.slice ⟨⟨0, 2⟩, ⟨1, 5⟩⟩ = "x\n + y ".toList ∧
        ((after alphaSetup turns).perform ⟨alphaSetup, LocalRenderer.renderer⟩
          (.command .selectEquation)).screen.popup = none ∧
        (Region.locate? (after alphaSetup turns).screen.buffer ⟨1, 5⟩).isSome := by
    simp only [turns, opening, after, List.foldl_cons, List.foldl_nil, perform, load, tell, run_eq]
    decide +kernel
  have hfound : alphaSetup.config.shortcuts.find? '(' =
      some ⟨"($1)".toList, "bracket".toList, 0⟩ := by decide
  have htyped : (Chord.plain (.char '(')).typed? = some '(' := rfl
  clear_value turns
  dsimp only
  have hwrapped := selected_equation_wrapped alphaSetup turns LocalRenderer.renderer
    LocalRenderer.renderer hselect (by decide) htyped hfound
  dsimp only at hwrapped
  rw [hslice] at hwrapped
  obtain ⟨-, pre, filled, post, htext, -, -, hfilled, hwraps, -, -⟩ := hwrapped
  exact ⟨pre, filled, post, htext, hfilled, hwraps hclosed hinside⟩

/-- A word that is the name of a symbol, and an equation with a space before its closing dollar, are
selected and not wrapped: the parenthesis takes their place.  It goes into the call of a snippet. -/
theorem equation_typed_over :
    let env : HostSetup := ⟨alphaSetup, LocalRenderer.renderer⟩
    let pressed (h : Host) :=
      (h.perform env (.command .selectEquation)).press env (.plain (.char '('))
    let word := after alphaSetup (opening "$alpha$" ⟨0, 1⟩)
    let padded := after alphaSetup (opening "$x $" ⟨0, 1⟩)
    let call := after alphaSetup (opening "$sum@$" ⟨0, 1⟩)
    (alphaSetup.config.shortcuts.find? '(').map (·.content) = some "($1)".toList ∧
      (Equation.select? word.screen.buffer word.screen.cursor = some ⟨⟨0, 1⟩, ⟨0, 6⟩⟩ ∧
        (pressed word).2 = false ∧ (pressed word).1.screen.buffer.text = "$($".toList) ∧
      (Equation.select? padded.screen.buffer padded.screen.cursor = some ⟨⟨0, 1⟩, ⟨0, 3⟩⟩ ∧
        (pressed padded).2 = false ∧ (pressed padded).1.screen.buffer.text = "$($".toList) ∧
      Equation.select? call.screen.buffer call.screen.cursor = some ⟨⟨0, 1⟩, ⟨0, 5⟩⟩ ∧
        (pressed call).2 = true ∧ (pressed call).1.screen.buffer.text = "$sum()@$".toList := by
  simp only [opening, after, List.foldl_cons, List.foldl_nil, perform, load, press, tell, run_eq]
  decide +kernel

end Host

end MathTyping
