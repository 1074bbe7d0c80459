import MathTyping.Proofs.Host.Operation
import MathTyping.Proofs.Region.Extent

/-!
# A host mirrors its session

A host and its session keep the document and the caret apart from each other.  The
host carries out splices and the keys that the session lets through on its own
copy, and then reports what became of it.  While it reports, the session is behind;
`Reports` says what an event must tell so that the session catches up.

A host `Mirrors` its session if both have one document and one caret, and the host
is in step with the popup.  Each operation of the user keeps that up, whatever the
renderer answers.
-/

namespace MathTyping

/-- The equation that is selected stands in the document. -/
theorem Equation.stands_of_select? {b : Buffer} {cursor : Position} {range : Range}
    (h : select? b cursor = some range) :
    ∃ (r : Region) (pre post : Text), range = r.range ∧ r.Stands b pre post := by
  rw [select?, Option.map_eq_some_iff] at h
  obtain ⟨r, hfound, rfl⟩ := h
  obtain ⟨pre, post, hstands, -⟩ : r.StandsAround b cursor := by
    rcases Option.or_eq_some_iff.mp hfound with hinline | ⟨-, hdisplay⟩
    · exact Region.stands_of_inlineAt? hinline
    · exact Region.stands_of_displayAt? hdisplay
  exact ⟨r, pre, post, rfl, hstands⟩

namespace Host

open Session (InStep)

/-! ### Reports -/

/-- An event tells a session, which knows an older document, what a screen has become. -/
inductive Reports (v : Screen) (known : Buffer) : Event → Prop
  | changed (hcursor : v.buffer.clamp v.cursor = v.cursor) :
      Reports v known (.changed v.snapshot)
  | moved (hbuffer : v.buffer = known) (hcursor : v.buffer.clamp v.cursor = v.cursor) :
      Reports v known (.cursorMoved v.cursor)
  | selected (range : Range) (hrange : range.stop = v.cursor) (hbuffer : v.buffer = known)
      (hcursor : v.buffer.clamp v.cursor = v.cursor) :
      Reports v known (.selectionChanged range)

namespace Reports

variable {v w : Screen} {known : Buffer} {event : Event}

theorem isReport (h : Reports v known event) : event.isReport := by
  cases h <;> rfl

theorem of_document (h : Reports v known event) (hdocument : w.document = v.document) :
    Reports w known event := by
  have hbuffer : w.buffer = v.buffer := congrArg Prod.fst hdocument
  have hcursor : w.cursor = v.cursor := congrArg (·.2.1) hdocument
  have hsnapshot : w.snapshot = v.snapshot := by rw [Screen.snapshot, hbuffer, hcursor]; rfl
  cases h with
  | changed hplace =>
      rw [← hsnapshot]
      exact .changed (by rw [hbuffer, hcursor, hplace])
  | moved hknown hplace =>
      rw [← hcursor]
      exact .moved (hbuffer.trans hknown) (by rw [hbuffer, hcursor, hplace])
  | selected range hrange hknown hplace =>
      exact .selected range (hrange.trans hcursor.symm) (hbuffer.trans hknown)
        (by rw [hbuffer, hcursor, hplace])

/-- After a report the session has the document and the caret of the screen. -/
theorem place_hear {s : Session} (h : Reports v s.buffer event) (setup : Setup) :
    (Session.hear setup event s).1.buffer = v.buffer ∧
      (Session.hear setup event s).1.cursor = v.cursor := by
  cases h with
  | changed hplace =>
      obtain ⟨hbuffer, hcursor⟩ := Session.place_refresh setup
        { s with buffer := v.buffer, cursor := v.buffer.clamp v.cursor, selection := none }
      exact ⟨hbuffer, hcursor.trans hplace⟩
  | moved hknown hplace =>
      obtain ⟨hbuffer, hcursor⟩ := Session.place_cursorMoved setup v.cursor s
      have hclamp : s.buffer.clamp v.cursor = v.cursor := by rw [← hknown, hplace]
      exact ⟨hbuffer.trans hknown.symm, hcursor.trans hclamp⟩
  | selected range hrange hknown hplace =>
      obtain ⟨hbuffer, hcursor⟩ :=
        Session.place_cursorMoved setup (s.buffer.clamp range.stop) s
      have hclamp : s.buffer.clamp (s.buffer.clamp range.stop) = v.cursor := by
        rw [← hknown, hrange, hplace, hplace]
      exact ⟨hbuffer.trans hknown.symm, hcursor.trans hclamp⟩

/-- What an edit makes of a screen is what it reports. -/
theorem of_splice (v : Screen) (splice : Splice) :
    ∃ report, (v.apply (.splice splice)).2 = some report ∧
      Reports (v.apply (.splice splice)).1 v.buffer report := by
  have hplace := Buffer.clamp_clamp (splice.edited v.buffer) splice.cursor
  refine ⟨_, rfl, ?_⟩
  split
  · exact .changed hplace
  · rename_i hnone
    have hsame : splice.edited v.buffer = v.buffer := by
      rw [Splice.edited, Option.not_isSome_iff_eq_none.mp hnone]
    exact .moved hsame hplace

/-- The equation that a command selects ends at a place of the document. -/
theorem of_setSelection {range : Range} {cursor : Position}
    (h : Equation.select? v.buffer cursor = some range) :
    Reports (v.apply (.setSelection range)).1 v.buffer (.selectionChanged range) := by
  obtain ⟨r, pre, post, rfl, hstands⟩ := Equation.stands_of_select? h
  refine .selected r.range rfl rfl ?_
  show v.buffer.clamp r.stop = r.stop
  rw [hstands.stop_eq]
  exact Buffer.clamp_advance hstands.text

end Reports

/-! ### The mirror -/

/-- A host and its session have one document and one caret, and the host shows the popup of the
session. -/
structure Mirrors (h : Host) : Prop where
  inStep : InStep h.session h.screen.view
  buffer : h.screen.buffer = h.session.buffer
  cursor : h.screen.cursor = h.session.cursor

variable {env : HostSetup} {h : Host} {event : Event}

theorem inStep_step (env : HostSetup) (event : Event) (h : Host)
    (hstep : InStep h.session h.screen.view) :
    InStep (h.step env event).1.session (h.step env event).1.screen.view := by
  rw [session_step, screen_step]
  exact Session.inStep_dispatch env.setup env.renderer event hstep

/-- A report makes the session catch up. -/
theorem mirrors_step_report (hstep : InStep h.session h.screen.view)
    (hreport : Reports h.screen h.session.buffer event) : Mirrors (h.step env event).1 := by
  obtain ⟨hdocument, -⟩ := step_report env h hreport.isReport
  obtain ⟨hbuffer, hcursor⟩ :=
    Session.place_dispatch env.setup env.renderer h.session event
  obtain ⟨hheard, hplace⟩ := hreport.place_hear env.setup
  refine ⟨inStep_step env event h hstep, ?_, ?_⟩
  · rw [session_step, hbuffer, hheard]
    exact congrArg Prod.fst hdocument
  · rw [session_step, hcursor, hplace]
    exact congrArg (·.2.1) hdocument

/-- Any other event leaves a mirror, or one change to report. -/
theorem mirrors_step (h : Host) (hmirrors : Mirrors h) (hevent : event.isReport = false) :
    Mirrors (h.step env event).1 ∧ (h.step env event).2.2 = [] ∨
      ∃ report, (h.step env event).2.2 = [report] ∧
        Reports (h.step env event).1.screen (h.step env event).1.session.buffer report := by
  obtain ⟨hdocument, hevents⟩ := document_step env h event
  -- The session stays where it was; an edit puts the screen ahead of it.
  obtain ⟨hbuffer, hcursor⟩ : (h.step env event).1.session.buffer = h.screen.buffer ∧
      (h.step env event).1.session.cursor = h.screen.cursor := by
    obtain ⟨hbuffer, hcursor⟩ := Session.place_dispatch env.setup env.renderer h.session event
    obtain ⟨hheard, hplace⟩ := Session.place_hear env.setup h.session hevent
    rw [session_step, hbuffer, hcursor, hheard, hplace, hmirrors.buffer, hmirrors.cursor]
    exact ⟨rfl, rfl⟩
  rcases Session.editing_hear env.setup event h.session with
    hnone | ⟨-, ⟨splice, hsplice⟩ | ⟨range, hselect, hselection⟩⟩
  · rw [hnone] at hdocument hevents
    refine Or.inl ⟨⟨inStep_step env event h hmirrors.inStep, ?_, ?_⟩, hevents⟩
    · rw [hbuffer]
      exact congrArg Prod.fst hdocument
    · rw [hcursor]
      exact congrArg (·.2.1) hdocument
  · rw [hsplice] at hdocument hevents
    obtain ⟨report, hreport, hreports⟩ := Reports.of_splice h.screen splice
    refine Or.inr ⟨report, ?_, ?_⟩
    · rw [hevents, Screen.reports, hreport]
      rfl
    · rw [hbuffer]
      exact hreports.of_document hdocument
  · rw [hselection] at hdocument hevents
    rw [← hmirrors.buffer] at hselect
    refine Or.inr ⟨_, hevents, ?_⟩
    rw [hbuffer]
    exact (Reports.of_setSelection hselect).of_document hdocument

/-- While events and the changes they cause are reported, the mirror is kept. -/
theorem mirrors_run (env : HostSetup) (hmirrors : Mirrors h) (hevent : event.isReport = false) :
    Mirrors (h.run env event).1 := by
  rcases mirrors_step h hmirrors hevent with ⟨hlater, hnone⟩ | ⟨report, hone, hreports⟩
  · rw [run_of_quiet hnone]
    exact hlater
  · rw [run_of_report hone]
    exact mirrors_step_report (inStep_step env event h hmirrors.inStep) hreports

/-- A change of the screen that is reported makes a mirror again. -/
theorem mirrors_tell_report (env : HostSetup) (hstep : InStep h.session h.screen.view)
    (hreport : Reports h.screen h.session.buffer event) : Mirrors (h.tell env event) := by
  rw [tell_report env h hreport.isReport]
  exact mirrors_step_report hstep hreport

/-! ### Operations -/

/-- The editor reports what its own action has made of the screen. -/
theorem reports_defaultAction {v w : Screen} {chord : Chord}
    (h : defaultAction v chord = some (w, event)) :
    w.view = v.view ∧ Reports w v.buffer event := by
  rcases defaultAction_cases h with
    ⟨-, text, rfl, rfl⟩ | ⟨c, -, -, rfl, rfl⟩ | ⟨c, -, -, rfl, rfl⟩ | ⟨c, -, -, rfl, rfl⟩
  · exact ⟨rfl, .changed (v.buffer.clamp_afterReplace _ text)⟩
  · exact ⟨rfl, .changed (v.buffer.clamp_afterReplace _ [])⟩
  · exact ⟨rfl, .moved rfl (v.buffer.clamp_ofByte _)⟩
  · exact ⟨rfl, .moved rfl (v.buffer.clamp_ofByte _)⟩

theorem mirrors_press (env : HostSetup) (hmirrors : Mirrors h) (chord : Chord) :
    Mirrors (h.press env chord).1 := by
  have hran : Mirrors (h.run env (.keyDown chord)).1 := mirrors_run env hmirrors rfl
  rcases press_cases env h chord with ⟨-, hpress⟩ | ⟨w, event, -, haction, hpress⟩
  · rw [hpress]
    exact hran
  · -- The editor acts on a screen that the session knows, and reports it at once.
    obtain ⟨hview, hreports⟩ := reports_defaultAction haction
    rw [hpress]
    refine mirrors_tell_report env ?_ (hran.buffer ▸ hreports)
    rw [hview]
    exact hran.inStep

theorem mirrors_load (env : HostSetup) (hmirrors : Mirrors h) (text : Text) (cursor : Position) :
    Mirrors (h.load env text cursor) :=
  mirrors_tell_report env hmirrors.inStep (.changed (Buffer.clamp_clamp _ cursor))

theorem mirrors_perform (env : HostSetup) (hmirrors : Mirrors h) (operation : Operation) :
    Mirrors (h.perform env operation) := by
  cases operation with
  | openMarked marked =>
      simp only [perform, openMarked]
      split <;> exact mirrors_load env hmirrors _ _
  | load text cursor => exact mirrors_load env hmirrors text cursor
  | typeText text => exact typeText_keeps text (fun _ _ hkept => mirrors_press env hkept _) hmirrors
  | press chord => exact mirrors_press env hmirrors _
  | key chord => exact mirrors_press env hmirrors chord
  | click p =>
      exact mirrors_tell_report env hmirrors.inStep
        (.moved hmirrors.buffer (Buffer.clamp_clamp _ p))
  | select range =>
      exact mirrors_tell_report env hmirrors.inStep
        (.selected _ rfl hmirrors.buffer (Buffer.clamp_clamp _ range.stop))
  | hover index => exact mirrors_run env hmirrors rfl
  | choose index => exact mirrors_run env hmirrors rfl
  | command command => exact mirrors_run env hmirrors rfl
  | blur => exact mirrors_run env hmirrors rfl
  | settle =>
      have hstart : Mirrors { h with deferred := [] } :=
        ⟨hmirrors.inStep, hmirrors.buffer, hmirrors.cursor⟩
      exact settle_keeps (fun _ _ hkept => mirrors_run env hkept rfl) hstart

theorem mirrors_after (setup : Setup) (turns : List (Renderer × Operation)) :
    Mirrors (after setup turns) := by
  induction turns using List.reverseRecOn with
  | nil => exact ⟨Session.inStep_initial, rfl, rfl⟩
  | append_singleton turns turn ih =>
      rw [after_concat]
      exact mirrors_perform ⟨setup, turn.1⟩ ih turn.2

/-- **A host mirrors its session.**  After any operations, whatever the renderers answer, the host
has the document and the caret of the session and shows the popup of its state. -/
theorem host_mirrors_session (setup : Setup) (turns : List (Renderer × Operation)) :
    let h := after setup turns
    h.screen.buffer.text = h.session.buffer.text ∧ h.screen.cursor = h.session.cursor ∧
      h.screen.popup = PopupView.of? h.session.completion := by
  intro h
  have hmirrors : Mirrors h := mirrors_after setup turns
  refine ⟨congrArg Buffer.text hmirrors.buffer, hmirrors.cursor, ?_⟩
  exact hmirrors.inStep.popup.trans hmirrors.inStep.synced

end Host

end MathTyping
