import MathTyping.Proofs.Session.InPlace

/-!
# What a host reports

Of all effects only splices and selections change the document of a host, its
caret or its selection, and only these are reported back.  An event causes at
most one of them, and a report, like an answer, causes none; so the queue of a
host is empty when an event and the change that it causes have been reported,
and the loop that drains it is two steps at most (`run_eq`).
-/

namespace MathTyping

namespace Effect

/-- Tell whether an effect changes the document, the caret or the selection. -/
def edits : Effect → Bool
  | .splice _ | .setSelection _ => true
  | _ => false

/-- Those of some effects that edit, in order. -/
def editing (effects : List Effect) : List Effect := effects.filter edits

@[simp] theorem editing_append (effects more : List Effect) :
    editing (effects ++ more) = editing effects ++ editing more :=
  List.filter_append effects more

theorem editing_eq_nil {effects : List Effect} (h : ∀ e ∈ effects, e.edits = false) :
    editing effects = [] :=
  List.filter_eq_nil_iff.mpr fun e hmem => by simp [h e hmem]

variable {e : Effect}

theorem OnPanes.edits_eq_false (h : e.OnPanes) : e.edits = false := by
  cases e <;> first | rfl | exact h.elim

theorem OnBrackets.edits_eq_false (h : e.OnBrackets) : e.edits = false := by
  cases e <;> first | rfl | exact h.elim

end Effect

namespace Screen

open Effect (editing)

/-- The document of a screen, with its caret and its selection. -/
def document (v : Screen) : Buffer × Position × Option Range := (v.buffer, v.cursor, v.selection)

/-- The changes to report while effects are carried out, in order. -/
def reports (v : Screen) : List Effect → List Event
  | [] => []
  | e :: effects => (v.apply e).2.toList ++ (v.apply e).1.reports effects

variable {v w : Screen}

/-- What an effect does to the document depends on the document alone. -/
theorem apply_congr (h : v.document = w.document) (e : Effect) :
    (v.apply e).1.document = (w.apply e).1.document ∧ (v.apply e).2 = (w.apply e).2 := by
  have hbuffer : v.buffer = w.buffer := congrArg Prod.fst h
  cases e <;> first | exact ⟨h, rfl⟩ | simp [apply, document, snapshot, hbuffer]

/-- Other effects leave the document alone, and there is nothing to report. -/
theorem apply_of_edits_eq_false (v : Screen) {e : Effect} (h : e.edits = false) :
    (v.apply e).1.document = v.document ∧ (v.apply e).2 = none := by
  cases e <;> first | exact ⟨rfl, rfl⟩ | simp [Effect.edits] at h

/-- Only the effects that edit matter to the document. -/
theorem applyAll_editing (h : v.document = w.document) (effects : List Effect) :
    (v.applyAll effects).document = (w.applyAll (editing effects)).document ∧
      v.reports effects = w.reports (editing effects) := by
  induction effects generalizing v w with
  | nil => exact ⟨h, rfl⟩
  | cons e effects ih =>
      cases hedits : e.edits with
      | true =>
          obtain ⟨hdocument, hreport⟩ := apply_congr h e
          obtain ⟨hlater, hreports⟩ := ih hdocument
          rw [editing, List.filter_cons_of_pos hedits, applyAll_cons, applyAll_cons, reports,
            reports, hreport]
          exact ⟨hlater, congrArg _ hreports⟩
      | false =>
          obtain ⟨hdocument, hreport⟩ := v.apply_of_edits_eq_false hedits
          rw [editing, List.filter_cons_of_neg (by simp [hedits]), applyAll_cons, reports, hreport]
          exact ih (hdocument.trans h)

end Screen

namespace Host

theorem session_applyAll (h : Host) (effects : List Effect) :
    (h.applyAll effects).1.session = h.session := by
  induction effects generalizing h with
  | nil => rfl
  | cons e effects ih => exact ih (h.apply e).1

theorem events_applyAll (h : Host) (effects : List Effect) :
    (h.applyAll effects).2 = h.screen.reports effects := by
  induction effects generalizing h with
  | nil => rfl
  | cons e effects ih => exact congrArg _ (ih (h.apply e).1)

end Host

namespace Session

open Effect (editing editing_eq_nil)

variable {setup : Setup} {renderer : Renderer}

/-! ### What the steps edit -/

theorem editing_syncPopup (s : Session) : editing (syncPopup s).2 = [] :=
  editing_eq_nil fun e hmem => (syncPopup_onPanes s e hmem).edits_eq_false

theorem editing_paintEffects (s : Session) : editing s.paintEffects = [] :=
  editing_eq_nil fun e hmem => (paintEffects_onBrackets s e hmem).edits_eq_false

theorem editing_refresh (setup : Setup) (s : Session) : editing (refresh setup s).2 = [] := by
  obtain ⟨t, effects, -, -, -, hpanes, hrefresh⟩ := refresh_cases setup s
  have hearlier : editing effects = [] :=
    editing_eq_nil fun e hmem => (hpanes e hmem).edits_eq_false
  have hlast : editing (refreshBrackets t).2 = [] :=
    editing_eq_nil fun e hmem => (refreshBrackets_onBrackets t e hmem).edits_eq_false
  rw [hrefresh, Effect.editing_append, hearlier, hlast, List.append_nil]

theorem editing_deferRepaint (setup : Setup) (s : Session) :
    editing (deferRepaint setup s).2 = [] := by
  simp only [deferRepaint]
  split <;> rfl

/-- A move of the caret is followed without an edit. -/
theorem editing_cursorMoved (setup : Setup) (cursor : Position) (s : Session) :
    editing (cursorMoved setup cursor s).2 = [] := by
  simp only [cursorMoved, andThen, Effect.editing_append, editing_refresh, editing_deferRepaint,
    List.append_nil]

theorem editing_rendered (reply : RenderReply) (s : Session) :
    editing (rendered reply s).2 = [] := by
  cases reply with
  | brackets content result =>
      exact editing_eq_nil fun e hmem =>
        (rendered_brackets_onBrackets content result s e hmem).edits_eq_false
  | preview ticket result =>
      exact editing_eq_nil fun e hmem =>
        (rendered_preview_onPanes ticket result s e hmem).edits_eq_false

/-- Of an answer of the popup only its splice edits. -/
theorem editing_outcome (o : Outcome) (s : Session) :
    editing (outcome o s).2.effects = o.splice?.toList.map .splice := by
  have hpopup := editing_syncPopup s
  rw [outcome]
  dsimp only
  rw [Effect.editing_append, Effect.editing_append, hpopup]
  cases o <;> rfl

/-- What an event edits: at most one splice, or the selection of an equation; and only a key, a
click or a command edits at all. -/
theorem editing_hear (setup : Setup) (event : Event) (s : Session) :
    editing (hear setup event s).2 = [] ∨
      event.isInput ∧
        ((∃ splice, editing (hear setup event s).2 = [.splice splice]) ∨
          ∃ range, Equation.select? s.buffer s.cursor = some range ∧
            editing (hear setup event s).2 = [.setSelection range]) := by
  have houtcome : ∀ (o : Outcome) (t : Session),
      editing (outcome o t).2.effects = [] ∨
        ∃ splice, editing (outcome o t).2.effects = [.splice splice] := by
    intro o t
    rw [editing_outcome]
    cases o.splice? with
    | none => exact Or.inl rfl
    | some splice => exact Or.inr ⟨splice, rfl⟩
  cases event with
  | changed snapshot => exact Or.inl (editing_refresh setup _)
  | cursorMoved cursor => exact Or.inl (editing_cursorMoved setup cursor s)
  | selectionChanged range =>
      exact Or.inl (editing_cursorMoved setup (s.buffer.clamp range.stop) s)
  | keyDown chord =>
      simp only [hear, handle, keyDown]
      split
      · exact (houtcome _ _).imp_right fun h => ⟨rfl, Or.inl h⟩
      · split
        · exact Or.inr ⟨rfl, Or.inl ⟨_, rfl⟩⟩
        · split
          · exact Or.inr ⟨rfl, Or.inl ⟨_, rfl⟩⟩
          · exact Or.inl rfl
  | hover index => exact Or.inl (editing_syncPopup _)
  | select index => exact (houtcome _ _).imp_right fun h => ⟨rfl, Or.inl h⟩
  | repaint generation =>
      simp only [hear, handle]
      split
      · exact Or.inl (editing_paintEffects s)
      · exact Or.inl rfl
  | focus gained => cases gained <;> exact Or.inl rfl
  | command command =>
      cases command with
      | boxEquation =>
          simp only [hear, handle, commandEffects]
          cases Equation.box? s.buffer s.cursor with
          | none => exact Or.inl rfl
          | some splice => exact Or.inr ⟨rfl, Or.inl ⟨splice, rfl⟩⟩
      | selectEquation =>
          simp only [hear, handle, commandEffects]
          cases Equation.select? s.buffer s.cursor with
          | none => exact Or.inl rfl
          | some range => exact Or.inr ⟨rfl, Or.inr ⟨range, rfl, rfl⟩⟩
  | rendered reply => exact Or.inl (editing_rendered reply s)
  | close => exact Or.inl rfl

/-! ### Answers in place -/

/-- Answering requests keeps the edits of the event, and adds none. -/
theorem editing_answerRequests (setup : Setup) (renderer : Renderer) (s : Session)
    (effects : List Effect) :
    editing (answerRequests setup renderer s effects).2.1 = editing effects ∧
      editing (answerRequests setup renderer s effects).2.2 = [] := by
  induction s, effects using answerRequests_induction renderer with
  | nil s => exact ⟨rfl, rfl⟩
  | request s r effects ih =>
      rw [answerRequests_request, Effect.editing_append, editing_rendered]
      exact ih
  | other s e effects hother ih =>
      rw [answerRequests_other hother]
      refine ⟨?_, ih.2⟩
      show editing ([e] ++ _) = editing ([e] ++ effects)
      rw [Effect.editing_append, Effect.editing_append, ih.1]

/-- An event and its answers edit what the event does. -/
theorem editing_dispatch (setup : Setup) (renderer : Renderer) (s : Session) (event : Event) :
    editing (dispatch setup renderer s event).2.effects = editing (hear setup event s).2 := by
  obtain ⟨hkept, hanswers⟩ := editing_answerRequests setup renderer (hear setup event s).1
    (hear setup event s).2
  rw [dispatch_eq]
  dsimp only
  rw [Effect.editing_append, hkept, hanswers, List.append_nil]

end Session

namespace Host

open Effect (editing)

/-! ### Steps -/

variable {env : HostSetup} {h : Host} {event : Event}

theorem session_step (env : HostSetup) (h : Host) (event : Event) :
    (h.step env event).1.session = (h.session.dispatch env.setup env.renderer event).1 :=
  session_applyAll _ _

theorem screen_step (env : HostSetup) (h : Host) (event : Event) :
    (h.step env event).1.screen =
      h.screen.applyAll (h.session.dispatch env.setup env.renderer event).2.effects :=
  Screen.screen_hostApplyAll _ _

/-- A step changes the document, and has changes to report, only through what the event
edits. -/
theorem document_step (env : HostSetup) (h : Host) (event : Event) :
    let edits := editing (Session.hear env.setup event h.session).2
    (h.step env event).1.screen.document = (h.screen.applyAll edits).document ∧
      (h.step env event).2.2 = h.screen.reports edits := by
  have hevents : (h.step env event).2.2 =
      h.screen.reports (h.session.dispatch env.setup env.renderer event).2.effects :=
    events_applyAll _ _
  dsimp only
  rw [screen_step, hevents, ← Session.editing_dispatch env.setup env.renderer]
  exact Screen.applyAll_editing rfl _

/-- A report leaves the document as it is, and there is nothing more to report. -/
theorem step_report (env : HostSetup) (h : Host) (hevent : event.isReport) :
    (h.step env event).1.screen.document = h.screen.document ∧ (h.step env event).2.2 = [] := by
  obtain ⟨hdocument, hevents⟩ := document_step env h event
  rcases Session.editing_hear env.setup event h.session with hnone | ⟨hinput, -⟩
  · rw [hnone] at hdocument hevents
    exact ⟨hdocument, hevents⟩
  · rw [(Event.isInput_iff.mp hinput).1] at hevent
    contradiction

/-- An event causes at most one change to report. -/
theorem events_step (env : HostSetup) (h : Host) (event : Event) :
    (h.step env event).2.2 = [] ∨
      ∃ report, report.isReport ∧ (h.step env event).2.2 = [report] := by
  obtain ⟨-, hevents⟩ := document_step env h event
  rw [hevents]
  rcases Session.editing_hear env.setup event h.session with
    hnone | ⟨-, ⟨splice, hsplice⟩ | ⟨range, -, hselection⟩⟩
  · rw [hnone]
    exact Or.inl rfl
  · rw [hsplice]
    refine Or.inr ⟨_, ?_, rfl⟩
    dsimp only
    split <;> rfl
  · rw [hselection]
    exact Or.inr ⟨_, rfl, rfl⟩

/-! ### Reports settle -/

@[simp] theorem drain_nil (env : HostSetup) (h : Host) (handled : Option Bool) :
    drain env h [] handled = (h, handled) := by
  rw [drain, repeatM_eq_of_monadTail]
  rfl

theorem drain_cons (env : HostSetup) (h : Host) (event : Event) (queue : List Event)
    (handled : Option Bool) :
    drain env h (event :: queue) handled =
      drain env (h.step env event).1 (queue ++ (h.step env event).2.2)
        (some (handled.getD (h.step env event).2.1)) := by
  rw [drain, repeatM_eq_of_monadTail]
  rfl

/-- A report is the last event of its queue. -/
theorem drain_report (env : HostSetup) (h : Host) (hevent : event.isReport)
    (handled : Option Bool) :
    drain env h [event] handled =
      ((h.step env event).1, some (handled.getD (h.step env event).2.1)) := by
  obtain ⟨-, hevents⟩ := step_report env h hevent
  rw [drain_cons, hevents, List.append_nil, drain_nil]

/-- An event is over when the changes that it causes have been reported. -/
theorem run_eq (env : HostSetup) (h : Host) (event : Event) :
    h.run env event =
      let (t, handled, caused) := h.step env event
      (caused.foldl (fun t change => (t.step env change).1) t, handled) := by
  rw [run, drain_cons, List.nil_append]
  dsimp only
  rcases events_step env h event with hnone | ⟨change, hchange, hone⟩
  · rw [hnone, drain_nil]
    rfl
  · rw [hone, drain_report env _ hchange]
    rfl

theorem handled_run (env : HostSetup) (h : Host) (event : Event) :
    (h.run env event).2 = (h.step env event).2.1 := by
  rw [run_eq]

/-- What every step keeps is kept until the queue is empty. -/
theorem run_keeps {P : Host → Prop} (hstep : ∀ h event, P h → P (h.step env event).1)
    (hstart : P h) : P (h.run env event).1 := by
  rw [run_eq]
  exact List.foldlRecOn _ _ (hstep h event hstart) fun t ht change _ => hstep t change ht

/-- An event that causes no change is over at once. -/
theorem run_of_quiet (hnone : (h.step env event).2.2 = []) :
    (h.run env event).1 = (h.step env event).1 := by
  rw [run_eq]
  dsimp only
  rw [hnone]
  rfl

/-- An event that causes a change to report is done when the change is reported. -/
theorem run_of_report {change : Event} (hone : (h.step env event).2.2 = [change]) :
    (h.run env event).1 = ((h.step env event).1.step env change).1 := by
  rw [run_eq]
  dsimp only
  rw [hone]
  rfl

theorem tell_report (env : HostSetup) (h : Host) (hevent : event.isReport) :
    h.tell env event = (h.step env event).1 :=
  run_of_quiet (step_report env h hevent).2

end Host

end MathTyping
