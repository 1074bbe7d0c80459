import MathTyping.Proofs.Session.Coherence
import MathTyping.Proofs.Session.OpenPopup
import MathTyping.Session.Dispatch

/-!
# Answers in place

With a renderer at hand the requests of an event are answered at once, and their
answers take the place of the requests.  An answer tells of no other document or
caret, and leaves the host in step with the session; so an event that is answered
in place leaves the session where the event has put it, and the host in step.
-/

namespace MathTyping

namespace Session

variable {setup : Setup} {renderer : Renderer} {event : Event} {s : Session} {v : Screen}
  {e : Effect} {effects : List Effect}

/-! ### One request after another -/

/-- The answer to a request comes before those of the requests behind it. -/
theorem answerRequests_request (r : RenderRequest) :
    answerRequests setup renderer s (.request r :: effects) =
      let answer := rendered (renderer.answer r) s
      let later := answerRequests setup renderer answer.1 effects
      (later.1, later.2.1, answer.2 ++ later.2.2) := rfl

theorem answerRequests_other (h : e.request? = none) :
    answerRequests setup renderer s (e :: effects) =
      let later := answerRequests setup renderer s effects
      (later.1, e :: later.2.1, later.2.2) := by
  cases e <;> first | rfl | simp [Effect.request?] at h

/-- To answer requests in turn is to take in each answer, and keep the other effects. -/
theorem answerRequests_induction (renderer : Renderer) {motive : Session → List Effect → Prop}
    (nil : ∀ s, motive s [])
    (request : ∀ s r effects, motive (rendered (renderer.answer r) s).1 effects →
      motive s (.request r :: effects))
    (other : ∀ s e effects, e.request? = none → motive s effects → motive s (e :: effects))
    (s : Session) (effects : List Effect) : motive s effects := by
  induction effects generalizing s with
  | nil => exact nil s
  | cons e effects ih =>
      cases e with
      | request r => exact request s r effects (ih _)
      | _ => exact other s _ effects rfl (ih s)

theorem dispatch_eq (setup : Setup) (renderer : Renderer) (s : Session) (event : Event) :
    dispatch setup renderer s event =
      let heard := hear setup event s
      let answered := answerRequests setup renderer heard.1 heard.2
      (answered.1, ⟨(handle setup s event).2.handled, answered.2.1 ++ answered.2.2⟩) := rfl

/-! ### Where the session is -/

theorem place_cursorMoved (setup : Setup) (cursor : Position) (s : Session) :
    (cursorMoved setup cursor s).1.buffer = s.buffer ∧
      (cursorMoved setup cursor s).1.cursor = s.buffer.clamp cursor :=
  place_refresh setup _

/-- Only reports tell a session of another document or caret. -/
theorem place_hear (setup : Setup) (s : Session) (hevent : event.isReport = false) :
    (hear setup event s).1.buffer = s.buffer ∧ (hear setup event s).1.cursor = s.cursor := by
  have hanswer := answer_hear setup event s
  generalize hear setup event s = answer at hanswer
  cases hanswer with
  | follow buffer cursor selection generation quiet hreport =>
      rw [hreport] at hevent
      contradiction
  | popup completion quiet => exact ⟨syncPopup_buffer _, syncPopup_cursor _⟩
  | quiet selection quiet => exact ⟨rfl, rfl⟩
  | repaint generation => exact ⟨rfl, rfl⟩
  | rendered reply => exact ⟨(kept_rendered reply s).buffer, (kept_rendered reply s).cursor⟩
  | close => exact ⟨rfl, rfl⟩

/-- What no answer changes stays while requests are answered. -/
theorem answerRequests_keeps {α : Type} (f : Session → α)
    (hkept : ∀ reply s, f (rendered reply s).1 = f s) (s : Session) (effects : List Effect) :
    f (answerRequests setup renderer s effects).1 = f s := by
  induction s, effects using answerRequests_induction renderer with
  | nil s => rfl
  | request s r effects ih =>
      rw [answerRequests_request]
      exact ih.trans (hkept _ s)
  | other s e effects hother ih =>
      rw [answerRequests_other hother]
      exact ih

theorem place_answerRequests (s : Session) (effects : List Effect) :
    (answerRequests setup renderer s effects).1.buffer = s.buffer ∧
      (answerRequests setup renderer s effects).1.cursor = s.cursor :=
  ⟨answerRequests_keeps (·.buffer) (fun reply s => (kept_rendered reply s).buffer) s effects,
    answerRequests_keeps (·.cursor) (fun reply s => (kept_rendered reply s).cursor) s effects⟩

/-- Answers in place leave the session where the event has put it. -/
theorem place_dispatch (setup : Setup) (renderer : Renderer) (s : Session) (event : Event) :
    (dispatch setup renderer s event).1.buffer = (hear setup event s).1.buffer ∧
      (dispatch setup renderer s event).1.cursor = (hear setup event s).1.cursor := by
  rw [dispatch_eq]
  exact place_answerRequests _ _

/-! ### Answers in place keep a host in step -/

/-- A request does nothing to a screen, so answering it is no loss. -/
theorem applyAll_answerRequests (setup : Setup) (renderer : Renderer) (s : Session)
    (effects : List Effect) (v : Screen) :
    v.applyAll (answerRequests setup renderer s effects).2.1 = v.applyAll effects := by
  induction s, effects using answerRequests_induction renderer generalizing v with
  | nil s => rfl
  | request s r effects ih =>
      rw [answerRequests_request]
      exact ih v
  | other s e effects hother ih =>
      rw [answerRequests_other hother]
      exact ih (v.apply e).1

theorem inStep_answerRequests (s : Session) (effects : List Effect) (h : InStep s v.view) :
    InStep (answerRequests setup renderer s effects).1
      (v.applyAll (answerRequests setup renderer s effects).2.2).view := by
  induction s, effects using answerRequests_induction renderer generalizing v with
  | nil s => exact h
  | request s r effects ih =>
      rw [answerRequests_request]
      dsimp only
      rw [Screen.applyAll_append]
      exact ih (leads_rendered (renderer.answer r) s v h)
  | other s e effects hother ih =>
      rw [answerRequests_other hother]
      exact ih h

theorem inStep_dispatch (setup : Setup) (renderer : Renderer) (event : Event)
    (h : InStep s v.view) :
    InStep (dispatch setup renderer s event).1
      (v.applyAll (dispatch setup renderer s event).2.effects).view := by
  rw [dispatch_eq]
  dsimp only
  rw [Screen.applyAll_append, applyAll_answerRequests]
  exact inStep_answerRequests _ _ (inStep_hear setup event s v h)

end Session

end MathTyping
