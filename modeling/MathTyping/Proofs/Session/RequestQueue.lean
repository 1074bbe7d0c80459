import Mathlib.Logic.Function.Iterate
import MathTyping.Proofs.Session.InPlace

/-!
# The queue of requests

With a renderer at hand the effects of an event are worked off as a queue.  In each turn the
first one is taken: a request is answered, and the effects of the answer join the end of the
queue; any other effect is kept.  Nothing in this says that the queue ever empties, since it
grows with every answer.

It empties because an answer asks for nothing.  A turn for each effect of the event and one for
each effect of the answers are enough (`turns_dispatch`), and what they make of the session and
of the effects is what `dispatch` does in one pass.
-/

namespace MathTyping

namespace Session

/-- Effects on their way through the queue: those kept, and the requests answered so far. -/
structure Service where
  session : Session
  queue : List Effect
  kept : List Effect
  answered : List RenderRequest

namespace Service

/-- Take the first effect off the queue. -/
def turn (setup : Setup) (renderer : Renderer) (p : Service) : Service :=
  match p.queue with
  | [] => p
  | .request r :: queue =>
      let (t, reaction) := handle setup p.session (.rendered (renderer.answer r))
      ⟨t, queue ++ reaction.effects, p.kept, p.answered ++ [r]⟩
  | e :: queue => ⟨p.session, queue, p.kept ++ [e], p.answered⟩

/-- The queue of an event that was just handled. -/
def start (setup : Setup) (s : Session) (event : Event) : Service :=
  let (t, reaction) := handle setup s event
  ⟨t, reaction.effects, [], []⟩

variable {setup : Setup} {renderer : Renderer} {s : Session} {e : Effect}
  {queue kept : List Effect} {answered : List RenderRequest}

theorem turn_request (r : RenderRequest) :
    turn setup renderer ⟨s, .request r :: queue, kept, answered⟩ =
      ⟨(rendered (renderer.answer r) s).1, queue ++ (rendered (renderer.answer r) s).2, kept,
        answered ++ [r]⟩ := rfl

theorem turn_other (h : e.request? = none) :
    turn setup renderer ⟨s, e :: queue, kept, answered⟩ = ⟨s, queue, kept ++ [e], answered⟩ := by
  cases e <;> first | rfl | simp [Effect.request?] at h

/-- Without requests the queue only moves, one effect each turn. -/
theorem turns_of_requests_eq_nil (h : Effect.requests queue = []) :
    (turn setup renderer)^[queue.length] ⟨s, queue, kept, answered⟩ =
      ⟨s, [], kept ++ queue, answered⟩ := by
  induction queue generalizing kept with
  | nil => rw [List.append_nil]; rfl
  | cons e queue ih =>
      have hnone : ∀ f ∈ e :: queue, f.request? = none := List.filterMap_eq_nil_iff.mp h
      have hqueue : Effect.requests queue = [] :=
        Effect.requests_eq_nil fun f hmem => hnone f (List.mem_cons_of_mem e hmem)
      rw [List.length_cons, Function.iterate_succ_apply, turn_other (hnone e List.mem_cons_self),
        ih hqueue, List.append_assoc]
      rfl

/-- The effects in front are worked off first, and the answers wait behind the rest. -/
theorem turns_answerRequests (s : Session) (effects rest kept : List Effect)
    (answered : List RenderRequest) :
    let served := answerRequests setup renderer s effects
    (turn setup renderer)^[effects.length] ⟨s, effects ++ rest, kept, answered⟩ =
      ⟨served.1, rest ++ served.2.2, kept ++ served.2.1, answered ++ Effect.requests effects⟩ := by
  induction s, effects using answerRequests_induction renderer generalizing rest kept answered with
  | nil s =>
      simp only [answerRequests, Effect.requests_nil, List.append_nil, List.nil_append]
      rfl
  | request s r effects ih =>
      dsimp only at ih ⊢
      rw [List.length_cons, Function.iterate_succ_apply, List.cons_append, turn_request,
        List.append_assoc, ih, answerRequests_request]
      simp only [List.append_assoc]
      rfl
  | other s e effects hother ih =>
      have hrequests : Effect.requests (e :: effects) = Effect.requests effects :=
        List.filterMap_cons_none hother
      dsimp only at ih ⊢
      rw [List.length_cons, Function.iterate_succ_apply, List.cons_append, turn_other hother, ih,
        answerRequests_other hother, hrequests, List.append_assoc]
      rfl

end Service

/-- An answer asks for nothing, and other effects are kept because they ask for nothing. -/
theorem requests_answerRequests (setup : Setup) (renderer : Renderer) (s : Session)
    (effects : List Effect) :
    Effect.requests (answerRequests setup renderer s effects).2.1 = [] ∧
      Effect.requests (answerRequests setup renderer s effects).2.2 = [] := by
  induction s, effects using answerRequests_induction renderer with
  | nil s => exact ⟨rfl, rfl⟩
  | request s r effects ih =>
      rw [answerRequests_request, Effect.requests_append, requests_rendered]
      exact ih
  | other s e effects hother ih =>
      rw [answerRequests_other hother]
      refine ⟨?_, ih.2⟩
      dsimp only
      rw [Effect.requests, List.filterMap_cons_none hother]
      exact ih.1

/-- The effects of a dispatched event, and of the answers to it, hold no request. -/
theorem requests_dispatch (setup : Setup) (renderer : Renderer) (s : Session) (event : Event) :
    Effect.requests (dispatch setup renderer s event).2.effects = [] := by
  obtain ⟨hkept, hanswers⟩ := requests_answerRequests setup renderer
    (hear setup event s).1 (hear setup event s).2
  rw [dispatch_eq]
  dsimp only
  rw [Effect.requests_append, hkept, hanswers, List.append_nil]

/-- The queue of an event empties after a turn for each effect of the event and of the answers.
Each request of the event was answered then, once and in order. -/
theorem turns_dispatch (setup : Setup) (renderer : Renderer) (s : Session) (event : Event) :
    ∃ turns, (Service.turn setup renderer)^[turns] (.start setup s event) =
      ⟨(dispatch setup renderer s event).1, [], (dispatch setup renderer s event).2.effects,
        Effect.requests (hear setup event s).2⟩ := by
  let heard := hear setup event s
  let served := answerRequests setup renderer heard.1 heard.2
  have hstart : Service.start setup s event = ⟨heard.1, heard.2 ++ [], [], []⟩ := by
    rw [List.append_nil]
    rfl
  have hanswers : Effect.requests served.2.2 = [] :=
    (requests_answerRequests setup renderer heard.1 heard.2).2
  refine ⟨served.2.2.length + heard.2.length, ?_⟩
  rw [hstart, Function.iterate_add_apply, Service.turns_answerRequests,
    List.nil_append, List.nil_append, List.nil_append,
    Service.turns_of_requests_eq_nil hanswers, dispatch_eq]

end Session

end MathTyping
