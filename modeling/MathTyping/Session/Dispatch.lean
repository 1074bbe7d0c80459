import MathTyping.Session

/-!
# Sessions with a renderer at hand

Here every render request is answered at once.  The effects of the answers come
after those of the event, in the order of the requests; an answer never asks for
another render, so one round of answers is enough.
-/

namespace MathTyping

namespace Session

/-- Answer the requests among some effects.  Gives the other effects, and those of
the answers. -/
def answerRequests (setup : Setup) (renderer : Renderer) :
    Session → List Effect → Session × List Effect × List Effect
  | s, [] => (s, [], [])
  | s, .request r :: rest =>
      let (t, reaction) := handle setup s (.rendered (renderer.answer r))
      let (u, kept, more) := answerRequests setup renderer t rest
      (u, kept, reaction.effects ++ more)
  | s, e :: rest =>
      let (t, kept, more) := answerRequests setup renderer s rest
      (t, e :: kept, more)

/-- Answer an event and every render request that it causes. -/
def dispatch (setup : Setup) (renderer : Renderer) (s : Session) (event : Event) :
    Session × Reaction :=
  let (t, reaction) := handle setup s event
  let (u, kept, answers) := answerRequests setup renderer t reaction.effects
  (u, ⟨reaction.handled, kept ++ answers⟩)

/-- Tell whether an event ends the session. -/
def isClose : Event → Bool
  | .close => true
  | _ => false

/-- Serve events until the editor closes, and list the reactions. -/
def serve (setup : Setup) (renderer : Renderer) : Session → List Event → List Reaction
  | _, [] => []
  | s, event :: events =>
      let (t, reaction) := dispatch setup renderer s event
      reaction :: if isClose event then [] else serve setup renderer t events

/-- The effects of a rendered answer hold no request. -/
theorem request_notMem_rendered (reply : RenderReply) (s : Session) (r : RenderRequest) :
    Effect.request r ∉ (rendered reply s).2 := by
  cases reply with
  | brackets content result =>
      simp only [rendered]
      split
      · unfold paintEffects
        split <;> simp
      · simp
  | preview ticket result =>
      simp only [rendered]
      split
      · simp only [List.mem_map, not_exists, not_and]
        intro anchor _
        cases result <;> simp [showPreview]
      · simp

end Session

end MathTyping
