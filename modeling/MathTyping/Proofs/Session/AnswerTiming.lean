import MathTyping.Proofs.Session.Awaits
import MathTyping.Proofs.Session.InPlace
import MathTyping.Proofs.Session.Unanswered
import MathTyping.Render.Local

/-!
# The timing of answers

In a `Delayed` run every request waits for its answer, which may come after any
number of further events and of other answers.  A run in which every answer is
given in place, right after its event, is one of them.

Once nothing waits, what answers bring is that of the renderer, and the rest
depends on the events alone.  Hence all delayed runs of the same events end with
the same session and the same view, up to the order of decorations.
-/

namespace MathTyping

namespace View

/-- Decorations are those of brackets and those of a query. -/
theorem highlights_perm {w : View}
    (hclasses : ∀ h ∈ w.highlights, h.className ∈ Highlight.allClasses) :
    w.highlights.Perm
      (w.decorated Highlight.bracketClasses ++ w.decorated [Highlight.triggerClass]) := by
  have hrest : (w.highlights.filter fun h => !Highlight.bracketClasses.contains h.className) =
      w.decorated [Highlight.triggerClass] := by
    apply List.filter_congr
    intro h hmem
    rcases List.mem_append.mp (hclasses h hmem) with hbracket | htrigger
    · have hother : h.className ≠ Highlight.triggerClass := by
        intro hsame
        rw [hsame] at hbracket
        exact Highlight.triggerClass_notMem_bracketClasses hbracket
      simp [hbracket, hother]
    · rw [List.mem_singleton.mp htrigger]
      simp [Highlight.triggerClass_notMem_bracketClasses]
  rw [← hrest]
  exact (List.filter_append_perm _ _).symm

end View

namespace Session

/-! ### Delayed runs -/

/-- A run with a session, the screen of its host and the requests that wait.  An event
adds its requests to those; an answer takes its own request away, once. -/
inductive Delayed (setup : Setup) (renderer : Renderer) :
    List Event → Session → Screen → List RenderRequest → Prop
  | start : Delayed setup renderer [] .initial .initial []
  | event {events : List Event} {s : Session} {v : Screen} {waiting : List RenderRequest}
      (h : Delayed setup renderer events s v waiting) (event : Event)
      (hevent : event.isRendered = false) :
      Delayed setup renderer (events ++ [event]) (hear setup event s).1
        (v.applyAll (hear setup event s).2)
        (waiting ++ Effect.requests (hear setup event s).2)
  | answer {events : List Event} {s : Session} {v : Screen} {waiting : List RenderRequest}
      (h : Delayed setup renderer events s v waiting) (request : RenderRequest)
      (hwaits : request ∈ waiting) :
      Delayed setup renderer events (hear setup (.rendered (renderer.answer request)) s).1
        (v.applyAll (hear setup (.rendered (renderer.answer request)) s).2)
        (waiting.erase request ++
          Effect.requests (hear setup (.rendered (renderer.answer request)) s).2)

variable {setup : Setup} {renderer : Renderer} {events : List Event} {s : Session} {v : Screen}
  {waiting : List RenderRequest}

/-- An answer asks for nothing itself. -/
theorem requests_hear_rendered (reply : RenderReply) :
    Effect.requests (hear setup (.rendered reply) s).2 = [] :=
  requests_rendered reply s

/-- What holds all along a delayed run: up to answers the session is that of its events, what
it lacks of them waits, and the host shows just what the session says. -/
structure Tracked (setup : Setup) (renderer : Renderer) (events : List Event) (s : Session)
    (w : View) (waiting : List RenderRequest) : Prop where
  unanswered : s.unanswered = (after setup events).unanswered
  awaits : Awaits setup renderer waiting s w
  inStep : InStep s w
  marked : Marked s w
  unmarked : Unmarked s w
  classes : ∀ h ∈ w.highlights, h.className ∈ Highlight.allClasses

/-- The answer of the renderer never drops pairs that it has found itself. -/
theorem not_dropsMarks_of_awaitsPairs (h : AwaitsPairs renderer waiting s.brackets)
    (request : RenderRequest) : ¬ DropsMarks s (.rendered (renderer.answer request)) := by
  rintro ⟨content, diagnostics, pair, pairs, hevent, hholds, hpairs⟩
  have hreply := Event.rendered.inj hevent
  cases request with
  | preview q => contradiction
  | brackets other =>
      obtain ⟨rfl, herror⟩ := RenderReply.brackets.inj hreply
      obtain ⟨region, hregion, hcontent⟩ := BracketCache.exists_of_holds hholds
      rcases h with hcached | ⟨hnone, -⟩
      · rw [Renderer.cachedPairs, hregion, Option.bind_some, hcontent, herror, hpairs] at hcached
        contradiction
      · rw [hpairs] at hnone
        contradiction

/-- Events and answers keep a run tracked, in whatever order they come. -/
theorem Delayed.tracked (h : Delayed setup renderer events s v waiting) :
    Tracked setup renderer events s v.view waiting := by
  induction h with
  | start =>
      refine ⟨rfl, ⟨Or.inl rfl, ?_⟩, inStep_initial, ?_, fun _ => rfl, ?_⟩
      · exact ⟨by simp, fun _ => rfl, fun _ hpending => by contradiction⟩
      · intro hpairs
        contradiction
      · intro m hmem
        contradiction
  | @event events s v waiting _ event hevent ih =>
      have hkept : ¬ DropsMarks s event := by
        rintro ⟨content, diagnostics, pair, pairs, rfl, -⟩
        contradiction
      constructor
      · rw [after_concat]
        exact (ignoresAnswers_hear setup hevent).congr ih.unanswered
      · exact keeps_hear hevent _ _ _ ih.awaits
      · exact inStep_hear setup event _ _ ih.inStep
      · exact marked_hear setup event _ _ ih.marked
      · exact unmarked_hear ih.marked ih.unmarked hkept
      · exact Screen.className_mem_applyAll (hear_addsOnly setup event _) ih.classes
  | @answer events s v waiting _ request hwaits ih =>
      have hkept := not_dropsMarks_of_awaitsPairs ih.awaits.pairs request
      constructor
      · exact (unanswered_rendered (renderer.answer request) s).trans ih.unanswered
      · rw [requests_hear_rendered, List.append_nil]
        exact awaits_rendered ih.awaits hwaits
      · exact inStep_hear setup _ _ _ ih.inStep
      · exact marked_hear setup _ _ _ ih.marked
      · exact unmarked_hear ih.marked ih.unmarked hkept
      · exact Screen.className_mem_applyAll (hear_addsOnly setup _ _) ih.classes

/-- The decorations of a host that is tracked are those that the session says. -/
theorem Tracked.highlights_perm {w : View} (h : Tracked setup renderer events s w waiting) :
    w.highlights.Perm (s.bracketMarks ++ s.popup.toList.map PopupView.trigger) := by
  have hperm := View.highlights_perm h.classes
  rw [decorated_eq_bracketMarks h.marked h.unmarked, h.inStep.trigger] at hperm
  exact hperm

/-- Delayed runs of the same events end alike. -/
theorem Delayed.unique {t : Session} {w : Screen} (hs : Delayed setup renderer events s v [])
    (ht : Delayed setup renderer events t w []) :
    s = t ∧ v.popup = w.popup ∧ v.preview = w.preview ∧ v.highlights.Perm w.highlights := by
  have hsTracked := hs.tracked
  have htTracked := ht.tracked
  obtain ⟨hsPairs, hsPending, hsPane⟩ := hsTracked.awaits.settled
  obtain ⟨htPairs, htPending, htPane⟩ := htTracked.awaits.settled
  have hcore : s.unanswered = t.unanswered :=
    hsTracked.unanswered.trans htTracked.unanswered.symm
  have hregion : s.brackets.region = t.brackets.region := by
    show s.unanswered.brackets.region = t.unanswered.brackets.region
    rw [hcore]
  obtain rfl : s = t := by
    refine eq_of_unanswered hcore ?_ (hsPending.trans htPending.symm)
    rw [hsPairs, htPairs, Renderer.cachedPairs, Renderer.cachedPairs, hregion]
  refine ⟨rfl, ?_, hsPane.trans htPane.symm, ?_⟩
  · exact hsTracked.inStep.popup.trans htTracked.inStep.popup.symm
  · exact hsTracked.highlights_perm.trans htTracked.highlights_perm.symm

/-! ### Answers in place -/

/-- The step that answers an event and, right after it, all its requests. -/
def hearInPlace (setup : Setup) (renderer : Renderer) (event : Event) : Step := fun s =>
  let (t, reaction) := dispatch setup renderer s event
  (t, reaction.effects)

/-- The requests of an event may be answered one by one, in their order. -/
theorem delayed_answerRequests {effects : List Effect}
    (h : Delayed setup renderer events s v (Effect.requests effects)) :
    Delayed setup renderer events (answerRequests setup renderer s effects).1
      (v.applyAll (answerRequests setup renderer s effects).2.2) [] := by
  induction s, effects using answerRequests_induction renderer generalizing v with
  | nil s => exact h
  | request s r effects ih =>
      -- In place, the request at hand is the oldest that waits.
      have hanswer := h.answer r List.mem_cons_self
      rw [show Effect.requests (.request r :: effects) = r :: Effect.requests effects from rfl,
        List.erase_cons_head, requests_hear_rendered, List.append_nil] at hanswer
      rw [answerRequests_request]
      dsimp only
      rw [Screen.applyAll_append]
      exact ih hanswer
  | other s e effects hother ih =>
      rw [answerRequests_other hother]
      refine ih ?_
      rwa [Effect.requests, List.filterMap_cons_none hother] at h

/-- Answers in place are a way to answer. -/
theorem delayed_inPlace (hevents : ∀ event ∈ events, event.isRendered = false) :
    Delayed setup renderer events (run (hearInPlace setup renderer) events .initial).1
      (Screen.initial.applyAll (run (hearInPlace setup renderer) events .initial).2) [] := by
  induction events using List.reverseRecOn with
  | nil => exact .start
  | append_singleton events event ih =>
      have hearlier := ih fun e hmem => hevents e (List.mem_append_left _ hmem)
      have hevent := hevents event (List.mem_append_right _ (List.mem_singleton_self _))
      have hheard := hearlier.event event hevent
      rw [List.nil_append] at hheard
      rw [run_concat]
      dsimp only [hearInPlace]
      rw [dispatch_eq]
      dsimp only
      rw [Screen.applyAll_append, Screen.applyAll_append, applyAll_answerRequests]
      exact delayed_answerRequests hheard

theorem Delayed.isRendered (h : Delayed setup renderer events s v waiting) :
    ∀ event ∈ events, event.isRendered = false := by
  induction h with
  | start => simp
  | event _ event hevent ih =>
      intro e hmem
      rcases List.mem_append.mp hmem with hmem | hmem
      · exact ih e hmem
      · rw [List.mem_singleton.mp hmem]
        exact hevent
  | answer _ _ _ ih => exact ih

/-- **The timing of answers does not matter.**  A run in which every request is answered at
some time, in any order, ends with the same session as if every answer were given in place,
and with the same popup, the same preview pane and, up to their order, the same decorations. -/
theorem answer_timing_irrelevant (h : Delayed setup renderer events s v []) :
    let inPlace := run (hearInPlace setup renderer) events .initial
    let w := Screen.initial.applyAll inPlace.2
    s = inPlace.1 ∧ v.popup = w.popup ∧ v.preview = w.preview ∧
      v.highlights.Perm w.highlights := by
  intro inPlace w
  have hinPlace : Delayed setup renderer events inPlace.1 w [] := delayed_inPlace h.isRendered
  exact h.unique hinPlace

/-- A region moves before it is answered.  The answers come after both events, the newer
preview first, and still end as in place. -/
theorem late_answers_end_alike :
    ∃ s v, Delayed plainSetup LocalRenderer.renderer askTwice s v [] ∧
      s = (run (hearInPlace plainSetup LocalRenderer.renderer) askTwice .initial).1 ∧
      v.preview.isSome ∧ v.highlights.length = 4 := by
  have hstart : Delayed plainSetup LocalRenderer.renderer [] .initial .initial [] := .start
  have hasked := (hstart.event (.changed ⟨"$f(x)$".toList, ⟨0, 3⟩⟩) rfl).event
    (.changed ⟨"a$f(x)$".toList, ⟨0, 4⟩⟩) rfl
  rw [show [] ++ [Event.changed ⟨"$f(x)$".toList, ⟨0, 3⟩⟩] ++
    [.changed ⟨"a$f(x)$".toList, ⟨0, 4⟩⟩] = askTwice from rfl] at hasked
  have hnewer := (hasked.answer (.preview (inlineRequest plainSetup 2 "f(x)".toList))
    (by decide +kernel)).answer (.brackets "f(x)".toList) (by decide +kernel)
  have holder := (hnewer.answer (.preview (inlineRequest plainSetup 1 "f(x)".toList))
    (by decide +kernel)).answer (.brackets "f(x)".toList) (by decide +kernel)
  obtain ⟨s, v, waiting, hlast, hnone⟩ : ∃ s v waiting,
      Delayed plainSetup LocalRenderer.renderer askTwice s v waiting ∧ waiting = [] :=
    ⟨_, _, _, holder, by decide +kernel⟩
  rw [hnone] at hlast
  obtain ⟨hsession, -, hpreview, hperm⟩ := answer_timing_irrelevant hlast
  refine ⟨s, v, hlast, hsession, ?_, ?_⟩
  · rw [hpreview]
    decide +kernel
  · rw [hperm.length_eq]
    decide +kernel

end Session

end MathTyping
