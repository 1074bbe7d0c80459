import MathTyping.Proofs.Session.Coherence
import MathTyping.Proofs.Session.BracketMarks

/-!
# Requests that wait

A renderer answers a request with a function of it, but the answer may be late.
`Awaits` says that a session and its host lack only what still waits: the cached
pairs and the preview pane are those that the renderer gives, or their request
waits.  Every event keeps this, and so does every answer to a request that waits.

A late answer for pairs is told by its content, and one for a preview by its
ticket.  Tickets grow, so a preview that waits has one of its own.
-/

namespace MathTyping

namespace Renderer

/-- The pairs that a renderer finds for the cached region. -/
def cachedPairs (renderer : Renderer) (cache : BracketCache) : Option (List BracketPair) :=
  cache.region.bind fun region => (renderer.bracketPairs region.content).toOption

/-- What the pane shows once a renderer has answered. -/
def pane (renderer : Renderer) (q : PreviewRequest) (anchor : Position) : PreviewPane :=
  match renderer.render q.source q.kind q.processor with
  | .ok result => .rendered anchor result.svg
  | .error diagnostics => .failed anchor diagnostics

end Renderer

namespace Session

/-- The request for the preview of an inline source. -/
def inlineRequest (setup : Setup) (ticket : Nat) (source : Text) : PreviewRequest :=
  ⟨ticket, source, .inline, setup.config.previewProcessor⟩

/-- What the pane shows of a preview once it is answered. -/
def settledPane (setup : Setup) (renderer : Renderer) (p : Preview) : Option PreviewPane :=
  p.shown.map fun shown => renderer.pane (inlineRequest setup p.ticket shown.1) shown.2

/-- The cached pairs are those that the renderer finds, or they are missing and their
request waits. -/
def AwaitsPairs (renderer : Renderer) (waiting : List RenderRequest) (cache : BracketCache) :
    Prop :=
  cache.pairs = renderer.cachedPairs cache ∨
    cache.pairs = none ∧
      ∃ region, cache.region = some region ∧ RenderRequest.brackets region.content ∈ waiting

/-- The pane shows the answer for the preview, or its request waits and has a ticket of its
own. -/
structure AwaitsPreview (setup : Setup) (renderer : Renderer) (waiting : List RenderRequest)
    (p : Preview) (pane : Option PreviewPane) : Prop where
  issued : ∀ q, RenderRequest.preview q ∈ waiting → q.ticket ≤ p.ticket
  settled : p.pending = none → pane = settledPane setup renderer p
  asked : ∀ ticket, p.pending = some ticket →
    ∃ source anchor, p.shown = some (source, anchor) ∧
      RenderRequest.preview (inlineRequest setup ticket source) ∈ waiting ∧
        ∀ q, RenderRequest.preview q ∈ waiting → q.ticket = ticket →
          q = inlineRequest setup ticket source

/-- What the session and the host lack of the renderer's answers waits. -/
structure Awaits (setup : Setup) (renderer : Renderer) (waiting : List RenderRequest)
    (s : Session) (w : View) : Prop where
  pairs : AwaitsPairs renderer waiting s.brackets
  preview : AwaitsPreview setup renderer waiting s.preview w.preview

variable {setup : Setup} {renderer : Renderer} {waiting later : List RenderRequest}

theorem AwaitsPairs.mono {cache : BracketCache} (h : AwaitsPairs renderer waiting cache)
    (hsub : ∀ content, RenderRequest.brackets content ∈ waiting → .brackets content ∈ later) :
    AwaitsPairs renderer later cache := by
  rcases h with h | ⟨hnone, region, hregion, hmem⟩
  · exact Or.inl h
  · exact Or.inr ⟨hnone, region, hregion, hsub _ hmem⟩

namespace AwaitsPreview

variable {p : Preview} {pane : Option PreviewPane}

/-- Only the waiting previews count. -/
theorem of_iff (h : AwaitsPreview setup renderer waiting p pane)
    (hsame : ∀ q, RenderRequest.preview q ∈ later ↔ RenderRequest.preview q ∈ waiting) :
    AwaitsPreview setup renderer later p pane where
  issued q hmem := h.issued q ((hsame q).mp hmem)
  settled := h.settled
  asked ticket hpending := by
    obtain ⟨source, anchor, hshown, hmem, hown⟩ := h.asked ticket hpending
    refine ⟨source, anchor, hshown, (hsame _).mpr hmem, ?_⟩
    intro q hq
    exact hown q ((hsame q).mp hq)

/-- Without a preview the pane is empty. -/
theorem pane_eq_none (h : AwaitsPreview setup renderer waiting p pane) (hshown : p.shown = none) :
    pane = none := by
  have hpending : p.pending = none := by
    cases hticket : p.pending with
    | none => rfl
    | some ticket =>
        obtain ⟨source, anchor, hsome, -⟩ := h.asked ticket hticket
        rw [hshown] at hsome
        contradiction
  rw [h.settled hpending, settledPane, hshown]
  rfl

/-- A hidden preview waits for nothing. -/
theorem hide (h : AwaitsPreview setup renderer waiting p pane) :
    AwaitsPreview setup renderer waiting p.hide.1 none where
  issued := h.issued
  settled _ := rfl
  asked _ hpending := by contradiction

/-- A new request waits under a ticket that no request had before. -/
theorem ask (h : AwaitsPreview setup renderer waiting p pane) (source : Text)
    (anchor : Position) :
    AwaitsPreview setup renderer
      (waiting ++ [.preview (inlineRequest setup (p.ticket + 1) source)])
      ⟨p.ticket + 1, some (p.ticket + 1), some (source, anchor)⟩ pane := by
  -- A ticket that was issued before is smaller, so the new request is alone with its own.
  have hmem : ∀ q, RenderRequest.preview q ∈
      waiting ++ [.preview (inlineRequest setup (p.ticket + 1) source)] →
        q.ticket ≤ p.ticket ∨ q = inlineRequest setup (p.ticket + 1) source := by
    intro q hq
    rcases List.mem_append.mp hq with hq | hq
    · exact Or.inl (h.issued q hq)
    · exact Or.inr (RenderRequest.preview.inj (List.mem_singleton.mp hq))
  constructor
  · intro q hq
    rcases hmem q hq with hold | rfl
    · exact Nat.le_succ_of_le hold
    · exact Nat.le_refl _
  · intro hpending
    contradiction
  · intro ticket hpending
    obtain rfl : p.ticket + 1 = ticket := Option.some.inj hpending
    refine ⟨source, anchor, rfl, List.mem_append_right _ (List.mem_singleton_self _), ?_⟩
    intro q hq hticket
    rcases hmem q hq with hold | hnew
    · omega
    · exact hnew

/-- An answer that is not waited for changes nothing. -/
theorem drop (h : AwaitsPreview setup renderer waiting p pane) {q : PreviewRequest}
    (hother : p.pending ≠ some q.ticket) :
    AwaitsPreview setup renderer (waiting.erase (.preview q)) p pane where
  issued other hmem := h.issued other (List.mem_of_mem_erase hmem)
  settled := h.settled
  asked ticket hpending := by
    obtain ⟨source, anchor, hshown, hmem, hown⟩ := h.asked ticket hpending
    refine ⟨source, anchor, hshown, ?_, fun other hother =>
      hown other (List.mem_of_mem_erase hother)⟩
    refine (List.mem_erase_of_ne ?_).mpr hmem
    intro hsame
    obtain rfl := RenderRequest.preview.inj hsame
    exact hother hpending

/-- The answer that is waited for settles the pane. -/
theorem settle (h : AwaitsPreview setup renderer waiting p pane) {q : PreviewRequest}
    (hmem : RenderRequest.preview q ∈ waiting) (hpending : p.pending = some q.ticket) :
    ∃ anchor, p.anchor? = some anchor ∧
      AwaitsPreview setup renderer (waiting.erase (.preview q)) ⟨p.ticket, none, p.shown⟩
        (some (renderer.pane q anchor)) := by
  obtain ⟨source, anchor, hshown, -, hown⟩ := h.asked q.ticket hpending
  refine ⟨anchor, by rw [Preview.anchor?, hshown]; rfl, ?_, ?_, ?_⟩
  · intro other hother
    exact h.issued other (List.mem_of_mem_erase hother)
  · intro _
    rw [settledPane, hown q hmem rfl, hshown]
    rfl
  · intro _ hnone
    contradiction

end AwaitsPreview

/-! ### What each step keeps waiting -/

/-- A step keeps an expectation, once its effects are carried out and its requests wait. -/
def Keeps (P : List RenderRequest → Condition) (step : Step) : Prop :=
  ∀ (waiting : List RenderRequest) (s : Session) (v : Screen), P waiting s v.view →
    P (waiting ++ Effect.requests (step s).2) (step s).1 (v.applyAll (step s).2).view

theorem Keeps.andThen {P : List RenderRequest → Condition} {first second : Step}
    (hfirst : Keeps P first) (hsecond : Keeps P second) : Keeps P (andThen first second) := by
  intro waiting s v h
  have hboth := hsecond _ _ _ (hfirst waiting s v h)
  rw [List.append_assoc, ← Effect.requests_append, ← Screen.applyAll_append] at hboth
  exact hboth

theorem keeps_syncPopup : Keeps (Awaits setup renderer) syncPopup := by
  intro waiting s v h
  rw [requests_syncPopup, List.append_nil]
  refine ⟨by rw [syncPopup_brackets]; exact h.pairs, ?_⟩
  rcases syncPopup_cases s with ⟨-, hsync⟩ | ⟨-, hsync⟩ | ⟨shown, q, -, -, -, hsync⟩
  · rw [hsync]
    exact h.preview
  · rw [hsync]
    exact h.preview
  · have hpane : (v.applyAll s.preview.hideEffects).view.preview = none :=
      congrArg View.preview (Preview.view_hideEffects h.preview.pane_eq_none)
    rw [hsync, Screen.applyAll_append]
    show AwaitsPreview setup renderer waiting s.preview.hide.1
      (v.applyAll s.preview.hideEffects).view.preview
    rw [hpane]
    exact h.preview.hide

theorem keeps_updatePreview : Keeps (Awaits setup renderer) (updatePreview setup) := by
  intro waiting s v h
  have hpairs : AwaitsPairs renderer (waiting ++ Effect.requests (updatePreview setup s).2)
      (updatePreview setup s).1.brackets := by
    rw [updatePreview_brackets]
    exact h.pairs.mono fun content hmem => List.mem_append_left _ hmem
  refine ⟨hpairs, ?_⟩
  rcases updatePreview_cases setup s with hupdate | hupdate | ⟨r, -, hupdate⟩
  · rw [hupdate, Effect.requests_nil, List.append_nil]
    exact h.preview
  · have hpane : (v.applyAll s.preview.hideEffects).view.preview = none :=
      congrArg View.preview (Preview.view_hideEffects h.preview.pane_eq_none)
    rw [hupdate, Preview.requests_hideEffects, List.append_nil, hpane]
    exact h.preview.hide
  · rw [hupdate]
    exact h.preview.ask r.content r.stop

/-- A region that only moves keeps its pairs; those of a new content are requested. -/
theorem awaitsPairs_refreshBrackets {s : Session} (h : AwaitsPairs renderer waiting s.brackets) :
    AwaitsPairs renderer (waiting ++ Effect.requests (refreshBrackets s).2)
      (refreshBrackets s).1.brackets := by
  rcases refreshBrackets_cases s with
    ⟨-, hs⟩ | ⟨-, hs⟩ | ⟨r, pairs, -, hholds, hpairs, hs⟩ | ⟨r, -, hs⟩
  · rw [hs]
    exact h.mono fun content hmem => List.mem_append_left _ hmem
  · rw [hs]
    exact Or.inl rfl
  · rw [hs]
    obtain ⟨region, hregion, hcontent⟩ := BracketCache.exists_of_holds hholds
    rcases h with hcached | ⟨hnone, -⟩
    · refine Or.inl ?_
      rw [hpairs, Renderer.cachedPairs, hregion, Option.bind_some, hcontent] at hcached
      exact hcached
    · rw [hpairs] at hnone
      contradiction
  · rw [hs]
    exact Or.inr ⟨rfl, r, rfl, List.mem_append_right _ (List.mem_singleton_self _)⟩

/-- Following the region requests no preview. -/
theorem preview_notMem_refreshBrackets (s : Session) (q : PreviewRequest) :
    RenderRequest.preview q ∉ Effect.requests (refreshBrackets s).2 := by
  intro hmem
  obtain ⟨e, he, hrequest⟩ := List.mem_filterMap.mp hmem
  exact (refreshBrackets_onBrackets s e he).request?_ne_preview q hrequest

theorem keeps_refreshBrackets : Keeps (Awaits setup renderer) refreshBrackets := by
  intro waiting s v h
  refine ⟨awaitsPairs_refreshBrackets h.pairs, ?_⟩
  have hpanes := v.panes_applyAll_of_keepsPanes fun e hmem =>
    (refreshBrackets_onBrackets s e hmem).keepsPanes
  rw [hpanes.2]
  refine AwaitsPreview.of_iff h.preview fun q => ?_
  rw [List.mem_append, or_iff_left (preview_notMem_refreshBrackets s q)]

theorem keeps_refresh : Keeps (Awaits setup renderer) (refresh setup) := by
  have hcompletion : Keeps (Awaits setup renderer) (updateCompletion setup) := by
    intro waiting s v h
    exact keeps_syncPopup waiting _ v ⟨h.pairs, h.preview⟩
  exact hcompletion.andThen (keeps_updatePreview.andThen keeps_refreshBrackets)

/-- Of what an event other than an answer asks for, nothing is lost. -/
theorem keeps_hear {event : Event} (hevent : event.isRendered = false) :
    Keeps (Awaits setup renderer) (hear setup event) := by
  intro waiting s v h
  have hanswer := answer_hear setup event s
  generalize hear setup event s = answer at hanswer
  cases hanswer with
  | follow buffer cursor selection generation quiet hreport hquiet hasks =>
      have hrefresh := keeps_refresh waiting
        { s with buffer := buffer, cursor := cursor, selection := none } v ⟨h.pairs, h.preview⟩
      rw [Effect.requests_append, hasks, List.append_nil, Screen.applyAll_append,
        Screen.view_applyAll_of_isSilent _ hquiet]
      exact ⟨hrefresh.pairs, hrefresh.preview⟩
  | popup completion quiet hinput hquiet hasks =>
      rw [Effect.requests_append, hasks, List.nil_append, Screen.applyAll_append]
      apply keeps_syncPopup
      rw [Screen.view_applyAll_of_isSilent v hquiet]
      exact ⟨h.pairs, h.preview⟩
  | quiet selection quiet hinput hquiet hasks =>
      rw [hasks, List.append_nil, Screen.view_applyAll_of_isSilent _ hquiet]
      exact ⟨h.pairs, h.preview⟩
  | repaint generation =>
      rw [requests_paintEffects, List.append_nil]
      refine ⟨h.pairs, ?_⟩
      have hpanes := v.panes_applyAll_of_keepsPanes fun e hmem =>
        (paintEffects_onBrackets s e hmem).keepsPanes
      rw [hpanes.2]
      exact h.preview
  | rendered reply => contradiction
  | close hteardown =>
      refine ⟨Or.inl rfl, ?_⟩
      rw [show Effect.requests (close s).2 = [] from rfl, List.append_nil]
      exact h.preview.hide

/-! ### What answers leave waiting -/

/-- The pairs of the cached content need not wait any longer; those of others need not
either. -/
theorem awaitsPairs_rendered {s : Session} (content : Text)
    (h : AwaitsPairs renderer waiting s.brackets) :
    AwaitsPairs renderer (waiting.erase (.brackets content))
      (rendered (.brackets content (renderer.bracketPairs content)) s).1.brackets := by
  rcases rendered_brackets_cases content (renderer.bracketPairs content) s with
    ⟨hother, hs⟩ | ⟨pairs, hholds, hpairs, hs⟩ | ⟨diagnostics, hholds, hpairs, hs⟩
  · rw [hs]
    rcases h with hcached | ⟨hnone, region, hregion, hmem⟩
    · exact Or.inl hcached
    · refine Or.inr ⟨hnone, region, hregion, (List.mem_erase_of_ne ?_).mpr hmem⟩
      intro hsame
      have hholds := (BracketCache.holds_iff hregion).mpr (RenderRequest.brackets.inj hsame)
      rw [hother] at hholds
      contradiction
  · obtain ⟨region, hregion, hcontent⟩ := BracketCache.exists_of_holds hholds
    rw [hs]
    refine Or.inl ?_
    rw [Renderer.cachedPairs, hregion, Option.bind_some, hcontent, hpairs]
    rfl
  · obtain ⟨region, hregion, hcontent⟩ := BracketCache.exists_of_holds hholds
    rw [hs]
    refine Or.inl ?_
    rw [Renderer.cachedPairs, hregion, Option.bind_some, hcontent, hpairs]
    rfl

theorem awaitsPreview_rendered {s : Session} {v : Screen} {q : PreviewRequest}
    (h : AwaitsPreview setup renderer waiting s.preview v.view.preview)
    (hwaits : RenderRequest.preview q ∈ waiting) :
    let reply := RenderReply.preview q.ticket (renderer.render q.source q.kind q.processor)
    AwaitsPreview setup renderer (waiting.erase (.preview q)) (rendered reply s).1.preview
      (v.applyAll (rendered reply s).2).view.preview := by
  intro reply
  rcases rendered_preview_cases q.ticket (renderer.render q.source q.kind q.processor) s with
    ⟨hother, hs⟩ | ⟨hpending, hs⟩
  · rw [hs]
    exact h.drop hother
  · obtain ⟨anchor, hanchor, hsettled⟩ := h.settle hwaits hpending
    have hpane : (v.applyAll [showPreview anchor
        (renderer.render q.source q.kind q.processor)]).view.preview =
          some (renderer.pane q anchor) := by
      rw [Renderer.pane]
      cases renderer.render q.source q.kind q.processor <;> rfl
    rw [hs, hanchor]
    show AwaitsPreview setup renderer _ ⟨s.preview.ticket, none, s.preview.shown⟩
      (v.applyAll [showPreview anchor (renderer.render q.source q.kind q.processor)]).view.preview
    rw [hpane]
    exact hsettled

/-- An answer that waits may be given at any time. -/
theorem awaits_rendered {s : Session} {v : Screen} (h : Awaits setup renderer waiting s v.view)
    {request : RenderRequest} (hwaits : request ∈ waiting) :
    Awaits setup renderer (waiting.erase request) (rendered (renderer.answer request) s).1
      (v.applyAll (rendered (renderer.answer request) s).2).view := by
  cases request with
  | brackets content =>
      refine ⟨awaitsPairs_rendered content h.pairs, ?_⟩
      have hpanes := v.panes_applyAll_of_keepsPanes fun e hmem =>
        (rendered_brackets_onBrackets content (renderer.bracketPairs content) s e hmem).keepsPanes
      rw [Renderer.answer, hpanes.2]
      refine AwaitsPreview.of_iff h.preview fun q => List.mem_erase_of_ne ?_
      exact RenderRequest.noConfusion
  | preview q =>
      refine ⟨?_, awaitsPreview_rendered h.preview hwaits⟩
      rw [Renderer.answer, rendered_preview_fst]
      refine h.pairs.mono fun content hmem => (List.mem_erase_of_ne ?_).mpr hmem
      exact RenderRequest.noConfusion

/-- Once nothing waits, the renderer's answers are cached and shown. -/
theorem Awaits.settled {s : Session} {w : View} (h : Awaits setup renderer [] s w) :
    s.brackets.pairs = renderer.cachedPairs s.brackets ∧ s.preview.pending = none ∧
      w.preview = settledPane setup renderer s.preview := by
  have hpending : s.preview.pending = none := by
    cases hticket : s.preview.pending with
    | none => rfl
    | some ticket =>
        obtain ⟨source, anchor, -, hmem, -⟩ := h.preview.asked ticket hticket
        contradiction
  refine ⟨?_, hpending, h.preview.settled hpending⟩
  rcases h.pairs with hcached | ⟨-, region, -, hmem⟩
  · exact hcached
  · contradiction

end Session

end MathTyping
