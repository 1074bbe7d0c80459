import MathTyping.Proofs.Session.Answer

/-!
# The popup, its decoration and the preview

A host hears of the popup only through differences, and of the preview only
through answers that may be late.  `Coherent` relates a session to the view of a
host that has carried out all its effects: the host shows the popup that the
session has last shown, the text of its query is the only decorated one, and
nothing is previewed or waited for unless the session says so, which it never
does while it shows a popup.

Bringing the popup up to date turns coherence into agreement with the state of
the popup (`InStep`), and every event preserves that.  On the way through the
effects the popup and the preview are never visible together: a new popup hides
the preview first, and an answer is shown only while no popup is.
-/

namespace MathTyping

namespace PopupView

/-- The decoration of the text that a popup hangs below. -/
def trigger (p : PopupView) : Highlight := ⟨p.range, Highlight.triggerClass⟩

theorem map_trigger_of? (c : Completion) :
    (of? c).toList.map trigger = c.query?.toList.map Highlight.ofQuery := by
  cases c <;> rfl

end PopupView

namespace View

/-- The popup and the preview are not visible together. -/
def Apart (w : View) : Prop := w.popup = none ∨ w.preview = none

end View

namespace Effect

/-- Tell whether an effect brings up neither the popup nor a preview. -/
def bringsUpNothing : Effect → Bool
  | .showPopup _ | .showPreview _ _ | .showPreviewError _ _ => false
  | _ => true

theorem bringsUpNothing_of_keepsPanes {e : Effect} (h : e.keepsPanes) : e.bringsUpNothing := by
  cases e <;> first | rfl | simp [keepsPanes, isSilent] at h

end Effect

namespace Screen

/-- Where nothing is brought up, the popup and the preview stay apart. -/
theorem throughout_apart {v : Screen} (h : v.view.Apart) {effects : List Effect}
    (heffects : ∀ e ∈ effects, e.bringsUpNothing) : v.Throughout View.Apart effects := by
  refine throughout_of_kept (fun e he w hw => ?_) h
  have hnothing := heffects e he
  cases e with
  | closePopup => exact Or.inl rfl
  | hidePreview => exact Or.inr rfl
  | showPopup _ | showPreview _ _ | showPreviewError _ _ =>
      simp [Effect.bringsUpNothing] at hnothing
  | _ => exact hw

end Screen

namespace Session

/-- The view of a host agrees with what the session has last shown. -/
structure Coherent (s : Session) (w : View) : Prop where
  popup : w.popup = s.popup
  trigger : w.decorated [Highlight.triggerClass] = s.popup.toList.map PopupView.trigger
  hidden : s.preview.shown = none → s.preview.pending = none ∧ w.preview = none
  apart : s.popup.isSome → s.preview.shown = none

/-- The session is coherent, and has shown the popup that belongs to its state. -/
structure InStep (s : Session) (w : View) : Prop extends Coherent s w where
  synced : s.popup = PopupView.of? s.completion

namespace Coherent

variable {s : Session} {w : View}

theorem view_apart (h : Coherent s w) : w.Apart := by
  cases hpopup : s.popup with
  | none => exact Or.inl (h.popup.trans hpopup)
  | some shown =>
      have hnone : s.preview.shown = none := h.apart (by rw [hpopup]; rfl)
      exact Or.inr (h.hidden hnone).2

/-- A session that waits for a preview shows one. -/
theorem shown_ne_none_of_pending (h : Coherent s w) {ticket : Nat}
    (hpending : s.preview.pending = some ticket) : s.preview.shown ≠ none := by
  intro hnone
  rw [(h.hidden hnone).1] at hpending
  contradiction

/-- A session that shows a preview shows no popup. -/
theorem popup_eq_none_of_shown (h : Coherent s w) (hshown : s.preview.shown ≠ none) :
    s.popup = none := by
  cases hpopup : s.popup with
  | none => rfl
  | some shown => exact absurd (h.apart (by rw [hpopup]; rfl)) hshown

/-- Coherence reads only the popup and the preview of a session. -/
theorem of_eq {t : Session} (h : Coherent s w) (hpopup : t.popup = s.popup)
    (hpreview : t.preview = s.preview) : Coherent t w where
  popup := h.popup.trans hpopup.symm
  trigger := by rw [hpopup, h.trigger]
  hidden := by rw [hpreview]; exact h.hidden
  apart := by rw [hpopup, hpreview]; exact h.apart

/-- Effects on the decorations of brackets do not disturb coherence. -/
theorem applyAll {v : Screen} (h : Coherent s v.view) {effects : List Effect}
    (hbrackets : ∀ e ∈ effects, e.OnBrackets) :
    Coherent s (v.applyAll effects).view := by
  obtain ⟨hpopup, hpreview⟩ := v.panes_applyAll_of_keepsPanes fun e hmem =>
    (hbrackets e hmem).keepsPanes
  constructor
  · rw [hpopup, h.popup]
  · rw [v.decorated_applyAll_of_spares fun e hmem => (hbrackets e hmem).spares_trigger, h.trigger]
  · rw [hpreview]
    exact h.hidden
  · exact h.apart

end Coherent

theorem view_hideEffects_of_coherent {s : Session} {v : Screen} (h : Coherent s v.view) :
    (v.applyAll s.preview.hideEffects).view = { v.view with preview := none } :=
  Preview.view_hideEffects fun hshown => (h.hidden hshown).2

/-- Brought up to date, the popup of the host is that of the state. -/
theorem leads_syncPopup : Leads Coherent syncPopup InStep := by
  intro s v h
  rcases syncPopup_cases s with
    ⟨hview, hsync⟩ | ⟨hview, hsync⟩ | ⟨shown, q, hview, -, hrange, hsync⟩
  · rw [hsync]
    exact ⟨h, hview.symm⟩
  · rw [hsync]
    refine ⟨⟨rfl, ?_, h.hidden, by simp⟩, hview.symm⟩
    exact View.decorated_of_replaced (w := v.view) (List.append_nil _).symm (by simp)
  · rw [hsync, Screen.applyAll_append]
    have hmark : [Highlight.ofQuery q] = [shown.trigger] := by
      rw [Highlight.ofQuery, hrange]
      rfl
    refine ⟨⟨rfl, ?_, fun _ => ⟨rfl, ?_⟩, fun _ => rfl⟩, hview.symm⟩
    · rw [hmark]
      refine View.decorated_of_replaced
        (w := (v.applyAll s.preview.hideEffects).view) rfl ?_
      intro m hmem
      rw [List.mem_singleton.mp hmem]
      exact List.mem_singleton_self _
    · exact congrArg View.preview (view_hideEffects_of_coherent h)

/-- Reconsidering the preview keeps the host in step: an open popup leaves no preview. -/
theorem leads_updatePreview (setup : Setup) : Leads InStep (updatePreview setup) InStep := by
  intro s v h
  have hhide : InStep { s with preview := s.preview.hide.1 }
      (v.applyAll s.preview.hideEffects).view := by
    rw [view_hideEffects_of_coherent h.toCoherent]
    exact ⟨⟨h.popup, h.trigger, fun _ => ⟨rfl, rfl⟩, fun _ => rfl⟩, h.synced⟩
  rcases updatePreview_cases setup s with hupdate | hupdate | ⟨r, hclosed, hupdate⟩
  · rw [hupdate]
    exact h
  · rw [hupdate]
    exact hhide
  · rw [hupdate]
    have hnone : s.popup = none := by
      rw [h.synced, ← Option.not_isSome_iff_eq_none, PopupView.isSome_of?, hclosed]
      exact Bool.false_ne_true
    refine ⟨⟨h.popup, h.trigger, fun hshown => ?_, fun hpopup => ?_⟩, h.synced⟩
    · exact absurd hshown (Option.some_ne_none _)
    · rw [hnone] at hpopup
      contradiction

theorem leads_refreshBrackets : Leads InStep refreshBrackets InStep := by
  intro s v h
  refine ⟨?_, h.synced⟩
  have hcoherent : Coherent (refreshBrackets s).1 v.view := h.toCoherent.of_eq rfl rfl
  exact hcoherent.applyAll (refreshBrackets_onBrackets s)

theorem leads_updateCompletion (setup : Setup) :
    Leads Coherent (updateCompletion setup) InStep := by
  intro s v h
  exact leads_syncPopup _ v (h.of_eq rfl rfl)

/-- Following a report brings the host in step, whatever became of the document. -/
theorem leads_refresh (setup : Setup) : Leads Coherent (refresh setup) InStep :=
  (leads_updateCompletion setup).andThen
    ((leads_updatePreview setup).andThen leads_refreshBrackets)

/-- An answer of a renderer is shown only while no popup is. -/
theorem leads_rendered (reply : RenderReply) : Leads InStep (rendered reply) InStep := by
  intro s v h
  cases reply with
  | brackets content result =>
      have hpaint : ∀ cache, InStep { s with brackets := cache }
          (v.applyAll (paintEffects { s with brackets := cache })).view := by
        intro cache
        have hcoherent : Coherent { s with brackets := cache } v.view :=
          h.toCoherent.of_eq rfl rfl
        exact ⟨hcoherent.applyAll (paintEffects_onBrackets _), h.synced⟩
      rcases rendered_brackets_cases content result s with
        ⟨-, hrendered⟩ | ⟨pairs, -, -, hrendered⟩ | ⟨diagnostics, -, -, hrendered⟩
      · rw [hrendered]
        exact h
      · rw [hrendered]
        exact hpaint _
      · rw [hrendered]
        exact ⟨h.toCoherent.of_eq rfl rfl, h.synced⟩
  | preview ticket result =>
      rcases rendered_preview_cases ticket result s with ⟨-, hrendered⟩ | ⟨hpending, hrendered⟩
      · rw [hrendered]
        exact h
      · have hshown := h.shown_ne_none_of_pending hpending
        have hpopup : s.popup = none := h.popup_eq_none_of_shown hshown
        obtain ⟨⟨source, anchor⟩, hsome⟩ := Option.ne_none_iff_exists'.mp hshown
        have hview : ∃ pane, (v.applyAll (rendered (.preview ticket result) s).2).view =
            { v.view with preview := some pane } := by
          rw [hrendered, Preview.anchor?, hsome]
          cases result with
          | ok result => exact ⟨_, rfl⟩
          | error diagnostics => exact ⟨_, rfl⟩
        obtain ⟨pane, hview⟩ := hview
        rw [hview, hrendered]
        refine ⟨⟨h.popup, h.trigger, fun hnone => absurd hnone hshown, ?_⟩, h.synced⟩
        intro hsomePopup
        rw [hpopup] at hsomePopup
        contradiction

/-- A session that is taken down leaves nothing to be shown. -/
theorem leads_close : Leads InStep close InStep := by
  intro s v h
  have hnone : (v.applyAll (close s).2).view.decorated [Highlight.triggerClass] = [] := by
    refine View.decorated_eq_nil_of_removed (w := v.view) rfl ?_
    intro c hc
    exact List.mem_append_right _ hc
  exact ⟨⟨rfl, hnone, fun _ => ⟨rfl, rfl⟩, fun _ => rfl⟩, rfl⟩

/-- Every event leaves the host in step with the session. -/
theorem inStep_hear (setup : Setup) (event : Event) : Leads InStep (hear setup event) InStep := by
  intro s v h
  have hanswer := answer_hear setup event s
  generalize hear setup event s = answer at hanswer
  cases hanswer with
  | follow buffer cursor selection generation quiet hevent hquiet =>
      have hmoved : Coherent { s with buffer := buffer, cursor := cursor, selection := none }
          v.view := h.toCoherent.of_eq rfl rfl
      have hrefresh := leads_refresh setup _ v hmoved
      rw [Screen.applyAll_append, Screen.view_applyAll_of_isSilent _ hquiet]
      exact ⟨hrefresh.toCoherent.of_eq rfl rfl, hrefresh.synced⟩
  | popup completion quiet hevent hquiet =>
      have hquietView := Screen.view_applyAll_of_isSilent v hquiet
      rw [Screen.applyAll_append]
      apply leads_syncPopup
      rw [hquietView]
      exact h.toCoherent.of_eq rfl rfl
  | quiet selection quiet hevent hquiet =>
      rw [Screen.view_applyAll_of_isSilent _ hquiet]
      exact ⟨h.toCoherent.of_eq rfl rfl, h.synced⟩
  | repaint generation =>
      exact ⟨h.toCoherent.applyAll (paintEffects_onBrackets s), h.synced⟩
  | rendered reply => exact leads_rendered reply s v h
  | close hevent => exact leads_close s v h

/-! ### Between two effects -/

theorem apart_keepsPanes {s : Session} {v : Screen} (h : Coherent s v.view)
    {effects : List Effect} (hkeeps : ∀ e ∈ effects, e.keepsPanes) :
    v.Throughout View.Apart effects := by
  refine Screen.throughout_apart h.view_apart ?_
  intro e hmem
  exact Effect.bringsUpNothing_of_keepsPanes (hkeeps e hmem)

theorem apart_onBrackets {s : Session} {v : Screen} (h : Coherent s v.view)
    {effects : List Effect} (hbrackets : ∀ e ∈ effects, e.OnBrackets) :
    v.Throughout View.Apart effects :=
  apart_keepsPanes h fun e hmem => (hbrackets e hmem).keepsPanes

theorem apart_hideEffects {s : Session} {v : Screen} (h : Coherent s v.view) :
    v.Throughout View.Apart s.preview.hideEffects := by
  refine Screen.throughout_apart h.view_apart ?_
  intro e hmem
  rw [Preview.eq_of_mem_hideEffects hmem]
  rfl

/-- A new popup comes up only after the preview has gone. -/
theorem passes_syncPopup : Passes Coherent syncPopup View.Apart := by
  intro s v h
  rcases syncPopup_cases s with ⟨-, hsync⟩ | ⟨-, hsync⟩ | ⟨shown, q, -, -, -, hsync⟩
  · rw [hsync]
    exact Screen.throughout_nil h.view_apart
  · rw [hsync]
    exact Screen.throughout_apart h.view_apart (by simp [Effect.bringsUpNothing])
  · rw [hsync]
    refine Screen.throughout_append (apart_hideEffects h) ?_
    have hgone : (v.applyAll s.preview.hideEffects).view.preview = none :=
      congrArg View.preview (view_hideEffects_of_coherent h)
    -- From here on no effect touches the preview.
    exact Screen.throughout_cons (Or.inr hgone) (Screen.throughout_cons (Or.inr hgone)
      (Screen.throughout_cons (Or.inr hgone) (Screen.throughout_nil (Or.inr hgone))))

theorem passes_updatePreview (setup : Setup) :
    Passes InStep (updatePreview setup) View.Apart := by
  intro s v h
  rcases updatePreview_cases setup s with hupdate | hupdate | ⟨r, -, hupdate⟩
  · rw [hupdate]
    exact Screen.throughout_nil h.view_apart
  · rw [hupdate]
    exact apart_hideEffects h.toCoherent
  · rw [hupdate]
    exact apart_keepsPanes h.toCoherent (by simp [Effect.keepsPanes, Effect.isSilent])

theorem passes_refresh (setup : Setup) : Passes Coherent (refresh setup) View.Apart := by
  have hbrackets : Passes InStep refreshBrackets View.Apart := by
    intro s v h
    exact apart_onBrackets h.toCoherent (refreshBrackets_onBrackets s)
  have hcompletion : Passes Coherent (updateCompletion setup) View.Apart := by
    intro s v h
    exact passes_syncPopup _ v (h.of_eq rfl rfl)
  exact hcompletion.andThen (leads_updateCompletion setup)
    ((passes_updatePreview setup).andThen (leads_updatePreview setup) hbrackets)

/-- An answer is shown only while no popup is. -/
theorem passes_rendered (reply : RenderReply) : Passes InStep (rendered reply) View.Apart := by
  intro s v h
  cases reply with
  | brackets content result =>
      rcases rendered_brackets_cases content result s with
        ⟨-, hrendered⟩ | ⟨pairs, -, -, hrendered⟩ | ⟨diagnostics, -, -, hrendered⟩
      · rw [hrendered]
        exact Screen.throughout_nil h.view_apart
      · rw [hrendered]
        exact apart_onBrackets h.toCoherent (paintEffects_onBrackets _)
      · rw [hrendered]
        exact Screen.throughout_nil h.view_apart
  | preview ticket result =>
      rcases rendered_preview_cases ticket result s with ⟨-, hrendered⟩ | ⟨hpending, hrendered⟩
      · rw [hrendered]
        exact Screen.throughout_nil h.view_apart
      · have hclosed : v.view.popup = none :=
          h.popup.trans (h.popup_eq_none_of_shown (h.shown_ne_none_of_pending hpending))
        have hkept : ∀ e ∈ (rendered (.preview ticket result) s).2, ∀ w : Screen,
            w.view.popup = none → (w.apply e).1.view.popup = none := by
          rw [hrendered]
          intro e hmem w hw
          obtain ⟨anchor, -, rfl⟩ := List.mem_map.mp hmem
          cases result <;> exact hw
        exact (Screen.throughout_of_kept hkept hclosed).mono fun _ => Or.inl

theorem passes_close : Passes InStep close View.Apart := by
  intro s v h
  exact Screen.throughout_apart h.view_apart (by simp [close, Effect.bringsUpNothing])

/-- No event makes the popup and the preview visible together, not even between two of its
effects. -/
theorem passes_hear (setup : Setup) (event : Event) :
    Passes InStep (hear setup event) View.Apart := by
  intro s v h
  have hanswer := answer_hear setup event s
  generalize hear setup event s = answer at hanswer
  cases hanswer with
  | follow buffer cursor selection generation quiet hevent hquiet =>
      have hmoved : Coherent { s with buffer := buffer, cursor := cursor, selection := none }
          v.view := h.toCoherent.of_eq rfl rfl
      have hrefresh := leads_refresh setup _ v hmoved
      refine Screen.throughout_append (passes_refresh setup _ v hmoved) ?_
      exact apart_keepsPanes hrefresh.toCoherent fun e he =>
        Effect.keepsPanes_of_isSilent (hquiet e he)
  | popup completion quiet hevent hquiet =>
      have hquietView := Screen.view_applyAll_of_isSilent v hquiet
      refine Screen.throughout_append (apart_keepsPanes h.toCoherent fun e he =>
        Effect.keepsPanes_of_isSilent (hquiet e he)) ?_
      apply passes_syncPopup
      rw [hquietView]
      exact h.toCoherent.of_eq rfl rfl
  | quiet selection quiet hevent hquiet =>
      exact apart_keepsPanes h.toCoherent fun e he => Effect.keepsPanes_of_isSilent (hquiet e he)
  | repaint generation => exact apart_onBrackets h.toCoherent (paintEffects_onBrackets s)
  | rendered reply => exact passes_rendered reply s v h
  | close hevent => exact passes_close s v h

/-! ### Runs -/

theorem inStep_initial : InStep .initial Screen.initial.view :=
  ⟨⟨rfl, rfl, fun _ => ⟨rfl, rfl⟩, fun _ => rfl⟩, rfl⟩

/-- A host is in step with the session after every run. -/
theorem inStep_after (setup : Setup) (events : List Event) :
    InStep (after setup events) (screenAfter setup events).view :=
  condition_after inStep_initial (inStep_hear setup) events

/-- In no run are the popup and the preview ever visible together. -/
theorem apart_throughout_emitted (setup : Setup) (events : List Event) :
    Screen.initial.Throughout View.Apart (emitted setup events) := by
  induction events using List.reverseRecOn with
  | nil => exact Screen.throughout_nil (Or.inl rfl)
  | append_singleton events event ih =>
      rw [emitted_concat]
      exact Screen.throughout_append ih
        (passes_hear setup event _ _ (inStep_after setup events))

/-- **The popup, its decoration and the preview stay coherent.**  After every run the host
shows exactly the popup of the state, and decorates exactly the text of its query; and at
every point of the stream of effects at most one of popup and preview is visible. -/
theorem popup_decoration_preview_coherent (setup : Setup) (events : List Event) :
    let s := after setup events
    let v := screenAfter setup events
    v.popup = PopupView.of? s.completion ∧
      (v.popup.isSome ↔ s.completion ≠ .idle) ∧
      v.view.decorated [Highlight.triggerClass] =
        s.completion.query?.toList.map Highlight.ofQuery ∧
      ∀ passed, passed <+: emitted setup events →
        ¬ ((Screen.initial.applyAll passed).popup.isSome ∧
          (Screen.initial.applyAll passed).preview.isSome) := by
  intro s v
  have h : InStep s v.view := inStep_after setup events
  have hpopup : v.popup = PopupView.of? s.completion := h.popup.trans h.synced
  refine ⟨hpopup, ?_, ?_, ?_⟩
  · rw [hpopup, PopupView.isSome_of?]
    cases s.completion <;> simp [Completion.isOpen]
  · rw [h.trigger, h.synced, PopupView.map_trigger_of?]
  · rintro passed hpassed ⟨hsomePopup, hsomePreview⟩
    rcases apart_throughout_emitted setup events passed hpassed with hnone | hnone
    · rw [show (Screen.initial.applyAll passed).popup = none from hnone] at hsomePopup
      contradiction
    · rw [show (Screen.initial.applyAll passed).preview = none from hnone] at hsomePreview
      contradiction

end Session

end MathTyping
