import MathTyping.Proofs.Session.Awaits

/-!
# The latest preview

A preview is asked for under a ticket, and its answer may come at any time, more
than once, or never.  Meanwhile the document changes and the popup comes and
goes, so an answer may find another equation around the caret, or none.

Two invariants of runs keep such an answer off the screen.  `TracksLatest`
relates a session to all requests made so far: a ticket that is waited for is
that of the last preview asked for, and the source shown or about to be shown is
the one of that request.  `ShowsEquation` relates it to the document: whatever is
shown or about to be is the equation that may be previewed at the caret now.
Only the answer that is waited for is shown, so it is for both.
-/

namespace MathTyping

/-- The preview that a request asks for, if it asks for one. -/
def RenderRequest.preview? : RenderRequest → Option PreviewRequest
  | .preview q => some q
  | .brackets _ => none

/-- The preview that was asked for last among some requests, oldest first. -/
def latestPreview? (asked : List RenderRequest) : Option PreviewRequest :=
  (asked.filterMap RenderRequest.preview?).getLast?

theorem latestPreview?_concat (asked : List RenderRequest) (q : PreviewRequest) :
    latestPreview? (asked ++ [.preview q]) = some q := by
  simp [latestPreview?, RenderRequest.preview?]

/-- Requests for pairs do not count. -/
theorem latestPreview?_append {asked more : List RenderRequest}
    (hmore : ∀ q, RenderRequest.preview q ∉ more) :
    latestPreview? (asked ++ more) = latestPreview? asked := by
  have hnone : more.filterMap RenderRequest.preview? = [] := by
    rw [List.filterMap_eq_nil_iff]
    intro request hmem
    cases request with
    | brackets content => rfl
    | preview q => exact absurd hmem (hmore q)
  rw [latestPreview?, List.filterMap_append, hnone, List.append_nil, latestPreview?]

namespace Effect

/-- The place below which an effect shows a preview or its diagnostics, if it does. -/
def anchor? : Effect → Option Position
  | .showPreview anchor _ | .showPreviewError anchor _ => some anchor
  | _ => none

variable {e : Effect}

theorem anchor?_of_isSilent (h : e.isSilent) : e.anchor? = none := by
  cases e <;> first | rfl | simp [isSilent] at h

theorem OnBrackets.anchor?_eq_none (h : e.OnBrackets) : e.anchor? = none := by
  cases e <;> first | rfl | exact h.elim

end Effect

theorem Completion.eq_idle_of_isOpen_eq_false {state : Completion} (h : state.isOpen = false) :
    state = .idle := by
  cases state with
  | idle => rfl
  | snippets found => contradiction
  | symbols found => contradiction

namespace Preview

/-- An equation may be previewed while no popup is open, outside code and display math. -/
theorem equation?_eq_some_iff {b : Buffer} {cursor : Position} {popupOpen : Bool} {r : Region} :
    equation? b cursor popupOpen = some r ↔
      popupOpen = false ∧ CodeContext.inCode b cursor = false ∧
        Region.displayAt? b cursor = none ∧ Region.inlineAt? b cursor = some r := by
  unfold equation?
  cases popupOpen with
  | true => simp
  | false =>
      cases CodeContext.inCode b cursor with
      | true => simp
      | false => cases Region.displayAt? b cursor <;> simp

end Preview

namespace Session

/-! ### Against the requests made so far -/

/-- A ticket that is waited for belongs to something about to be shown, and is that of the last
preview asked for; what is shown or about to be shown has the source of that request. -/
structure TracksLatest (asked : List RenderRequest) (p : Preview) : Prop where
  pending : ∀ ticket, p.pending = some ticket → ticket = p.ticket ∧ p.shown ≠ none
  shown : ∀ source anchor, p.shown = some (source, anchor) →
    ∃ q, latestPreview? asked = some q ∧ q.ticket = p.ticket ∧ q.source = source

namespace TracksLatest

variable {asked more : List RenderRequest} {p : Preview}

theorem initial : TracksLatest [] Preview.initial where
  pending _ hpending := by contradiction
  shown _ _ hshown := by contradiction

theorem hide (asked : List RenderRequest) (p : Preview) : TracksLatest asked p.hide.1 where
  pending _ hpending := by contradiction
  shown _ _ hshown := by contradiction

/-- After an answer nothing is waited for. -/
theorem settle (h : TracksLatest asked p) : TracksLatest asked ⟨p.ticket, none, p.shown⟩ where
  pending _ hpending := by contradiction
  shown := h.shown

/-- A new request is the last one. -/
theorem ask (asked : List RenderRequest) (q : PreviewRequest) (anchor : Position) :
    TracksLatest (asked ++ [.preview q]) ⟨q.ticket, some q.ticket, some (q.source, anchor)⟩ where
  pending ticket hpending := by
    obtain rfl : q.ticket = ticket := Option.some.inj hpending
    exact ⟨rfl, Option.some_ne_none _⟩
  shown source stop hshown := by
    obtain ⟨rfl, -⟩ := Prod.mk.inj (Option.some.inj hshown)
    exact ⟨q, latestPreview?_concat asked q, rfl, rfl⟩

theorem append (h : TracksLatest asked p) (hmore : ∀ q, RenderRequest.preview q ∉ more) :
    TracksLatest (asked ++ more) p where
  pending := h.pending
  shown source anchor hshown := by
    rw [latestPreview?_append hmore]
    exact h.shown source anchor hshown

end TracksLatest

/-- The preview of a session tracks the requests made so far, whatever the host shows. -/
def PreviewTracks (asked : List RenderRequest) : Condition := fun s _ =>
  TracksLatest asked s.preview

theorem tracks_syncPopup : Keeps PreviewTracks syncPopup := by
  intro asked s v h
  rw [requests_syncPopup, List.append_nil]
  rcases syncPopup_cases s with ⟨-, hsync⟩ | ⟨-, hsync⟩ | ⟨shown, q, -, -, -, hsync⟩
  · rw [hsync]
    exact h
  · rw [hsync]
    exact h
  · rw [hsync]
    exact .hide asked s.preview

theorem tracks_updatePreview (setup : Setup) : Keeps PreviewTracks (updatePreview setup) := by
  intro asked s v h
  rcases updatePreview_cases setup s with hupdate | hupdate | ⟨r, -, hupdate⟩
  · rw [hupdate, Effect.requests_nil, List.append_nil]
    exact h
  · rw [hupdate, Preview.requests_hideEffects, List.append_nil]
    exact .hide asked s.preview
  · rw [hupdate]
    exact TracksLatest.ask asked ⟨s.preview.ticket + 1, r.content, .inline,
      setup.config.previewProcessor⟩ r.stop

theorem tracks_refresh (setup : Setup) : Keeps PreviewTracks (refresh setup) := by
  have hcompletion : Keeps PreviewTracks (updateCompletion setup) := by
    intro asked s v h
    exact tracks_syncPopup asked _ v h
  have hbrackets : Keeps PreviewTracks refreshBrackets := by
    intro asked s v h
    exact TracksLatest.append h (preview_notMem_refreshBrackets s)
  exact hcompletion.andThen ((tracks_updatePreview setup).andThen hbrackets)

theorem tracks_rendered (reply : RenderReply) : Keeps PreviewTracks (rendered reply) := by
  intro asked s v h
  rw [requests_rendered, List.append_nil]
  cases reply with
  | brackets content result => exact h
  | preview ticket result =>
      rcases rendered_preview_cases ticket result s with ⟨-, hrendered⟩ | ⟨-, hrendered⟩
      · rw [hrendered]
        exact h
      · rw [hrendered]
        exact TracksLatest.settle h

/-- Every event keeps track of the last preview asked for. -/
theorem tracks_hear (setup : Setup) (event : Event) :
    Keeps PreviewTracks (hear setup event) := by
  intro asked s v h
  have hanswer := answer_hear setup event s
  generalize hear setup event s = answer at hanswer
  cases hanswer with
  | follow buffer cursor selection generation quiet hevent hquiet hasks =>
      rw [Effect.requests_append, hasks, List.append_nil]
      exact tracks_refresh setup asked
        { s with buffer := buffer, cursor := cursor, selection := none } v h
  | popup completion quiet hevent hquiet hasks =>
      rw [Effect.requests_append, hasks, List.nil_append]
      exact tracks_syncPopup asked { s with completion := completion } v h
  | quiet selection quiet hevent hquiet hasks =>
      rw [hasks, List.append_nil]
      exact h
  | repaint generation =>
      rw [requests_paintEffects, List.append_nil]
      exact h
  | rendered reply => exact tracks_rendered reply asked s v h
  | close hevent =>
      rw [show Effect.requests (close s).2 = [] from rfl, List.append_nil]
      exact .hide asked s.preview

theorem tracksLatest_after (setup : Setup) (events : List Event) :
    TracksLatest (Effect.requests (emitted setup events)) (after setup events).preview := by
  induction events using List.reverseRecOn with
  | nil => exact .initial
  | append_singleton events event ih =>
      rw [after_concat, emitted_concat, Effect.requests_append]
      exact tracks_hear setup event _ _ (screenAfter setup events) ih

/-! ### Against the document -/

/-- A preview needs the setting for it, and what is shown or about to be shown is the equation
that may be previewed at the caret. -/
structure ShowsEquation (setup : Setup) (s : Session) : Prop where
  enabled : s.preview.shown ≠ none → setup.config.inlinePreview
  equation : ∀ shown, s.preview.shown = some shown →
    ∃ r, Preview.equation? s.buffer s.cursor s.completion.isOpen = some r ∧
      shown = (r.content, r.stop)

namespace ShowsEquation

variable {setup : Setup} {s t : Session}

theorem of_eq (h : ShowsEquation setup s) (hbuffer : t.buffer = s.buffer)
    (hcursor : t.cursor = s.cursor) (hcompletion : t.completion.isOpen = s.completion.isOpen)
    (hshown : t.preview.shown = s.preview.shown) : ShowsEquation setup t where
  enabled := by rw [hshown]; exact h.enabled
  equation := by rw [hbuffer, hcursor, hcompletion, hshown]; exact h.equation

theorem of_shown_eq_none (hshown : s.preview.shown = none) : ShowsEquation setup s where
  enabled hsome := absurd hshown hsome
  equation shown hsome := by
    rw [hshown] at hsome
    contradiction

/-- While something is shown the popup is closed. -/
theorem isOpen_eq_false (h : ShowsEquation setup s) (hshown : s.preview.shown ≠ none) :
    s.completion.isOpen = false := by
  obtain ⟨shown, hsome⟩ := Option.ne_none_iff_exists'.mp hshown
  obtain ⟨r, hequation, -⟩ := h.equation shown hsome
  exact (Preview.equation?_eq_some_iff.mp hequation).1

end ShowsEquation

/-- Once reconsidered, the preview is for the equation at the caret, whatever it was for. -/
theorem showsEquation_updatePreview {setup : Setup} {s : Session}
    (henabled : s.preview.shown ≠ none → setup.config.inlinePreview) :
    ShowsEquation setup (updatePreview setup s).1 := by
  by_cases hsetting : setup.config.inlinePreview
  · refine ⟨fun _ => hsetting, ?_⟩
    rw [updatePreview_buffer, updatePreview_cursor, updatePreview_fst]
    simp only [updatePreview, if_pos hsetting, Preview.update]
    intro shown hshown
    cases hequation : Preview.equation? s.buffer s.cursor s.completion.isOpen with
    | none =>
        rw [hequation] at hshown
        contradiction
    | some r =>
        refine ⟨r, rfl, ?_⟩
        by_cases hsame : s.preview.shown = some (r.content, r.stop)
        · simp only [hequation, if_pos hsame] at hshown
          rw [hsame] at hshown
          exact (Option.some.inj hshown).symm
        · simp only [hequation, if_neg hsame] at hshown
          exact (Option.some.inj hshown).symm
  · rw [updatePreview, if_neg hsetting]
    apply ShowsEquation.of_shown_eq_none
    by_contra hshown
    exact hsetting (henabled hshown)

/-- A popup that opens hides the preview, and one that closes or changes leaves it alone. -/
theorem showsEquation_syncPopup {setup : Setup} {s : Session} (h : ShowsEquation setup s)
    (hsynced : s.popup = PopupView.of? s.completion) (completion : Completion) :
    ShowsEquation setup (syncPopup { s with completion := completion }).1 := by
  rcases syncPopup_cases { s with completion := completion } with
    ⟨hview, hsync⟩ | ⟨hview, hsync⟩ | ⟨shown, q, -, -, -, hsync⟩
  · have hopen : completion.isOpen = s.completion.isOpen := by
      rw [← PopupView.isSome_of?, ← PopupView.isSome_of?, ← hsynced]
      exact congrArg Option.isSome hview
    rw [hsync]
    exact h.of_eq rfl rfl hopen rfl
  · have hclosed : completion.isOpen = false := by
      rw [← PopupView.isSome_of?]
      exact congrArg Option.isSome hview
    rw [hsync]
    refine ⟨h.enabled, fun shown hshown => ?_⟩
    have hearlier : s.completion.isOpen = false :=
      h.isOpen_eq_false (by rw [show s.preview.shown = some shown from hshown]; simp)
    show ∃ r, Preview.equation? s.buffer s.cursor completion.isOpen = some r ∧ _
    rw [hclosed, ← hearlier]
    exact h.equation shown hshown
  · rw [hsync]
    exact .of_shown_eq_none rfl

/-- Every event leaves the preview with the equation at the caret. -/
theorem showsEquation_hear {setup : Setup} {s : Session} (h : ShowsEquation setup s)
    (hsynced : s.popup = PopupView.of? s.completion) (event : Event) :
    ShowsEquation setup (hear setup event s).1 := by
  have hanswer := answer_hear setup event s
  generalize hear setup event s = answer at hanswer
  cases hanswer with
  | follow buffer cursor selection generation quiet hevent hquiet =>
      let moved : Session := { s with buffer := buffer, cursor := cursor, selection := none }
      -- The popup comes first, and may only have hidden the preview so far.
      have henabled : (updateCompletion setup moved).1.preview.shown ≠ none →
          setup.config.inlinePreview := by
        rcases syncPopup_cases { moved with
            completion := moved.completion.update setup.sources moved.currentQuery? } with
          ⟨-, hsync⟩ | ⟨-, hsync⟩ | ⟨shown, q, -, -, -, hsync⟩
        · rw [updateCompletion, hsync]
          exact h.enabled
        · rw [updateCompletion, hsync]
          exact h.enabled
        · rw [updateCompletion, hsync]
          exact fun hshown => absurd rfl hshown
      exact (showsEquation_updatePreview henabled).of_eq rfl rfl rfl rfl
  | popup completion quiet hevent hquiet => exact showsEquation_syncPopup h hsynced completion
  | quiet selection quiet hevent hquiet => exact h.of_eq rfl rfl rfl rfl
  | repaint generation => exact h
  | rendered reply =>
      cases reply with
      | brackets content result => exact h.of_eq rfl rfl rfl rfl
      | preview ticket result =>
          refine h.of_eq rfl rfl rfl ?_
          rcases rendered_preview_cases ticket result s with ⟨-, hrendered⟩ | ⟨-, hrendered⟩ <;>
            rw [hrendered]
  | close hevent => exact .of_shown_eq_none rfl

theorem showsEquation_after (setup : Setup) (events : List Event) :
    ShowsEquation setup (after setup events) := by
  induction events using List.reverseRecOn with
  | nil => exact .of_shown_eq_none rfl
  | append_singleton events event ih =>
      rw [after_concat]
      exact showsEquation_hear ih (inStep_after setup events).synced event

/-! ### What is shown -/

theorem anchor?_syncPopup (s : Session) : ∀ e ∈ (syncPopup s).2, e.anchor? = none := by
  have hhide : ∀ e ∈ s.preview.hideEffects, e.anchor? = none := by
    intro e hmem
    rw [Preview.eq_of_mem_hideEffects hmem]
    rfl
  rcases syncPopup_cases s with ⟨-, h⟩ | ⟨-, h⟩ | ⟨shown, q, -, -, -, h⟩
  · rw [h]
    simp
  · rw [h]
    simp [Effect.anchor?]
  · rw [h]
    intro e hmem
    rcases List.mem_append.mp hmem with hmem | hmem
    · exact hhide e hmem
    · simp only [List.mem_cons, List.not_mem_nil, or_false] at hmem
      rcases hmem with rfl | rfl | rfl <;> rfl

theorem anchor?_updatePreview (setup : Setup) (s : Session) :
    ∀ e ∈ (updatePreview setup s).2, e.anchor? = none := by
  rcases updatePreview_cases setup s with h | h | ⟨r, -, h⟩
  · rw [h]
    simp
  · rw [h]
    intro e hmem
    rw [Preview.eq_of_mem_hideEffects hmem]
    rfl
  · rw [h]
    simp [Effect.anchor?]

theorem anchor?_refresh (setup : Setup) (s : Session) :
    ∀ e ∈ (refresh setup s).2, e.anchor? = none := by
  intro e hmem
  rcases List.mem_append.mp hmem with hmem | hmem
  · exact anchor?_syncPopup _ e hmem
  · rcases List.mem_append.mp hmem with hmem | hmem
    · exact anchor?_updatePreview setup _ e hmem
    · exact (refreshBrackets_onBrackets _ e hmem).anchor?_eq_none

/-- Only the answer to the ticket that is waited for shows a preview. -/
theorem exists_of_shown {setup : Setup} {s : Session} {event : Event} {e : Effect}
    {anchor : Position} (hmem : e ∈ (hear setup event s).2) (hshown : e.anchor? = some anchor) :
    ∃ ticket result, event = .rendered (.preview ticket result) ∧
      s.preview.pending = some ticket ∧ s.preview.anchor? = some anchor ∧
        e = showPreview anchor result := by
  have hnone : e.anchor? ≠ none := by
    rw [hshown]
    exact Option.some_ne_none anchor
  have hanswer := answer_hear setup event s
  generalize hear setup event s = answer at hanswer hmem
  cases hanswer with
  | follow buffer cursor selection generation quiet hevent hquiet =>
      rcases List.mem_append.mp hmem with hmem | hmem
      · exact absurd (anchor?_refresh setup _ e hmem) hnone
      · exact absurd (Effect.anchor?_of_isSilent (hquiet e hmem)) hnone
  | popup completion quiet hevent hquiet =>
      rcases List.mem_append.mp hmem with hmem | hmem
      · exact absurd (Effect.anchor?_of_isSilent (hquiet e hmem)) hnone
      · exact absurd (anchor?_syncPopup _ e hmem) hnone
  | quiet selection quiet hevent hquiet =>
      exact absurd (Effect.anchor?_of_isSilent (hquiet e hmem)) hnone
  | repaint generation => exact absurd (paintEffects_onBrackets s e hmem).anchor?_eq_none hnone
  | rendered reply =>
      cases reply with
      | brackets content result =>
          exact absurd (rendered_brackets_onBrackets content result s e hmem).anchor?_eq_none hnone
      | preview ticket result =>
          rcases rendered_preview_cases ticket result s with
            ⟨-, hrendered⟩ | ⟨hpending, hrendered⟩
          · rw [hrendered] at hmem
            contradiction
          · rw [hrendered] at hmem
            obtain ⟨place, hplace, rfl⟩ := List.mem_map.mp hmem
            obtain rfl : place = anchor := by
              cases result <;> exact Option.some.inj hshown
            exact ⟨ticket, result, rfl, hpending, Option.mem_toList.mp hplace, rfl⟩
  | close hevent =>
      simp only [close, List.mem_cons, List.not_mem_nil, or_false] at hmem
      rcases hmem with rfl | rfl | rfl <;> contradiction

/-- After every run the popup on the screen is that of the session. -/
theorem popup_screenAfter (setup : Setup) (events : List Event) :
    (screenAfter setup events).popup = PopupView.of? (after setup events).completion := by
  have hstep := inStep_after setup events
  rw [← hstep.synced]
  exact hstep.popup

/-- **No superseded preview is ever shown.**  In every run, whatever is shown as a preview or as
its diagnostics is the answer to the last preview asked for; at that moment the caret is in an
inline equation with the source of that request, below whose end it is shown, in no display
equation and not in code, and no popup is open. -/
theorem shown_preview_is_latest (setup : Setup) (events : List Event) (event : Event)
    (e : Effect) (anchor : Position) (hmem : e ∈ (hear setup event (after setup events)).2)
    (hshown : e.anchor? = some anchor) :
    let s := after setup events
    ∃ request result region,
      event = .rendered (.preview request.ticket result) ∧ e = showPreview anchor result ∧
        latestPreview? (Effect.requests (emitted setup events)) = some request ∧
        Region.inlineAt? s.buffer s.cursor = some region ∧
        region.content = request.source ∧ region.stop = anchor ∧
        Region.displayAt? s.buffer s.cursor = none ∧
        CodeContext.inCode s.buffer s.cursor = false ∧
        s.completion = .idle ∧ (screenAfter setup events).popup = none := by
  intro s
  obtain ⟨ticket, result, rfl, hpending, hanchor, he⟩ := exists_of_shown hmem hshown
  have htracks := tracksLatest_after setup events
  have hequation := showsEquation_after setup events
  obtain ⟨source, hsome⟩ : ∃ source, s.preview.shown = some (source, anchor) := by
    obtain ⟨⟨source, place⟩, hplace, rfl⟩ := Option.map_eq_some_iff.mp hanchor
    exact ⟨source, hplace⟩
  obtain ⟨request, hlatest, hticket, hsource⟩ := htracks.shown source anchor hsome
  obtain ⟨region, hregion, hsame⟩ := hequation.equation (source, anchor) hsome
  obtain ⟨hclosed, hcode, hdisplay, hinline⟩ := Preview.equation?_eq_some_iff.mp hregion
  obtain ⟨rfl, rfl⟩ := Prod.mk.inj hsame
  have hsent : ticket = request.ticket := (htracks.pending ticket hpending).1.trans hticket.symm
  have hidle : s.completion = .idle := Completion.eq_idle_of_isOpen_eq_false hclosed
  have hpopup : (screenAfter setup events).popup = none := by
    rw [popup_screenAfter, show (after setup events).completion = .idle from hidle]
    rfl
  exact ⟨request, result, region, by rw [hsent], he, hlatest, hinline, hsource.symm, rfl,
    hdisplay, hcode, hidle, hpopup⟩

/-- The answer to the preview of a ticket. -/
def previewAnswer (ticket : Nat) : Event :=
  .rendered (.preview ticket (.ok ⟨"svg".toList, []⟩))

/-- Both previews of a region that moved are answered.  The older answer is dropped, and the
newer one is shown below the equation where it is now. -/
theorem newer_preview_shown :
    let s := after plainSetup askTwice
    (hear plainSetup (previewAnswer 1) s).2 = [] ∧
      Effect.showPreview ⟨0, 6⟩ "svg".toList ∈ (hear plainSetup (previewAnswer 2) s).2 ∧
      ∃ request region,
        latestPreview? (Effect.requests (emitted plainSetup askTwice)) = some request ∧
          request.ticket = 2 ∧ Region.inlineAt? s.buffer s.cursor = some region ∧
          region.content = request.source ∧ region.stop = ⟨0, 6⟩ := by
  have hdropped : (hear plainSetup (previewAnswer 1) (after plainSetup askTwice)).2 = [] := by
    decide +kernel
  have hmem : Effect.showPreview ⟨0, 6⟩ "svg".toList ∈
      (hear plainSetup (previewAnswer 2) (after plainSetup askTwice)).2 := by
    decide +kernel
  have hlatest := shown_preview_is_latest plainSetup askTwice (previewAnswer 2)
    (.showPreview ⟨0, 6⟩ "svg".toList) ⟨0, 6⟩ hmem rfl
  obtain ⟨request, result, region, hevent, hlatest⟩ := hlatest
  have hticket : 2 = request.ticket := (RenderReply.preview.inj (Event.rendered.inj hevent)).1
  exact ⟨hdropped, hmem, request, region, hlatest.2.1, hticket.symm, hlatest.2.2.1,
    hlatest.2.2.2.1, hlatest.2.2.2.2.1⟩

end Session

end MathTyping
