import MathTyping.Proofs.Region.Gaps
import MathTyping.Proofs.Session.LatestPreview

/-!
# Requests that are needed

Every report of the document, the caret or the selection goes through the popup, the preview
and the bracket cache, and the last two may ask a renderer.  What they have is kept by some of
these reports and dropped by others.

What a request says of the session around it is read off once, for pairs (`asks_pairs`) and for
a preview (`asks_preview`): its answer was missing, and is waited for afterwards.  What is waited
for then stays, as long as the caret stays in a region of that content (`pairs_after`) or the
preview is not hidden (`keepsShown_hear`).  So the same request comes again only after a reason
for it.
-/

namespace MathTyping

/-- The content whose pairs a request asks for, if it asks for pairs. -/
def RenderRequest.content? : RenderRequest → Option Text
  | .brackets content => some content
  | .preview _ => none

namespace Effect

/-- The contents whose pairs some effects ask for, in order. -/
def contents (effects : List Effect) : List Text :=
  (requests effects).filterMap RenderRequest.content?

/-- The previews that some effects ask for, in order. -/
def previews (effects : List Effect) : List PreviewRequest :=
  (requests effects).filterMap RenderRequest.preview?

@[simp] theorem contents_append (effects more : List Effect) :
    contents (effects ++ more) = contents effects ++ contents more := by
  rw [contents, requests_append, List.filterMap_append]
  rfl

@[simp] theorem previews_append (effects more : List Effect) :
    previews (effects ++ more) = previews effects ++ previews more := by
  rw [previews, requests_append, List.filterMap_append]
  rfl

variable {effects : List Effect}

theorem contents_eq_nil (h : requests effects = []) : contents effects = [] := by
  rw [contents, h]
  rfl

theorem previews_eq_nil (h : requests effects = []) : previews effects = [] := by
  rw [previews, h]
  rfl

theorem requests_eq_nil_of (hcontents : contents effects = []) (hpreviews : previews effects = []) :
    requests effects = [] := by
  rw [contents, List.filterMap_eq_nil_iff] at hcontents
  rw [previews, List.filterMap_eq_nil_iff] at hpreviews
  refine List.eq_nil_iff_forall_not_mem.mpr fun request hmem => ?_
  cases request with
  | brackets content => exact absurd (hcontents _ hmem) (Option.some_ne_none content)
  | preview q => exact absurd (hpreviews _ hmem) (Option.some_ne_none q)

theorem contents_onPanes (hpanes : ∀ e ∈ effects, e.OnPanes) : contents effects = [] := by
  rw [contents, List.filterMap_eq_nil_iff]
  intro request hmem
  obtain ⟨e, he, hrequest⟩ := List.mem_filterMap.mp hmem
  cases request with
  | preview q => rfl
  | brackets content =>
      have hpane := hpanes e he
      cases e with
      | request r =>
          obtain rfl : r = .brackets content := Option.some.inj hrequest
          exact hpane.elim
      | _ => contradiction

theorem previews_onBrackets (hbrackets : ∀ e ∈ effects, e.OnBrackets) : previews effects = [] := by
  rw [previews, List.filterMap_eq_nil_iff]
  intro request hmem
  obtain ⟨e, he, hrequest⟩ := List.mem_filterMap.mp hmem
  cases request with
  | brackets content => rfl
  | preview q => exact absurd hrequest ((hbrackets e he).request?_ne_preview q)

end Effect

namespace Session

open Effect (contents previews)

variable {setup : Setup} {s : Session} {event : Event} {content : Text}

/-! ### What a request for pairs says -/

/-- A region of the cached content keeps the pairs, and asks for them only if there are none. -/
theorem refreshBrackets_of_holds {r : Region} (hloc : Region.locate? s.buffer s.cursor = some r)
    (hholds : s.brackets.holds r.content) :
    (refreshBrackets s).1.brackets = ⟨some r, s.brackets.pairs⟩ ∧
      (s.brackets.pairs.isSome → contents (refreshBrackets s).2 = []) := by
  have hpaint : ∀ t : Session, contents t.paintEffects = [] := fun t =>
    Effect.contents_eq_nil (requests_paintEffects t)
  simp only [refreshBrackets, BracketCache.refresh, hloc]
  by_cases hsame : s.brackets.region = some r
  · rw [if_pos hsame, ← hsame]
    exact ⟨rfl, fun _ => hpaint _⟩
  · rw [if_neg hsame]
    cases hpairs : s.brackets.pairs with
    | none => simp
    | some pairs =>
        rw [if_pos ⟨hholds, rfl⟩]
        exact ⟨rfl, fun _ => hpaint _⟩

/-- Following the region asks for the pairs of the region at the caret, unless they are cached. -/
theorem asks_refreshBrackets (hmem : content ∈ contents (refreshBrackets s).2) :
    ∃ r, Region.locate? s.buffer s.cursor = some r ∧ r.content = content ∧
      contents (refreshBrackets s).2 = [content] ∧
      (refreshBrackets s).1.brackets = ⟨some r, none⟩ ∧
      (s.brackets.holds content → s.brackets.pairs = none) := by
  have hpaint : ∀ t : Session, contents t.paintEffects = [] := fun t =>
    Effect.contents_eq_nil (requests_paintEffects t)
  rcases refreshBrackets_cases s with ⟨-, h⟩ | ⟨-, h⟩ | ⟨r, pairs, -, -, -, h⟩ | ⟨r, hloc, h⟩
  · rw [h, hpaint] at hmem
    contradiction
  · rw [h] at hmem
    contradiction
  · rw [h, hpaint] at hmem
    contradiction
  · have hone : contents (refreshBrackets s).2 = [r.content] := by
      rw [h]
      rfl
    obtain rfl : content = r.content := by
      rw [hone] at hmem
      exact List.mem_singleton.mp hmem
    refine ⟨r, hloc, rfl, hone, by rw [h], fun hholds => ?_⟩
    by_contra hpairs
    rw [(refreshBrackets_of_holds hloc hholds).2 (Option.isSome_iff_ne_none.mpr hpairs)] at hone
    contradiction

/-- Only following the region asks for pairs. -/
theorem contents_hear (setup : Setup) (event : Event) (s : Session) :
    contents (hear setup event s).2 = [] ∨
      event.isReport ∧ ∃ t : Session, t.brackets = s.brackets ∧
        t.buffer = (hear setup event s).1.buffer ∧ t.cursor = (hear setup event s).1.cursor ∧
        (hear setup event s).1.brackets = (refreshBrackets t).1.brackets ∧
        contents (hear setup event s).2 = contents (refreshBrackets t).2 := by
  have hanswer := answer_hear setup event s
  generalize hear setup event s = answer at hanswer
  cases hanswer with
  | follow buffer cursor selection generation quiet hevent hquiet hasks =>
      obtain ⟨t, effects, -, -, hbrackets, hpanes, hfollow⟩ :=
        refresh_cases setup { s with buffer := buffer, cursor := cursor, selection := none }
      refine Or.inr ⟨hevent, t, hbrackets, ?_⟩
      rw [hfollow]
      dsimp only
      rw [Effect.contents_append, Effect.contents_append, Effect.contents_onPanes hpanes,
        Effect.contents_eq_nil hasks, List.append_nil, List.nil_append]
      exact ⟨rfl, rfl, rfl, rfl⟩
  | popup completion quiet hevent hquiet hasks =>
      left
      apply Effect.contents_eq_nil
      rw [Effect.requests_append, hasks, requests_syncPopup, List.nil_append]
  | quiet selection quiet hevent hquiet hasks => exact Or.inl (Effect.contents_eq_nil hasks)
  | repaint generation => exact Or.inl (Effect.contents_eq_nil (requests_paintEffects s))
  | rendered reply => exact Or.inl (Effect.contents_eq_nil (requests_rendered reply s))
  | close hevent => exact Or.inl rfl

/-- An event that asks for the pairs of a content leaves the caret in a region of it, and no pairs
cached; nor were any cached for the content before. -/
theorem asks_pairs (hmem : content ∈ contents (hear setup event s).2) :
    ∃ r, Region.locate? (hear setup event s).1.buffer (hear setup event s).1.cursor = some r ∧
      r.content = content ∧ (hear setup event s).1.brackets = ⟨some r, none⟩ ∧
      (s.brackets.holds content → s.brackets.pairs = none) := by
  rcases contents_hear setup event s with
    hnone | ⟨-, t, hbrackets, hbuffer, hcursor, hlater, hsame⟩
  · rw [hnone] at hmem
    contradiction
  · rw [hsame] at hmem
    obtain ⟨r, hloc, hcontent, -, hcache, hneeded⟩ := asks_refreshBrackets hmem
    rw [hbuffer, hcursor] at hloc
    rw [hbrackets] at hneeded
    exact ⟨r, hloc, hcontent, hlater.trans hcache, hneeded⟩

/-! ### What becomes of the pairs -/

/-- The result that an event brings for a content, if it is an answer for it. -/
def resultFor? (content : Text) : Event → Option (Rendered (List BracketPair))
  | .rendered (.brackets other result) => if other = content then some result else none
  | _ => none

/-- The results of the answers for a content among some events, oldest first. -/
def resultsFor (content : Text) (events : List Event) : List (Rendered (List BracketPair)) :=
  events.filterMap (resultFor? content)

/-- The pairs that the last answer for a content has brought: none before the first answer, and
none after a failure. -/
def lastPairs? (content : Text) (events : List Event) : Option (List BracketPair) :=
  (resultsFor content events).getLast?.bind Except.toOption

theorem lastPairs?_concat (content : Text) (events : List Event) (event : Event) :
    lastPairs? content (events ++ [event]) =
      match resultFor? content event with
      | some result => result.toOption
      | none => lastPairs? content events := by
  rw [lastPairs?, resultsFor, List.filterMap_append]
  cases hresult : resultFor? content event with
  | none =>
      rw [List.filterMap_cons_none hresult, List.filterMap_nil, List.append_nil]
      rfl
  | some result =>
      rw [List.filterMap_cons_some hresult, List.filterMap_nil, List.getLast?_concat]
      rfl

theorem lastPairs?_eq_none_iff {events : List Event} :
    lastPairs? content events = none ↔
      ∀ pairs, (resultsFor content events).getLast? ≠ some (.ok pairs) := by
  rw [lastPairs?]
  cases (resultsFor content events).getLast? with
  | none => simp
  | some result => cases result <;> simp [Except.toOption]

/-- The caret is in a region of a content. -/
def InContent (content : Text) (s : Session) : Prop :=
  ∃ r, Region.locate? s.buffer s.cursor = some r ∧ r.content = content

/-- Between two places in regions of one content only an answer changes the pairs. -/
theorem pairs_hear (hholds : s.brackets.holds content) (hevent : event.isTeardown = false)
    (hlater : InContent content (hear setup event s).1) :
    (hear setup event s).1.brackets.holds content ∧
      (hear setup event s).1.brackets.pairs =
        match resultFor? content event with
        | some result => result.toOption
        | none => s.brackets.pairs := by
  have hanswer := answer_hear setup event s
  generalize hear setup event s = answer at hanswer hlater
  cases hanswer with
  | follow buffer cursor selection generation quiet hreport =>
      have hnone : resultFor? content event = none := by
        cases event <;> first | rfl | contradiction
      obtain ⟨t, effects, hbuffer, hcursor, hbrackets, -, hfollow⟩ :=
        refresh_cases setup { s with buffer := buffer, cursor := cursor, selection := none }
      rw [hnone]
      rw [hfollow] at hlater ⊢
      obtain ⟨r, hloc, rfl⟩ := hlater
      have hcache : t.brackets = s.brackets := hbrackets
      obtain ⟨hkept, -⟩ := refreshBrackets_of_holds (s := t) hloc (by rwa [hcache])
      dsimp only
      rw [hkept, hcache]
      exact ⟨(BracketCache.holds_iff rfl).mpr rfl, rfl⟩
  | popup completion quiet hinput =>
      have hnone : resultFor? content event = none := by
        cases event <;> first | rfl | contradiction
      rw [hnone, syncPopup_brackets]
      exact ⟨hholds, rfl⟩
  | quiet selection quiet hinput =>
      have hnone : resultFor? content event = none := by
        cases event <;> first | rfl | contradiction
      rw [hnone]
      exact ⟨hholds, rfl⟩
  | repaint generation => exact ⟨hholds, rfl⟩
  | rendered reply =>
      cases reply with
      | preview ticket result =>
          rw [rendered_preview_fst]
          exact ⟨hholds, rfl⟩
      | brackets other result =>
          obtain ⟨r, hregion, hcontent⟩ := BracketCache.exists_of_holds hholds
          rw [resultFor?]
          rcases rendered_brackets_cases other result s with
            ⟨hother, h⟩ | ⟨pairs, hother, rfl, h⟩ | ⟨diagnostics, hother, rfl, h⟩
          · have hne : other ≠ content := by
              rintro rfl
              rw [hholds] at hother
              contradiction
            rw [h, if_neg hne]
            exact ⟨hholds, rfl⟩
          · rw [h, if_pos (((BracketCache.holds_iff hregion).mp hother).symm.trans hcontent)]
            exact ⟨(BracketCache.holds_iff hregion).mpr hcontent, rfl⟩
          · rw [h, if_pos (((BracketCache.holds_iff hregion).mp hother).symm.trans hcontent)]
            exact ⟨(BracketCache.holds_iff hregion).mpr hcontent, rfl⟩
  | close hteardown =>
      rw [hteardown] at hevent
      contradiction

/-- While the caret stays in regions of one content, its pairs are those of its last answer. -/
theorem pairs_after {earlier between : List Event}
    (hholds : (after setup earlier).brackets.holds content)
    (hnone : (after setup earlier).brackets.pairs = none)
    (hquiet : ∀ e ∈ between, e.isTeardown = false)
    (hstays : ∀ passed, passed <+: between → InContent content (after setup (earlier ++ passed))) :
    (after setup (earlier ++ between)).brackets.holds content ∧
      (after setup (earlier ++ between)).brackets.pairs = lastPairs? content between := by
  induction between using List.reverseRecOn with
  | nil =>
      rw [List.append_nil]
      exact ⟨hholds, hnone⟩
  | append_singleton between event ih =>
      obtain ⟨hheld, hpairs⟩ := ih (fun e hmem => hquiet e (List.mem_append_left _ hmem))
        fun passed hpassed => hstays passed (hpassed.trans (List.prefix_append between [event]))
      have hlater := hstays (between ++ [event]) (List.prefix_refl _)
      have hevent := hquiet event (List.mem_append_right _ (List.mem_singleton_self event))
      rw [← List.append_assoc, after_concat] at hlater ⊢
      rw [lastPairs?_concat, ← hpairs]
      exact pairs_hear hheld hevent hlater

/-- Pairs are asked for again only if the caret was elsewhere or the session taken down in
between, or if there are none: no answer has come, or the last one was a failure. -/
theorem pairs_asked_again {first between : List Event} {e₁ e₂ : Event}
    (hfirst : content ∈ contents (hear setup e₁ (after setup first)).2)
    (hagain : content ∈ contents (hear setup e₂ (after setup (first ++ [e₁] ++ between))).2) :
    (∃ passed, passed <+: between ∧ ¬ InContent content (after setup (first ++ [e₁] ++ passed))) ∨
    (∃ e ∈ between, e.isTeardown) ∨
    ((after setup (first ++ [e₁] ++ between)).brackets.pairs = none ∧
      ∀ pairs, (resultsFor content between).getLast? ≠ some (.ok pairs)) := by
  by_cases hleft :
      ∃ passed, passed <+: between ∧ ¬ InContent content (after setup (first ++ [e₁] ++ passed))
  · exact Or.inl hleft
  · by_cases hdown : ∃ e ∈ between, e.isTeardown
    · exact Or.inr (Or.inl hdown)
    · obtain ⟨r, -, hcontent, hcache, -⟩ := asks_pairs hfirst
      obtain ⟨-, -, -, -, hneeded⟩ := asks_pairs hagain
      rw [← after_concat] at hcache
      have hkept : (after setup (first ++ [e₁] ++ between)).brackets.holds content ∧
          (after setup (first ++ [e₁] ++ between)).brackets.pairs = lastPairs? content between := by
        refine pairs_after ?_ (congrArg BracketCache.pairs hcache) ?_ ?_
        · exact (BracketCache.holds_iff (congrArg BracketCache.region hcache)).mpr hcontent
        · exact fun e hmem => Bool.eq_false_iff.mpr fun h => hdown ⟨e, hmem, h⟩
        · exact fun passed hpassed => not_not.mp fun h => hleft ⟨passed, hpassed, h⟩
      obtain ⟨hheld, hpairs⟩ := hkept
      have hnone := hneeded hheld
      exact Or.inr (Or.inr ⟨hnone, lastPairs?_eq_none_iff.mp (hpairs ▸ hnone)⟩)

/-! ### What a request for a preview says -/

theorem asks_updatePreview {q : PreviewRequest}
    (hmem : q ∈ previews (updatePreview setup s).2) :
    s.completion.isOpen = false ∧ previews (updatePreview setup s).2 = [q] ∧
      ∃ stop, (updatePreview setup s).1.preview.shown = some (q.source, stop) ∧
        s.preview.shown ≠ some (q.source, stop) := by
  by_cases henabled : setup.config.inlinePreview
  · simp only [updatePreview, if_pos henabled, Preview.update] at hmem ⊢
    cases hequation : Preview.equation? s.buffer s.cursor s.completion.isOpen with
    | none =>
        simp only [hequation, Preview.hide] at hmem
        cases hshown : s.preview.shown <;> simp [hshown, previews, Effect.requests,
          Effect.request?] at hmem
    | some r =>
        by_cases hsame : s.preview.shown = some (r.content, r.stop)
        · simp only [hequation, if_pos hsame] at hmem
          contradiction
        · simp only [hequation, if_neg hsame] at hmem ⊢
          obtain rfl := List.mem_singleton.mp hmem
          exact ⟨(Preview.equation?_eq_some_iff.mp hequation).1, rfl, r.stop, rfl, hsame⟩
  · rw [updatePreview, if_neg henabled] at hmem
    contradiction

/-- The popup goes first, and a preview that is asked for then was not touched by it. -/
theorem asks_refresh {q : PreviewRequest} (hmem : q ∈ previews (refresh setup s).2) :
    previews (refresh setup s).2 = [q] ∧
      ∃ stop, (refresh setup s).1.preview.shown = some (q.source, stop) ∧
        s.preview.shown ≠ some (q.source, stop) := by
  let opened := updateCompletion setup s
  have hopened : previews opened.2 = [] := Effect.previews_eq_nil (requests_syncPopup _)
  have heffects : previews (refresh setup s).2 = previews (updatePreview setup opened.1).2 := by
    show previews (opened.2 ++ ((updatePreview setup opened.1).2 ++
      (refreshBrackets (updatePreview setup opened.1).1).2)) = _
    rw [Effect.previews_append, Effect.previews_append, hopened,
      Effect.previews_onBrackets (refreshBrackets_onBrackets _), List.nil_append, List.append_nil]
  rw [heffects] at hmem ⊢
  obtain ⟨hclosed, hone, stop, hshown, hnew⟩ := asks_updatePreview hmem
  have hkept : opened.1.preview = s.preview := by
    rcases syncPopup_cases { s with
        completion := s.completion.update setup.sources s.currentQuery? } with
      ⟨-, h⟩ | ⟨-, h⟩ | ⟨shown, query, hview, -, -, h⟩
    · rw [show opened = _ from h]
    · rw [show opened = _ from h]
    · -- Nothing is previewed beside an open popup.
      have hopen : opened.1.completion.isOpen = true := by
        rw [show opened = _ from h, ← PopupView.isSome_of?]
        exact congrArg Option.isSome hview
      rw [hopen] at hclosed
      contradiction
  rw [hkept] at hnew
  exact ⟨hone, stop, hshown, hnew⟩

/-- Only a report asks for a preview, and at most for one: for another equation than the one that
was shown or about to be. -/
theorem asks_preview {q : PreviewRequest} (hmem : q ∈ previews (hear setup event s).2) :
    previews (hear setup event s).2 = [q] ∧
      ∃ stop, (hear setup event s).1.preview.shown = some (q.source, stop) ∧
        s.preview.shown ≠ some (q.source, stop) := by
  have hanswer := answer_hear setup event s
  generalize hear setup event s = answer at hanswer hmem
  cases hanswer with
  | follow buffer cursor selection generation quiet hevent hquiet hasks =>
      rw [Effect.previews_append, Effect.previews_eq_nil hasks, List.append_nil] at hmem ⊢
      exact asks_refresh hmem
  | popup completion quiet hevent hquiet hasks =>
      have hnone : previews (quiet ++ (syncPopup { s with completion := completion }).2) = [] := by
        apply Effect.previews_eq_nil
        rw [Effect.requests_append, hasks, requests_syncPopup, List.nil_append]
      rw [hnone] at hmem
      contradiction
  | quiet selection quiet hevent hquiet hasks =>
      rw [Effect.previews_eq_nil hasks] at hmem
      contradiction
  | repaint generation =>
      rw [Effect.previews_eq_nil (requests_paintEffects s)] at hmem
      contradiction
  | rendered reply =>
      rw [Effect.previews_eq_nil (requests_rendered reply s)] at hmem
      contradiction
  | close hevent => contradiction

/-- A preview that a run asks for is for the inline equation at the caret. -/
theorem asks_preview_after {events : List Event} {q : PreviewRequest}
    (hmem : q ∈ previews (hear setup event (after setup events)).2) :
    let t := after setup (events ++ [event])
    ∃ r, setup.config.inlinePreview ∧ Region.displayAt? t.buffer t.cursor = none ∧
      Region.inlineAt? t.buffer t.cursor = some r ∧ q.source = r.content ∧
      t.preview.shown = some (r.content, r.stop) ∧
      (after setup events).preview.shown ≠ some (r.content, r.stop) := by
  intro t
  obtain ⟨-, stop, hshown, hnew⟩ := asks_preview hmem
  rw [← after_concat] at hshown
  have hequation := showsEquation_after setup (events ++ [event])
  obtain ⟨r, hregion, hsame⟩ := hequation.equation _ hshown
  obtain ⟨-, -, hdisplay, hinline⟩ := Preview.equation?_eq_some_iff.mp hregion
  obtain ⟨hsource, rfl⟩ := Prod.mk.inj hsame
  have henabled := hequation.enabled (by rw [hshown]; exact Option.some_ne_none _)
  rw [hsource] at hshown hnew
  exact ⟨r, henabled, hdisplay, hinline, hsource, hshown, hnew⟩

/-! ### What becomes of a preview -/

/-- Unless it asks for another preview, a step keeps what is shown or about to be, or hides it. -/
def KeepsShown (step : Step) : Prop :=
  ∀ s, previews (step s).2 = [] →
    .hidePreview ∈ (step s).2 ∨ (step s).1.preview.shown = s.preview.shown

theorem KeepsShown.andThen {first second : Step} (hfirst : KeepsShown first)
    (hsecond : KeepsShown second) : KeepsShown (andThen first second) := by
  intro s hnone
  have hboth : previews ((first s).2 ++ (second (first s).1).2) = [] := hnone
  rw [Effect.previews_append, List.append_eq_nil_iff] at hboth
  rcases hfirst s hboth.1 with hhidden | hearlier
  · exact Or.inl (List.mem_append_left _ hhidden)
  · rcases hsecond (first s).1 hboth.2 with hhidden | hlater
    · exact Or.inl (List.mem_append_right _ hhidden)
    · exact Or.inr (hlater.trans hearlier)

/-- Hiding takes effect, or there was nothing to hide. -/
theorem hide_keepsShown (p : Preview) :
    .hidePreview ∈ p.hideEffects ∨ p.hide.1.shown = p.shown := by
  rw [Preview.hideEffects]
  cases hshown : p.shown with
  | none => exact Or.inr rfl
  | some shown => exact Or.inl (List.mem_singleton_self _)

theorem keepsShown_syncPopup : KeepsShown syncPopup := by
  intro s _
  rcases syncPopup_cases s with ⟨-, h⟩ | ⟨-, h⟩ | ⟨shown, q, -, -, -, h⟩
  · rw [h]
    exact Or.inr rfl
  · rw [h]
    exact Or.inr rfl
  · rw [h]
    exact (hide_keepsShown s.preview).imp_left (List.mem_append_left _)

theorem keepsShown_updatePreview (setup : Setup) : KeepsShown (updatePreview setup) := by
  intro s hnone
  rcases updatePreview_cases setup s with h | h | ⟨r, -, h⟩
  · rw [h]
    exact Or.inr rfl
  · rw [h]
    exact hide_keepsShown s.preview
  · rw [h] at hnone
    contradiction

theorem keepsShown_refresh (setup : Setup) : KeepsShown (refresh setup) := by
  have hcompletion : KeepsShown (updateCompletion setup) := fun s => keepsShown_syncPopup _
  have hbrackets : KeepsShown refreshBrackets := fun s _ => Or.inr rfl
  exact hcompletion.andThen ((keepsShown_updatePreview setup).andThen hbrackets)

theorem keepsShown_hear (setup : Setup) (event : Event) : KeepsShown (hear setup event) := by
  intro s hnone
  have hanswer := answer_hear setup event s
  generalize hear setup event s = answer at hanswer hnone
  cases hanswer with
  | follow buffer cursor selection generation quiet =>
      rw [Effect.previews_append, List.append_eq_nil_iff] at hnone
      exact (keepsShown_refresh setup _ hnone.1).imp_left (List.mem_append_left _)
  | popup completion quiet =>
      rw [Effect.previews_append, List.append_eq_nil_iff] at hnone
      exact (keepsShown_syncPopup _ hnone.2).imp_left (List.mem_append_right _)
  | quiet selection quiet => exact Or.inr rfl
  | repaint generation => exact Or.inr rfl
  | rendered reply =>
      right
      cases reply with
      | brackets content result => rfl
      | preview ticket result =>
          rcases rendered_preview_cases ticket result s with ⟨-, h⟩ | ⟨-, h⟩ <;> rw [h]
  | close hevent => exact Or.inl (by simp [close])

theorem keepsShown_run (setup : Setup) (events : List Event) :
    KeepsShown (run (hear setup) events) := by
  induction events with
  | nil => exact fun s _ => Or.inr rfl
  | cons event events ih => exact (keepsShown_hear setup event).andThen ih

/-- A preview that follows another one is for another source or another end of its equation,
unless the first was hidden in between. -/
theorem preview_asked_again {first between : List Event} {e₁ e₂ : Event} {q₁ q₂ : PreviewRequest}
    (hfirst : q₁ ∈ previews (hear setup e₁ (after setup first)).2)
    (hnone : previews (run (hear setup) between (after setup (first ++ [e₁]))).2 = [])
    (hagain : q₂ ∈ previews (hear setup e₂ (after setup (first ++ [e₁] ++ between))).2) :
    let s := after setup (first ++ [e₁])
    let t := after setup (first ++ [e₁] ++ between ++ [e₂])
    ∃ r₁ r₂, Region.inlineAt? s.buffer s.cursor = some r₁ ∧ r₁.content = q₁.source ∧
      Region.inlineAt? t.buffer t.cursor = some r₂ ∧ r₂.content = q₂.source ∧
      (q₁.source ≠ q₂.source ∨ r₁.stop ≠ r₂.stop ∨
        .hidePreview ∈ (run (hear setup) between s).2) := by
  intro s t
  obtain ⟨r₁, -, -, hinline, hsource, hshown, -⟩ := asks_preview_after hfirst
  obtain ⟨r₂, -, -, hlast, hlater, -, hnew⟩ := asks_preview_after hagain
  refine ⟨r₁, r₂, hinline, hsource.symm, hlast, hlater.symm, ?_⟩
  have hrun : after setup (first ++ [e₁] ++ between) = (run (hear setup) between s).1 := by
    rw [after, run_append]
    rfl
  rcases keepsShown_run setup between s hnone with hhidden | hkept
  · exact Or.inr (Or.inr hhidden)
  · by_cases hsame : q₁.source = q₂.source
    · refine Or.inr (Or.inl fun hstop => hnew ?_)
      rw [hrun, hkept, show s.preview.shown = _ from hshown, ← hsource, hsame, hlater, hstop]
    · exact Or.inl hsame

/-! ### Requests that a run makes -/

/-- An event asks for the pairs of at most one content, and for at most one preview. -/
theorem asks_at_most_once (setup : Setup) (event : Event) (s : Session) :
    (contents (hear setup event s).2).length ≤ 1 ∧
      (previews (hear setup event s).2).length ≤ 1 := by
  constructor
  · rcases contents_hear setup event s with hnone | ⟨-, t, -, -, -, -, hsame⟩
    · rw [hnone]
      exact Nat.zero_le 1
    · rw [hsame]
      cases hcontents : contents (refreshBrackets t).2 with
      | nil => exact Nat.zero_le 1
      | cons content rest =>
          obtain ⟨r, -, -, hone, -⟩ := asks_refreshBrackets
            (show content ∈ contents (refreshBrackets t).2 by rw [hcontents]; simp)
          rw [← hcontents, hone]
          exact Nat.le_refl 1
  · cases hpreviews : previews (hear setup event s).2 with
    | nil => exact Nat.zero_le 1
    | cons q rest =>
        obtain ⟨hone, -⟩ := asks_preview
          (show q ∈ previews (hear setup event s).2 by rw [hpreviews]; simp)
        rw [← hpreviews, hone]
        exact Nat.le_refl 1

/-- Cached pairs belong to the region at the caret. -/
theorem region_of_pairs {events : List Event}
    (hpairs : (after setup events).brackets.pairs.isSome) :
    (after setup events).brackets.region =
      Region.locate? (after setup events).buffer (after setup events).cursor := by
  have hregion := region_after setup events
  have hsome := (marked_after setup events hpairs).1
  cases hdown : tornDown events with
  | false => simpa [hdown] using hregion
  | true =>
      rw [hdown, if_pos rfl] at hregion
      rw [hregion] at hsome
      contradiction

/-- An event that leaves the caret in the same region asks for nothing, if the pairs are cached
and the preview of inline math is shown or about to be. -/
theorem requests_of_same_region {events : List Event} {region : Region}
    (hhere : Region.locate? (after setup events).buffer (after setup events).cursor = some region)
    (hthere : Region.locate? (after setup (events ++ [event])).buffer
      (after setup (events ++ [event])).cursor = some region)
    (hpairs : (after setup events).brackets.pairs.isSome)
    (hpreview : region.kind = .inline → setup.config.inlinePreview →
      (after setup events).preview.shown = some (region.content, region.stop)) :
    Effect.requests (hear setup event (after setup events)).2 = [] := by
  refine Effect.requests_eq_nil_of ?_ ?_
  · refine List.eq_nil_iff_forall_not_mem.mpr fun content hmem => ?_
    obtain ⟨r, hloc, hcontent, -, hneeded⟩ := asks_pairs hmem
    rw [← after_concat, hthere] at hloc
    obtain rfl := Option.some.inj hloc
    have hholds := (BracketCache.holds_iff ((region_of_pairs hpairs).trans hhere)).mpr hcontent
    rw [hneeded hholds] at hpairs
    contradiction
  · refine List.eq_nil_iff_forall_not_mem.mpr fun q hmem => ?_
    obtain ⟨r, henabled, hdisplay, hinline, -, -, hnew⟩ := asks_preview_after hmem
    have hloc : Region.locate? (after setup (events ++ [event])).buffer
        (after setup (events ++ [event])).cursor = some r := by
      rw [Region.locate?, hdisplay, Option.none_or, hinline]
    obtain rfl : region = r := Option.some.inj (hthere.symm.trans hloc)
    exact hnew (hpreview (Region.kind_of_inlineAt? hinline) henabled)

/-- **Renders are asked for only when they are needed.**  An event asks for each kind at most
once.  In every run the pairs of a content are asked for again only if in between the caret was
in no region or one of another content, or the session was taken down, or if no pairs are cached
because no answer came or the last one was a failure.  A preview that follows another one
differs in its source or in the end of its equation, unless the first was hidden in between.  An
event after which the caret is in the region where it was, with the pairs cached and the preview
of inline math shown or about to be, asks for nothing. -/
theorem requests_only_when_needed (setup : Setup) :
    (∀ event s, (contents (hear setup event s).2).length ≤ 1 ∧
      (previews (hear setup event s).2).length ≤ 1) ∧
    (∀ first e₁ between e₂ content,
      content ∈ contents (hear setup e₁ (after setup first)).2 →
      content ∈ contents (hear setup e₂ (after setup (first ++ [e₁] ++ between))).2 →
        (∃ passed, passed <+: between ∧
          ¬ InContent content (after setup (first ++ [e₁] ++ passed))) ∨
        (∃ e ∈ between, e.isTeardown) ∨
        ((after setup (first ++ [e₁] ++ between)).brackets.pairs = none ∧
          ∀ pairs, (resultsFor content between).getLast? ≠ some (.ok pairs))) ∧
    (∀ first e₁ between e₂ q₁ q₂,
      let s := after setup (first ++ [e₁])
      let t := after setup (first ++ [e₁] ++ between ++ [e₂])
      q₁ ∈ previews (hear setup e₁ (after setup first)).2 →
      previews (run (hear setup) between s).2 = [] →
      q₂ ∈ previews (hear setup e₂ (after setup (first ++ [e₁] ++ between))).2 →
        ∃ r₁ r₂, Region.inlineAt? s.buffer s.cursor = some r₁ ∧ r₁.content = q₁.source ∧
          Region.inlineAt? t.buffer t.cursor = some r₂ ∧ r₂.content = q₂.source ∧
          (q₁.source ≠ q₂.source ∨ r₁.stop ≠ r₂.stop ∨
            .hidePreview ∈ (run (hear setup) between s).2)) ∧
    ∀ events event region,
      let s := after setup events
      let t := after setup (events ++ [event])
      Region.locate? s.buffer s.cursor = some region →
      Region.locate? t.buffer t.cursor = some region →
      s.brackets.pairs.isSome →
      (region.kind = .inline → setup.config.inlinePreview →
        s.preview.shown = some (region.content, region.stop)) →
        Effect.requests (hear setup event s).2 = [] :=
  ⟨asks_at_most_once setup, fun _ _ _ _ _ => pairs_asked_again,
    fun _ _ _ _ _ _ => preview_asked_again, fun _ _ _ => requests_of_same_region⟩

/-- The equation of `askTwice` before it moves. -/
def equationHere : Event := .changed ⟨"$f(x)$".toList, ⟨0, 3⟩⟩

/-- The equation of `askTwice` after a character is put before it. -/
def equationThere : Event := .changed ⟨"a$f(x)$".toList, ⟨0, 4⟩⟩

/-- The pairs and the preview of an equation that moves are asked for twice: no pairs have come
yet, and the equation ends elsewhere.  Once the pairs are there, a move within the equation asks
for nothing. -/
theorem requests_of_a_moved_equation :
    let s := after plainSetup [equationHere]
    let t := after plainSetup askTwice
    contents (hear plainSetup equationThere s).2 = ["f(x)".toList] ∧ s.brackets.pairs = none ∧
      (previews (hear plainSetup equationThere s).2).length = 1 ∧
      (∃ r₁ r₂, Region.inlineAt? s.buffer s.cursor = some r₁ ∧
        Region.inlineAt? t.buffer t.cursor = some r₂ ∧ r₁.content = r₂.content ∧
          r₁.stop ≠ r₂.stop) ∧
      Effect.requests (hear plainSetup (.cursorMoved ⟨0, 3⟩)
        (after plainSetup (askTwice ++ [pairsAnswer]))).2 = [] := by
  obtain ⟨-, hpairs, hpreviews, hsame⟩ := requests_only_when_needed plainSetup
  have hnothing : ([] ++ [equationHere] ++ [] : List Event) = [equationHere] := rfl
  refine ⟨by decide +kernel, ?_, by decide +kernel, ?_, ?_⟩
  · have hhere : InContent "f(x)".toList (after plainSetup [equationHere]) :=
      ⟨⟨.inline, "f(x)".toList, ⟨0, 1⟩, ⟨0, 5⟩⟩, by decide +kernel, rfl⟩
    have hneeded := hpairs [] equationHere [] equationThere "f(x)".toList (by decide +kernel)
      (by decide +kernel)
    rw [hnothing] at hneeded
    rcases hneeded with ⟨passed, hpassed, hleft⟩ | ⟨e, hmem, -⟩ | ⟨hnone, -⟩
    · rw [List.prefix_nil.mp hpassed, hnothing] at hleft
      exact absurd hhere hleft
    · exact absurd hmem List.not_mem_nil
    · exact hnone
  · obtain ⟨r₁, r₂, hfirst, hsource, hagain, hlater, hdiffer⟩ :=
      hpreviews [] equationHere [] equationThere
        ⟨1, "f(x)".toList, .inline, plainSetup.config.previewProcessor⟩
        ⟨2, "f(x)".toList, .inline, plainSetup.config.previewProcessor⟩
        (by decide +kernel) rfl (by decide +kernel)
    refine ⟨r₁, r₂, hfirst, hagain, hsource.trans hlater.symm, ?_⟩
    rcases hdiffer with hsources | hstop | hhidden
    · exact absurd rfl hsources
    · exact hstop
    · exact absurd hhidden List.not_mem_nil
  · exact hsame (askTwice ++ [pairsAnswer]) (.cursorMoved ⟨0, 3⟩)
      ⟨.inline, "f(x)".toList, ⟨0, 2⟩, ⟨0, 6⟩⟩ (by decide +kernel) (by decide +kernel)
      (by decide +kernel) (fun _ _ => by decide +kernel)

end Session

end MathTyping
