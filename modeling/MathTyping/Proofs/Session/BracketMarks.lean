import MathTyping.Proofs.Session.Answer
import MathTyping.Bracket.Match

/-!
# The decorations of brackets

The cache follows the region around the caret, and the host should mark the
brackets of exactly the cached pairs.  Two conditions relate the two.  `Marked`
is about cached pairs: they belong to a region, and the host has their marks and
no others.  `Unmarked` is about their absence: then no bracket is marked.

Every event preserves the first.  The second is preserved by every event but
one: a failed answer drops cached pairs without a repaint, so their marks stay.
It takes two answers for one content that disagree to get there.
-/

namespace MathTyping

namespace Session

/-- Cached pairs belong to a region, and exactly their brackets are marked. -/
def Marked : Condition := fun s w =>
  s.brackets.pairs.isSome →
    s.brackets.region.isSome ∧ w.decorated Highlight.bracketClasses = s.bracketMarks

/-- Without cached pairs no bracket is marked. -/
def Unmarked : Condition := fun s w =>
  s.brackets.pairs = none → w.decorated Highlight.bracketClasses = []

/-- Both conditions read the cache, the caret and the decorations of brackets only. -/
theorem Marked.of_eq {s t : Session} {w later : View} (h : Marked s w)
    (hbrackets : t.brackets = s.brackets) (hcursor : t.cursor = s.cursor)
    (hlater : later.decorated Highlight.bracketClasses = w.decorated Highlight.bracketClasses) :
    Marked t later := by
  intro hpairs
  rw [hbrackets] at hpairs ⊢
  obtain ⟨hregion, hmarks⟩ := h hpairs
  refine ⟨hregion, ?_⟩
  rw [hlater, hmarks, bracketMarks, bracketMarks, hbrackets, hcursor]

theorem Unmarked.of_eq {s t : Session} {w later : View} (h : Unmarked s w)
    (hbrackets : t.brackets = s.brackets)
    (hlater : later.decorated Highlight.bracketClasses = w.decorated Highlight.bracketClasses) :
    Unmarked t later := by
  intro hnone
  rw [hbrackets] at hnone
  rw [hlater]
  exact h hnone

theorem bracketMarks_of_pairs_eq_none {s : Session} (hnone : s.brackets.pairs = none) :
    s.bracketMarks = [] := by
  rw [bracketMarks, hnone]
  cases s.brackets.region <;> rfl

/-- Together, the conditions say that exactly the cached pairs are marked. -/
theorem decorated_eq_bracketMarks {s : Session} {w : View} (hmarked : Marked s w)
    (hunmarked : Unmarked s w) : w.decorated Highlight.bracketClasses = s.bracketMarks := by
  cases hpairs : s.brackets.pairs with
  | none => rw [hunmarked hpairs, bracketMarks_of_pairs_eq_none hpairs]
  | some pairs => exact (hmarked (by rw [hpairs]; rfl)).2

/-- A region has marks exactly if it has pairs. -/
theorem bracketMarks_eq_nil_iff {s : Session} {region : Region} {pairs : List BracketPair}
    (hregion : s.brackets.region = some region) (hpairs : s.brackets.pairs = some pairs) :
    s.bracketMarks = [] ↔ pairs = [] := by
  rw [bracketMarks, hregion, hpairs]
  constructor
  · intro hnil
    cases pairs with
    | nil => rfl
    | cons pair pairs => simp [Highlight.ofPairs, Highlight.ofPair] at hnil
  · rintro rfl
    have hnone : s.brackets.enclosing? s.cursor = none := by
      rw [BracketCache.enclosing?, hregion, hpairs]
      simp [BracketPair.innermost?, BracketPair.leastSpan?]
    rw [hnone]
    rfl

/-! ### What the small steps do to the marks -/

/-- A repaint marks the cached pairs. -/
theorem marked_paintEffects {s : Session} (v : Screen)
    (hregion : s.brackets.pairs.isSome → s.brackets.region.isSome) :
    Marked s (v.applyAll s.paintEffects).view := by
  intro hpairs
  refine ⟨hregion hpairs, ?_⟩
  rcases paintEffects_cases s with ⟨hnone | hnone, -⟩ | ⟨-, -, hpaint⟩
  · have hsome := hregion hpairs
    rw [hnone] at hsome
    contradiction
  · rw [hnone] at hpairs
    contradiction
  · rw [hpaint]
    exact View.decorated_of_replaced (w := v.view) rfl fun m hmem =>
      className_mem_of_mem_bracketMarks hmem

/-- Without cached pairs a repaint does nothing. -/
theorem unmarked_paintEffects {s : Session} {v : Screen} (h : Unmarked s v.view) :
    Unmarked s (v.applyAll s.paintEffects).view := by
  intro hnone
  rcases paintEffects_cases s with ⟨-, hpaint⟩ | ⟨-, hpairs, -⟩
  · rw [hpaint]
    exact h hnone
  · rw [hnone] at hpairs
    contradiction

/-- The popup and the preview do not disturb the decorations of brackets. -/
theorem decorated_onPanes (v : Screen) {effects : List Effect}
    (hpanes : ∀ e ∈ effects, e.OnPanes) :
    (v.applyAll effects).view.decorated Highlight.bracketClasses =
      v.view.decorated Highlight.bracketClasses :=
  v.decorated_applyAll_of_spares fun e hmem => (hpanes e hmem).spares_brackets

/-- Removing the classes of brackets first leaves none marked, whatever silent effects
follow. -/
theorem decorated_removeBrackets (v : Screen) {quiet : List Effect}
    (hquiet : ∀ e ∈ quiet, e.isSilent) :
    (v.applyAll (.removeHighlights Highlight.bracketClasses :: quiet)).view.decorated
      Highlight.bracketClasses = [] := by
  rw [Screen.applyAll_cons, Screen.view_applyAll_of_isSilent _ hquiet]
  exact View.decorated_eq_nil_of_removed (w := v.view) rfl fun _ hmem => hmem

/-- Following the region marks the pairs that stay cached, also after a move of the caret. -/
theorem marked_refreshBrackets {s : Session} (v : Screen)
    (hregion : s.brackets.pairs.isSome → s.brackets.region.isSome) :
    Marked (refreshBrackets s).1 (v.applyAll (refreshBrackets s).2).view := by
  rcases refreshBrackets_cases s with ⟨-, h⟩ | ⟨-, h⟩ | ⟨r, pairs, -, -, -, h⟩ | ⟨r, -, h⟩
  · rw [h]
    exact marked_paintEffects v hregion
  · rw [h]
    intro hpairs
    contradiction
  · rw [h]
    exact marked_paintEffects v fun _ => rfl
  · rw [h]
    intro hpairs
    contradiction

/-- A region that is left or replaced takes its marks along. -/
theorem unmarked_refreshBrackets {s : Session} {v : Screen} (hunmarked : Unmarked s v.view) :
    Unmarked (refreshBrackets s).1 (v.applyAll (refreshBrackets s).2).view := by
  rcases refreshBrackets_cases s with ⟨-, h⟩ | ⟨-, h⟩ | ⟨r, pairs, -, -, -, h⟩ | ⟨r, -, h⟩
  · rw [h]
    exact unmarked_paintEffects hunmarked
  · rw [h]
    exact fun _ => decorated_removeBrackets v (by simp)
  · rw [h]
    intro hnone
    contradiction
  · rw [h]
    exact fun _ => decorated_removeBrackets v (by simp [Effect.isSilent])

theorem decorated_close (s : Session) (v : Screen) :
    (v.applyAll (close s).2).view.decorated Highlight.bracketClasses = [] := by
  refine View.decorated_eq_nil_of_removed (w := v.view) rfl ?_
  intro c hc
  exact List.mem_append_left _ hc

/-! ### Events -/

section Events

variable {P : Condition}

/-- A condition reads the cache, the caret and the decorations of brackets only. -/
def ReadsMarks (P : Condition) : Prop :=
  ∀ (s t : Session) (w later : View), P s w → t.brackets = s.brackets → t.cursor = s.cursor →
    later.decorated Highlight.bracketClasses = w.decorated Highlight.bracketClasses → P t later

/-- What following the region, a repaint, the teardown and an answer preserve, every event
preserves. -/
theorem condition_hear (hreads : ReadsMarks P)
    (hrefresh : ∀ (s t : Session) (v : Screen), P s v.view → t.brackets = s.brackets →
      P (refreshBrackets t).1 (v.applyAll (refreshBrackets t).2).view)
    (hpaint : ∀ (s : Session) (v : Screen), P s v.view → P s (v.applyAll s.paintEffects).view)
    (hclose : Leads P close P) {setup : Setup} {event : Event} {s : Session} {v : Screen}
    (hrendered : ∀ reply, event = .rendered reply →
      P (rendered reply s).1 (v.applyAll (rendered reply s).2).view)
    (h : P s v.view) :
    P (hear setup event s).1 (v.applyAll (hear setup event s).2).view := by
  have hanswer := answer_hear setup event s
  generalize hear setup event s = answer at hanswer
  cases hanswer with
  | follow buffer cursor selection generation quiet hevent hquiet =>
      obtain ⟨t, effects, -, -, hbrackets, hpanes, hfollow⟩ :=
        refresh_cases setup { s with buffer := buffer, cursor := cursor, selection := none }
      -- The popup and the preview come first; up to here the marks are still the old ones.
      have hspared : P s (v.applyAll effects).view :=
        hreads s s _ _ h rfl rfl (decorated_onPanes v hpanes)
      have hfollowed := hrefresh s t _ hspared hbrackets
      rw [Screen.applyAll_append, Screen.view_applyAll_of_isSilent _ hquiet, hfollow,
        Screen.applyAll_append]
      exact hreads _ _ _ _ hfollowed rfl rfl rfl
  | popup completion quiet hevent hquiet =>
      have hpanes := syncPopup_onPanes { s with completion := completion }
      rw [Screen.applyAll_append]
      refine hreads s _ _ _ h (syncPopup_brackets _) (syncPopup_cursor _) ?_
      rw [decorated_onPanes _ hpanes, Screen.view_applyAll_of_isSilent _ hquiet]
  | quiet selection quiet hevent hquiet =>
      rw [Screen.view_applyAll_of_isSilent _ hquiet]
      exact hreads s _ _ _ h rfl rfl rfl
  | repaint generation => exact hpaint s v h
  | rendered reply => exact hrendered reply rfl
  | close hevent => exact hclose s v h

end Events

/-- Pairs that are answered are marked, and pairs that are dropped need no marks. -/
theorem marked_rendered (reply : RenderReply) {s : Session} {v : Screen} (h : Marked s v.view) :
    Marked (rendered reply s).1 (v.applyAll (rendered reply s).2).view := by
  cases reply with
  | brackets content result =>
      rcases rendered_brackets_cases content result s with
        ⟨-, hrendered⟩ | ⟨pairs, hholds, -, hrendered⟩ | ⟨diagnostics, -, -, hrendered⟩
      · rw [hrendered]
        exact h
      · rw [hrendered]
        refine marked_paintEffects v fun _ => ?_
        obtain ⟨region, hregion, -⟩ := BracketCache.exists_of_holds hholds
        show s.brackets.region.isSome
        rw [hregion]
        rfl
      · rw [hrendered]
        intro hpairs
        contradiction
  | preview ticket result =>
      refine h.of_eq ?_ ?_
        (decorated_onPanes v (rendered_preview_onPanes ticket result s))
      · rw [rendered_preview_fst]
      · rw [rendered_preview_fst]

theorem marked_hear (setup : Setup) (event : Event) : Leads Marked (hear setup event) Marked := by
  intro s v h
  refine condition_hear (fun s t w later h hbrackets hcursor hlater =>
    h.of_eq hbrackets hcursor hlater) ?_ ?_ ?_ (fun reply _ => marked_rendered reply h) h
  · intro s t v h hbrackets
    refine marked_refreshBrackets v ?_
    rw [hbrackets]
    exact fun hpairs => (h hpairs).1
  · intro s v h
    exact marked_paintEffects v fun hpairs => (h hpairs).1
  · intro s v h hpairs
    contradiction

/-- An answer that drops marked pairs: it fails, and is for the cached content. -/
def DropsMarks (s : Session) (event : Event) : Prop :=
  ∃ content diagnostics pair pairs,
    event = .rendered (.brackets content (.error diagnostics)) ∧ s.brackets.holds content ∧
      s.brackets.pairs = some (pair :: pairs)

theorem unmarked_rendered {reply : RenderReply} {s : Session} {v : Screen}
    (hmarked : Marked s v.view) (h : Unmarked s v.view)
    (hkept : ¬ DropsMarks s (.rendered reply)) :
    Unmarked (rendered reply s).1 (v.applyAll (rendered reply s).2).view := by
  cases reply with
  | brackets content result =>
      rcases rendered_brackets_cases content result s with
        ⟨-, hrendered⟩ | ⟨pairs, -, -, hrendered⟩ | ⟨diagnostics, hholds, rfl, hrendered⟩
      · rw [hrendered]
        exact h
      · rw [hrendered]
        intro hnone
        contradiction
      · rw [hrendered]
        intro _
        -- A failure repaints nothing, so nothing may have been marked before it.
        show v.view.decorated Highlight.bracketClasses = []
        cases hpairs : s.brackets.pairs with
        | none => exact h hpairs
        | some pairs =>
            obtain ⟨hsome, hmarks⟩ := hmarked (by rw [hpairs]; rfl)
            obtain ⟨region, hregion⟩ := Option.isSome_iff_exists.mp hsome
            rw [hmarks, bracketMarks_eq_nil_iff hregion hpairs]
            cases pairs with
            | nil => rfl
            | cons pair pairs =>
                exact absurd ⟨content, diagnostics, pair, pairs, rfl, hholds, hpairs⟩ hkept
  | preview ticket result =>
      refine h.of_eq ?_
        (decorated_onPanes v (rendered_preview_onPanes ticket result s))
      rw [rendered_preview_fst]

/-- Only an answer that drops marked pairs leaves marks without pairs. -/
theorem unmarked_hear {setup : Setup} {event : Event} {s : Session} {v : Screen}
    (hmarked : Marked s v.view) (h : Unmarked s v.view) (hkept : ¬ DropsMarks s event) :
    Unmarked (hear setup event s).1 (v.applyAll (hear setup event s).2).view := by
  refine condition_hear (fun s t w later h hbrackets _ hlater => h.of_eq hbrackets hlater)
    ?_ ?_ ?_ ?_ h
  · intro s t v h hbrackets
    exact unmarked_refreshBrackets (h.of_eq hbrackets rfl)
  · intro s v h
    exact unmarked_paintEffects h
  · intro s v _ _
    exact decorated_close s v
  · rintro reply rfl
    exact unmarked_rendered hmarked h hkept

/-- An answer that drops marked pairs does leave their marks. -/
theorem not_unmarked_hear {setup : Setup} {event : Event} {s : Session} {v : Screen}
    (hmarked : Marked s v.view) (hdrops : DropsMarks s event) :
    ¬ Unmarked (hear setup event s).1 (v.applyAll (hear setup event s).2).view := by
  obtain ⟨content, diagnostics, pair, pairs, rfl, hholds, hpairs⟩ := hdrops
  obtain ⟨hsome, hmarks⟩ := hmarked (by rw [hpairs]; rfl)
  obtain ⟨region, hregion⟩ := Option.isSome_iff_exists.mp hsome
  intro hunmarked
  rw [show hear setup (.rendered (.brackets content (.error diagnostics))) s =
    rendered (.brackets content (.error diagnostics)) s from rfl] at hunmarked
  rcases rendered_brackets_cases content (.error diagnostics) s with
    ⟨hother, -⟩ | ⟨_, -, hok, -⟩ | ⟨_, -, -, hrendered⟩
  · rw [hholds] at hother
    contradiction
  · contradiction
  · rw [hrendered] at hunmarked
    have hnil : v.view.decorated Highlight.bracketClasses = [] := hunmarked rfl
    rw [hmarks, bracketMarks_eq_nil_iff hregion hpairs] at hnil
    contradiction

/-! ### Runs -/

theorem marked_after (setup : Setup) (events : List Event) :
    Marked (after setup events) (screenAfter setup events).view :=
  condition_after (fun hpairs => by contradiction) (marked_hear setup) events

/-- Tell whether the session was taken down after the last report. -/
def tornDown (events : List Event) : Bool :=
  events.foldl (fun down event => !event.isReport && (down || event.isTeardown)) false

theorem tornDown_concat (events : List Event) (event : Event) :
    tornDown (events ++ [event]) =
      (!event.isReport && (tornDown events || event.isTeardown)) := by
  rw [tornDown, List.foldl_append]
  rfl

/-- The cached region is the one around the caret, unless the session was taken down since. -/
theorem region_after (setup : Setup) (events : List Event) :
    (after setup events).brackets.region =
      if tornDown events then none
      else Region.locate? (after setup events).buffer (after setup events).cursor := by
  induction events using List.reverseRecOn with
  | nil => exact (by decide : Session.initial.brackets.region =
      Region.locate? Session.initial.buffer Session.initial.cursor)
  | append_singleton events event ih =>
      rw [after_concat, tornDown_concat]
      have hanswer := answer_hear setup event (after setup events)
      generalize hear setup event (after setup events) = answer at hanswer
      cases hanswer with
      | follow buffer cursor selection generation quiet hevent hquiet =>
          obtain ⟨t, effects, hbuffer, hcursor, -, -, hfollow⟩ := refresh_cases setup
            { after setup events with buffer := buffer, cursor := cursor, selection := none }
          rw [hevent, hfollow]
          exact refreshBrackets_region t
      | popup completion quiet hevent hquiet =>
          obtain ⟨hreport, hteardown, -⟩ := Event.isInput_iff.mp hevent
          rw [hreport, hteardown, syncPopup_brackets, syncPopup_buffer, syncPopup_cursor]
          simpa using ih
      | quiet selection quiet hevent hquiet =>
          obtain ⟨hreport, hteardown, -⟩ := Event.isInput_iff.mp hevent
          rw [hreport, hteardown]
          simpa using ih
      | repaint generation => simpa [Event.isReport, Event.isTeardown] using ih
      | rendered reply =>
          have hdocument : (rendered reply (after setup events)).1.buffer =
              (after setup events).buffer ∧
              (rendered reply (after setup events)).1.cursor = (after setup events).cursor := by
            cases reply <;> exact ⟨rfl, rfl⟩
          rw [rendered_region, hdocument.1, hdocument.2, ih]
          simp [Event.isReport, Event.isTeardown]
      | close hevent =>
          rw [hevent, Event.isReport_of_isTeardown hevent]
          simp [close, BracketCache.empty]

/-- Cached pairs belong to a region, and were answered for its content. -/
def Answered (events : List Event) (s : Session) : Prop :=
  ∀ pairs, s.brackets.pairs = some pairs →
    ∃ region, s.brackets.region = some region ∧
      Event.rendered (.brackets region.content (.ok pairs)) ∈ events

/-- A region that only moves keeps its pairs, since its content stays the same. -/
theorem answered_refreshBrackets {events : List Event} {s : Session} (h : Answered events s) :
    Answered events (refreshBrackets s).1 := by
  rcases refreshBrackets_cases s with
    ⟨-, hs⟩ | ⟨-, hs⟩ | ⟨r, pairs, -, hholds, hpairs, hs⟩ | ⟨r, -, hs⟩
  · rw [hs]
    exact h
  · rw [hs]
    intro pairs hsome
    contradiction
  · rw [hs]
    intro others hothers
    obtain rfl : pairs = others := Option.some.inj hothers
    obtain ⟨region, hregion, hmem⟩ := h pairs hpairs
    refine ⟨r, rfl, ?_⟩
    rw [BracketCache.holds_iff hregion] at hholds
    rwa [← hholds]
  · rw [hs]
    intro pairs hsome
    contradiction

theorem answered_after (setup : Setup) (events : List Event) :
    Answered events (after setup events) := by
  induction events using List.reverseRecOn with
  | nil =>
      intro pairs hpairs
      contradiction
  | append_singleton events event ih =>
      have hkept : Answered (events ++ [event]) (after setup events) := by
        intro pairs hpairs
        obtain ⟨region, hregion, hmem⟩ := ih pairs hpairs
        exact ⟨region, hregion, List.mem_append_left _ hmem⟩
      rw [after_concat]
      have hanswer := answer_hear setup event (after setup events)
      generalize hear setup event (after setup events) = answer at hanswer
      cases hanswer with
      | follow buffer cursor selection generation quiet hevent hquiet =>
          obtain ⟨t, effects, -, -, hbrackets, -, hfollow⟩ := refresh_cases setup
            { after setup events with buffer := buffer, cursor := cursor, selection := none }
          rw [hfollow]
          refine answered_refreshBrackets (s := t) ?_
          rw [Answered, hbrackets]
          exact hkept
      | popup completion quiet hevent hquiet =>
          rw [Answered, syncPopup_brackets]
          exact hkept
      | quiet selection quiet hevent hquiet => exact hkept
      | repaint generation => exact hkept
      | rendered reply =>
          cases reply with
          | brackets content result =>
              rcases rendered_brackets_cases content result (after setup events) with
                ⟨-, h⟩ | ⟨pairs, hholds, rfl, h⟩ | ⟨diagnostics, -, -, h⟩
              · rw [h]
                exact hkept
              · rw [h]
                intro others hothers
                obtain rfl : pairs = others := Option.some.inj hothers
                obtain ⟨region, hregion, rfl⟩ := BracketCache.exists_of_holds hholds
                exact ⟨region, hregion, List.mem_append_right _ (List.mem_singleton_self _)⟩
              · rw [h]
                intro pairs hsome
                contradiction
          | preview ticket result =>
              rw [rendered_preview_fst]
              exact hkept
      | close hevent =>
          intro pairs hsome
          contradiction

/-- All answers to bracket requests for one content are equal. -/
def AnswersAgree (events : List Event) : Prop :=
  ∀ content result other, Event.rendered (.brackets content result) ∈ events →
    Event.rendered (.brackets content other) ∈ events → result = other

/-- Answers that agree never drop marked pairs. -/
theorem not_dropsMarks_of_answersAgree {setup : Setup} {events : List Event} {event : Event}
    (hagree : AnswersAgree (events ++ [event])) : ¬ DropsMarks (after setup events) event := by
  rintro ⟨content, diagnostics, pair, pairs, rfl, hholds, hpairs⟩
  obtain ⟨region, hregion, hmem⟩ := answered_after setup events _ hpairs
  rw [BracketCache.holds_iff hregion] at hholds
  rw [hholds] at hmem
  have hequal := hagree content _ _ (List.mem_append_left _ hmem)
    (List.mem_append_right _ (List.mem_singleton_self _))
  contradiction

theorem unmarked_after {setup : Setup} {events : List Event} (hagree : AnswersAgree events) :
    Unmarked (after setup events) (screenAfter setup events).view := by
  induction events using List.reverseRecOn with
  | nil => exact fun _ => rfl
  | append_singleton events event ih =>
      have hearlier : AnswersAgree events := fun content result other hresult hother =>
        hagree content result other (List.mem_append_left _ hresult)
          (List.mem_append_left _ hother)
      rw [after_concat, screenAfter_concat]
      exact unmarked_hear (marked_after setup events) (ih hearlier)
        (not_dropsMarks_of_answersAgree hagree)

/-- **The decorations of brackets show the current region.**  If all answers for one content
are equal, then after every run the cached region is the one around the caret, unless the
session was taken down after the last report; cached pairs were answered for its content; and
the host marks exactly the brackets of the cached pairs. -/
theorem bracket_marks_show_region (setup : Setup) (events : List Event)
    (hagree : AnswersAgree events) :
    let s := after setup events
    s.brackets.region =
        (if tornDown events then none else Region.locate? s.buffer s.cursor) ∧
      (∀ pairs, s.brackets.pairs = some pairs →
        ∃ region, s.brackets.region = some region ∧
          Event.rendered (.brackets region.content (.ok pairs)) ∈ events) ∧
      (screenAfter setup events).view.decorated Highlight.bracketClasses =
        match s.brackets.region, s.brackets.pairs with
        | some region, some pairs =>
            Highlight.ofPairs region pairs (s.brackets.enclosing? s.cursor)
        | _, _ => [] := by
  intro s
  refine ⟨region_after setup events, answered_after setup events, ?_⟩
  exact decorated_eq_bracketMarks (marked_after setup events) (unmarked_after hagree)

/-- A region moves before its pairs are answered, so they are requested twice. -/
def askTwice : List Event :=
  [.changed ⟨"$f(x)$".toList, ⟨0, 3⟩⟩, .changed ⟨"a$f(x)$".toList, ⟨0, 4⟩⟩]

/-- The answer to both requests. -/
def pairsAnswer : Event :=
  .rendered (.brackets "f(x)".toList (.ok (BracketPair.ofSource "f(x)".toList)))

/-- Two late answers that agree mark the brackets where the region is now. -/
theorem marks_of_late_answers :
    let events := askTwice ++ [pairsAnswer, pairsAnswer]
    AnswersAgree events ∧
      (screenAfter plainSetup events).view.decorated Highlight.bracketClasses =
        [Highlight.bracket ⟨0, 3⟩ (Highlight.bracketClass .paren),
          Highlight.bracket ⟨0, 5⟩ (Highlight.bracketClass .paren),
          Highlight.bracket ⟨0, 3⟩ (Highlight.enclosingClass .paren),
          Highlight.bracket ⟨0, 5⟩ (Highlight.enclosingClass .paren)] := by
  intro events
  have hagree : AnswersAgree events := by
    have honly : ∀ content result, Event.rendered (.brackets content result) ∈ events →
        result = .ok (BracketPair.ofSource "f(x)".toList) := by
      intro content result hmem
      have hboth : content = "f(x)".toList ∧ result = .ok (BracketPair.ofSource "f(x)".toList) := by
        simpa [events, askTwice, pairsAnswer] using hmem
      exact hboth.2
    intro content result other hresult hother
    rw [honly content result hresult, honly content other hother]
  refine ⟨hagree, ?_⟩
  rw [(bracket_marks_show_region plainSetup events hagree).2.2]
  decide +kernel

/-- Without cached pairs no bracket is marked, at any time of a run, exactly if no answer of
the run drops marked pairs. -/
theorem no_stale_marks_iff (setup : Setup) (events : List Event) :
    (∀ passed, passed <+: events → (after setup passed).brackets.pairs = none →
      (screenAfter setup passed).view.decorated Highlight.bracketClasses = []) ↔
    ∀ passed event, passed ++ [event] <+: events → ¬ DropsMarks (after setup passed) event := by
  constructor
  · intro hclean passed event hpassed hdrops
    have hstale : ¬ Unmarked (hear setup event (after setup passed)).1 _ :=
      not_unmarked_hear (marked_after setup passed) hdrops
    rw [← after_concat, ← screenAfter_concat] at hstale
    exact hstale (hclean (passed ++ [event]) hpassed)
  · intro hkept passed hpassed
    induction passed using List.reverseRecOn with
    | nil => exact fun _ => rfl
    | append_singleton passed event ih =>
        have hearlier := ih ((List.prefix_append passed [event]).trans hpassed)
        rw [after_concat, screenAfter_concat]
        exact unmarked_hear (marked_after setup passed) hearlier (hkept passed event hpassed)

/-- A failure that follows the pairs for the same content drops them, but the host keeps
their marks. -/
theorem marks_outlive_dropped_pairs :
    let failure := Event.rendered (.brackets "f(x)".toList (.error [.ofError ⟨0, 4⟩ "late".toList]))
    let events := askTwice ++ [pairsAnswer, failure]
    (emitted plainSetup askTwice).count (.request (.brackets "f(x)".toList)) = 2 ∧
      (after plainSetup events).brackets.pairs = none ∧
      (screenAfter plainSetup events).view.decorated Highlight.bracketClasses ≠ [] := by
  decide +kernel

end Session

end MathTyping
