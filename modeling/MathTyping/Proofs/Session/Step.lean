import MathTyping.Proofs.Session.Run

/-!
# The steps of a session

What the small steps change and which effects they use.  Bringing the popup and
the preview up to date has effects on the panes only (`OnPanes`), following the
region on the brackets only (`OnBrackets`), and neither disturbs the other.

Each small step is listed once with all it can do; what it leaves unchanged, which
effects it uses and what it asks a renderer for follow from that.
-/

namespace MathTyping

namespace Highlight

theorem triggerClass_notMem_bracketClasses : triggerClass ∉ bracketClasses := by decide

theorem bracketClass_mem (kind : BracketKind) : bracketClass kind ∈ bracketClasses := by
  cases kind <;> decide

theorem enclosingClass_mem (kind : BracketKind) : enclosingClass kind ∈ bracketClasses := by
  cases kind <;> decide

/-- The decorations of brackets have the classes of brackets. -/
theorem className_mem_of_mem_ofPairs {region : Region} {pairs : List BracketPair}
    {enclosing : Option BracketPair} {h : Highlight}
    (hmem : h ∈ ofPairs region pairs enclosing) : h.className ∈ bracketClasses := by
  rw [ofPairs, List.mem_append, List.mem_flatMap, List.mem_flatMap] at hmem
  rcases hmem with ⟨pair, -, hpair⟩ | ⟨pair, -, hpair⟩
  · simp only [ofPair, bracket, List.mem_cons, List.not_mem_nil, or_false] at hpair
    rcases hpair with rfl | rfl <;> exact bracketClass_mem pair.kind
  · simp only [ofPair, bracket, List.mem_cons, List.not_mem_nil, or_false] at hpair
    rcases hpair with rfl | rfl <;> exact enclosingClass_mem pair.kind

end Highlight

namespace Effect

/-- An effect on the decorations of brackets, or a request for pairs. -/
def OnBrackets : Effect → Prop
  | .addHighlights marks => ∀ m ∈ marks, m.className ∈ Highlight.bracketClasses
  | .removeHighlights classes => classes = Highlight.bracketClasses
  | .request (.brackets _) => True
  | _ => False

/-- An effect on the popup, the preview or the decoration of the query, or a request for a
preview. -/
def OnPanes : Effect → Prop
  | .addHighlights marks => ∀ m ∈ marks, m.className = Highlight.triggerClass
  | .removeHighlights classes => classes = [Highlight.triggerClass]
  | .request (.preview _) => True
  | .showPopup _ | .closePopup | .showPreview _ _ | .showPreviewError _ _ | .hidePreview => True
  | _ => False

variable {e : Effect}

theorem OnBrackets.keepsPanes (h : e.OnBrackets) : e.keepsPanes := by
  cases e <;> first | rfl | exact h.elim

theorem OnBrackets.spares_trigger (h : e.OnBrackets) : e.Spares [Highlight.triggerClass] := by
  cases e with
  | addHighlights marks =>
      intro m hmem htrigger
      have hclass := h m hmem
      rw [List.mem_singleton.mp htrigger] at hclass
      exact Highlight.triggerClass_notMem_bracketClasses hclass
  | removeHighlights classes =>
      obtain rfl : classes = Highlight.bracketClasses := h
      intro c hc
      rw [List.mem_singleton.mp hc]
      exact Highlight.triggerClass_notMem_bracketClasses
  | _ => trivial

theorem OnBrackets.addsOnly (h : e.OnBrackets) : e.AddsOnly Highlight.allClasses := by
  cases e with
  | addHighlights marks => exact fun m hmem => List.mem_append_left _ (h m hmem)
  | _ => trivial

theorem OnBrackets.request?_ne_preview (h : e.OnBrackets) (q : PreviewRequest) :
    e.request? ≠ some (.preview q) := by
  cases e with
  | request r =>
      cases r with
      | brackets content => simp [request?]
      | preview _ => exact h.elim
  | _ => simp [request?]

theorem OnPanes.spares_brackets (h : e.OnPanes) : e.Spares Highlight.bracketClasses := by
  cases e with
  | addHighlights marks =>
      intro m hmem
      rw [h m hmem]
      exact Highlight.triggerClass_notMem_bracketClasses
  | removeHighlights classes =>
      obtain rfl : classes = [Highlight.triggerClass] := h
      intro c hc htrigger
      rw [List.mem_singleton.mp htrigger] at hc
      exact Highlight.triggerClass_notMem_bracketClasses hc
  | _ => trivial

theorem OnPanes.addsOnly (h : e.OnPanes) : e.AddsOnly Highlight.allClasses := by
  cases e with
  | addHighlights marks =>
      intro m hmem
      rw [h m hmem]
      exact List.mem_append_right _ (List.mem_singleton_self _)
  | _ => trivial

end Effect

namespace PopupView

/-- The popup is shown exactly while the state is not idle. -/
theorem isSome_of? (c : Completion) : (of? c).isSome = c.isOpen := by
  cases c <;> rfl

/-- A popup hangs below the text of its query. -/
theorem query?_of_of?_eq_some {c : Completion} {shown : PopupView} (h : of? c = some shown) :
    ∃ q, c.query? = some q ∧ q.range = shown.range := by
  cases c with
  | idle => simp [of?] at h
  | snippets found =>
      obtain rfl := Option.some.inj h
      exact ⟨found.query, rfl, rfl⟩
  | symbols found =>
      obtain rfl := Option.some.inj h
      exact ⟨found.query, rfl, rfl⟩

end PopupView

namespace BracketCache

variable {cache : BracketCache} {content : Text}

theorem exists_of_holds (h : cache.holds content) :
    ∃ region, cache.region = some region ∧ region.content = content := by
  simpa [holds, Option.any_eq_true] using h

/-- A cache holds the content of its region and no other. -/
theorem holds_iff {region : Region} (hregion : cache.region = some region) :
    cache.holds content ↔ region.content = content := by
  simp [holds, hregion]

end BracketCache

namespace Preview

variable {p : Preview}

/-- The effects of hiding a preview: none if there is none. -/
def hideEffects (p : Preview) : List Effect :=
  if p.shown.isSome then [.hidePreview] else []

theorem eq_of_mem_hideEffects {e : Effect} (hmem : e ∈ p.hideEffects) : e = .hidePreview := by
  unfold hideEffects at hmem
  split at hmem
  · exact List.mem_singleton.mp hmem
  · contradiction

theorem requests_hideEffects (p : Preview) : Effect.requests p.hideEffects = [] := by
  apply Effect.requests_eq_nil
  intro e hmem
  rw [eq_of_mem_hideEffects hmem]
  rfl

/-- Hiding a preview that is shown leaves the pane empty, and so does hiding none. -/
theorem view_hideEffects {v : Screen} (hhidden : p.shown = none → v.view.preview = none) :
    (v.applyAll p.hideEffects).view = { v.view with preview := none } := by
  rw [hideEffects]
  cases hshown : p.shown with
  | none =>
      rw [← hhidden hshown]
      rfl
  | some _ => rfl

end Preview

namespace Session

/-! ### What the small steps do -/

/-- Bringing the popup up to date does nothing, closes the popup, or shows another one; in
the last case a preview goes first. -/
theorem syncPopup_cases (s : Session) :
    (PopupView.of? s.completion = s.popup ∧ syncPopup s = (s, [])) ∨
    (PopupView.of? s.completion = none ∧
      syncPopup s = ({ s with popup := none },
        [.closePopup, .removeHighlights [Highlight.triggerClass]])) ∨
    ∃ shown q, PopupView.of? s.completion = some shown ∧ s.completion.query? = some q ∧
      q.range = shown.range ∧
      syncPopup s = ({ s with popup := some shown, preview := s.preview.hide.1 },
        s.preview.hideEffects ++
          [.removeHighlights [Highlight.triggerClass], .showPopup shown,
            .addHighlights [Highlight.ofQuery q]]) := by
  by_cases hview : PopupView.of? s.completion = s.popup
  · exact Or.inl ⟨hview, by rw [syncPopup, if_pos hview]⟩
  · refine Or.inr ?_
    rw [syncPopup, if_neg hview]
    cases hof : PopupView.of? s.completion with
    | none => exact Or.inl ⟨rfl, rfl⟩
    | some shown =>
        obtain ⟨q, hq, hrange⟩ := PopupView.query?_of_of?_eq_some hof
        refine Or.inr ⟨shown, q, rfl, hq, hrange, ?_⟩
        rw [hq]
        cases hshown : s.preview.shown <;> simp [Preview.hide, Preview.hideEffects, hshown]

@[simp] theorem syncPopup_buffer (s : Session) : (syncPopup s).1.buffer = s.buffer := by
  rcases syncPopup_cases s with ⟨-, h⟩ | ⟨-, h⟩ | ⟨shown, q, -, -, -, h⟩ <;> rw [h]

@[simp] theorem syncPopup_cursor (s : Session) : (syncPopup s).1.cursor = s.cursor := by
  rcases syncPopup_cases s with ⟨-, h⟩ | ⟨-, h⟩ | ⟨shown, q, -, -, -, h⟩ <;> rw [h]

@[simp] theorem syncPopup_brackets (s : Session) : (syncPopup s).1.brackets = s.brackets := by
  rcases syncPopup_cases s with ⟨-, h⟩ | ⟨-, h⟩ | ⟨shown, q, -, -, -, h⟩ <;> rw [h]

/-- Reconsidering the preview does nothing, hides the preview, or asks for a new one. -/
theorem updatePreview_cases (setup : Setup) (s : Session) :
    updatePreview setup s = (s, []) ∨
    updatePreview setup s = ({ s with preview := s.preview.hide.1 }, s.preview.hideEffects) ∨
    ∃ r : Region, s.completion.isOpen = false ∧
      updatePreview setup s =
        ({ s with
            preview := ⟨s.preview.ticket + 1, some (s.preview.ticket + 1),
              some (r.content, r.stop)⟩ },
          [.request (.preview ⟨s.preview.ticket + 1, r.content, .inline,
            setup.config.previewProcessor⟩)]) := by
  unfold updatePreview
  by_cases henabled : setup.config.inlinePreview
  · rw [if_pos henabled]
    cases heq : Preview.equation? s.buffer s.cursor s.completion.isOpen with
    | none =>
        refine Or.inr (Or.inl ?_)
        cases hshown : s.preview.shown <;>
          simp [Preview.update, heq, Preview.hide, Preview.hideEffects, hshown]
    | some r =>
        have hclosed : s.completion.isOpen = false := by
          cases hopen : s.completion.isOpen with
          | false => rfl
          | true => simp [Preview.equation?, hopen] at heq
        by_cases hsame : s.preview.shown = some (r.content, r.stop)
        · refine Or.inl ?_
          simp [Preview.update, heq, hsame]
        · refine Or.inr (Or.inr ⟨r, hclosed, ?_⟩)
          simp [Preview.update, heq, hsame]
  · rw [if_neg henabled]
    exact Or.inl rfl

/-- Reconsidering the preview changes nothing else. -/
theorem updatePreview_fst (setup : Setup) (s : Session) :
    (updatePreview setup s).1 =
      { s with preview := (updatePreview setup s).1.preview } := by
  rcases updatePreview_cases setup s with h | h | ⟨r, -, h⟩ <;> rw [h]

@[simp] theorem updatePreview_buffer (setup : Setup) (s : Session) :
    (updatePreview setup s).1.buffer = s.buffer := by
  rw [updatePreview_fst]

@[simp] theorem updatePreview_cursor (setup : Setup) (s : Session) :
    (updatePreview setup s).1.cursor = s.cursor := by
  rw [updatePreview_fst]

@[simp] theorem updatePreview_brackets (setup : Setup) (s : Session) :
    (updatePreview setup s).1.brackets = s.brackets := by
  rw [updatePreview_fst]

/-- The brackets to mark: those of the cached pairs, or none. -/
def bracketMarks (s : Session) : List Highlight :=
  match s.brackets.region, s.brackets.pairs with
  | some region, some pairs => Highlight.ofPairs region pairs (s.brackets.enclosing? s.cursor)
  | _, _ => []

/-- A repaint replaces the decorations of brackets by the brackets to mark, if pairs are
cached, and does nothing otherwise. -/
theorem paintEffects_cases (s : Session) :
    ((s.brackets.region = none ∨ s.brackets.pairs = none) ∧ s.paintEffects = []) ∨
    (s.brackets.region.isSome ∧ s.brackets.pairs.isSome ∧
      s.paintEffects =
        [.removeHighlights Highlight.bracketClasses, .addHighlights s.bracketMarks]) := by
  unfold paintEffects bracketMarks
  cases hregion : s.brackets.region with
  | none => exact Or.inl ⟨Or.inl rfl, rfl⟩
  | some region =>
      cases hpairs : s.brackets.pairs with
      | none => exact Or.inl ⟨Or.inr rfl, rfl⟩
      | some pairs => exact Or.inr ⟨rfl, rfl, rfl⟩

/-- Following the region repaints the pairs that stay valid, or drops them; a new content
has its pairs requested. -/
theorem refreshBrackets_cases (s : Session) :
    (s.brackets.region = Region.locate? s.buffer s.cursor ∧
      refreshBrackets s = (s, s.paintEffects)) ∨
    (Region.locate? s.buffer s.cursor = none ∧
      refreshBrackets s = ({ s with brackets := .empty },
        [.removeHighlights Highlight.bracketClasses])) ∨
    (∃ r pairs, Region.locate? s.buffer s.cursor = some r ∧ s.brackets.holds r.content ∧
      s.brackets.pairs = some pairs ∧
      refreshBrackets s = ({ s with brackets := ⟨some r, some pairs⟩ },
        paintEffects { s with brackets := ⟨some r, some pairs⟩ })) ∨
    ∃ r, Region.locate? s.buffer s.cursor = some r ∧
      refreshBrackets s = ({ s with brackets := ⟨some r, none⟩ },
        [.removeHighlights Highlight.bracketClasses, .request (.brackets r.content)]) := by
  by_cases hsame : s.brackets.region = Region.locate? s.buffer s.cursor
  · refine Or.inl ⟨hsame, ?_⟩
    simp [refreshBrackets, BracketCache.refresh, hsame]
  · refine Or.inr ?_
    cases hloc : Region.locate? s.buffer s.cursor with
    | none =>
        rw [hloc] at hsame
        refine Or.inl ⟨rfl, ?_⟩
        simp [refreshBrackets, BracketCache.refresh, hloc, hsame]
    | some r =>
        rw [hloc] at hsame
        by_cases hkept : s.brackets.holds r.content ∧ s.brackets.pairs.isSome
        · obtain ⟨pairs, hpairs⟩ := Option.isSome_iff_exists.mp hkept.2
          refine Or.inr (Or.inl ⟨r, pairs, rfl, hkept.1, hpairs, ?_⟩)
          simp [refreshBrackets, BracketCache.refresh, hloc, hsame, hkept.1, hpairs]
        · refine Or.inr (Or.inr ⟨r, rfl, ?_⟩)
          simp only [refreshBrackets, BracketCache.refresh, hloc, if_neg hsame, if_neg hkept]

@[simp] theorem refreshBrackets_region (s : Session) :
    (refreshBrackets s).1.brackets.region = Region.locate? s.buffer s.cursor := by
  rcases refreshBrackets_cases s with
    ⟨hloc, h⟩ | ⟨hloc, h⟩ | ⟨r, pairs, hloc, -, -, h⟩ | ⟨r, hloc, h⟩
  · rw [h, hloc]
  · rw [h, hloc]
    rfl
  · rw [h, hloc]
  · rw [h, hloc]

/-- The pairs of a content are dropped unless they are for the cached region; a failure
leaves no pairs and repaints nothing. -/
theorem rendered_brackets_cases (content : Text) (result : Rendered (List BracketPair))
    (s : Session) :
    (s.brackets.holds content = false ∧ rendered (.brackets content result) s = (s, [])) ∨
    (∃ pairs, s.brackets.holds content ∧ result = .ok pairs ∧
      rendered (.brackets content result) s =
        ({ s with brackets := ⟨s.brackets.region, some pairs⟩ },
          paintEffects { s with brackets := ⟨s.brackets.region, some pairs⟩ })) ∨
    ∃ diagnostics, s.brackets.holds content ∧ result = .error diagnostics ∧
      rendered (.brackets content result) s =
        ({ s with brackets := ⟨s.brackets.region, none⟩ }, []) := by
  cases hholds : s.brackets.holds content with
  | false =>
      refine Or.inl ⟨rfl, ?_⟩
      simp [rendered, BracketCache.commit, hholds]
  | true =>
      refine Or.inr ?_
      cases result with
      | ok pairs =>
          refine Or.inl ⟨pairs, rfl, rfl, ?_⟩
          simp [rendered, BracketCache.commit, hholds]
      | error diagnostics =>
          refine Or.inr ⟨diagnostics, rfl, rfl, ?_⟩
          have hpaint : paintEffects { s with brackets := ⟨s.brackets.region, none⟩ } = [] := by
            rcases paintEffects_cases { s with brackets := ⟨s.brackets.region, none⟩ } with
              ⟨-, h⟩ | ⟨-, hpairs, -⟩
            · exact h
            · simp at hpairs
          simp [rendered, BracketCache.commit, hholds, hpaint]

/-- A preview is shown if its ticket is waited for, and dropped otherwise. -/
theorem rendered_preview_cases (ticket : Nat) (result : Rendered Rendering) (s : Session) :
    (s.preview.pending ≠ some ticket ∧ rendered (.preview ticket result) s = (s, [])) ∨
    (s.preview.pending = some ticket ∧
      rendered (.preview ticket result) s =
        ({ s with preview := ⟨s.preview.ticket, none, s.preview.shown⟩ },
          s.preview.anchor?.toList.map fun anchor => showPreview anchor result)) := by
  by_cases hpending : s.preview.pending = some ticket
  · refine Or.inr ⟨hpending, ?_⟩
    simp [rendered, Preview.commit, hpending, Preview.anchor?]
  · refine Or.inl ⟨hpending, ?_⟩
    simp [rendered, Preview.commit, hpending]

theorem rendered_preview_fst (ticket : Nat) (result : Rendered Rendering) (s : Session) :
    (rendered (.preview ticket result) s).1 =
      { s with preview := (rendered (.preview ticket result) s).1.preview } := by
  rcases rendered_preview_cases ticket result s with ⟨-, h⟩ | ⟨-, h⟩ <;> rw [h]

theorem rendered_region (reply : RenderReply) (s : Session) :
    (rendered reply s).1.brackets.region = s.brackets.region := by
  cases reply with
  | brackets content result =>
      rcases rendered_brackets_cases content result s with
        ⟨-, h⟩ | ⟨pairs, -, -, h⟩ | ⟨diagnostics, -, -, h⟩ <;> rw [h]
  | preview ticket result => rw [rendered_preview_fst]

/-! ### Which effects the small steps use -/

theorem className_mem_of_mem_bracketMarks {s : Session} {h : Highlight}
    (hmem : h ∈ s.bracketMarks) : h.className ∈ Highlight.bracketClasses := by
  unfold bracketMarks at hmem
  split at hmem
  · exact Highlight.className_mem_of_mem_ofPairs hmem
  · simp at hmem

theorem paintEffects_onBrackets (s : Session) : ∀ e ∈ s.paintEffects, e.OnBrackets := by
  rcases paintEffects_cases s with ⟨-, h⟩ | ⟨-, -, h⟩
  · rw [h]
    simp
  · have hmarks : ∀ m ∈ s.bracketMarks, m.className ∈ Highlight.bracketClasses := fun m hmem =>
      className_mem_of_mem_bracketMarks hmem
    rw [h]
    simpa [Effect.OnBrackets] using hmarks

theorem refreshBrackets_onBrackets (s : Session) :
    ∀ e ∈ (refreshBrackets s).2, e.OnBrackets := by
  rcases refreshBrackets_cases s with
    ⟨-, h⟩ | ⟨-, h⟩ | ⟨r, pairs, -, -, -, h⟩ | ⟨r, -, h⟩
  · rw [h]
    exact paintEffects_onBrackets s
  · rw [h]
    simp [Effect.OnBrackets]
  · rw [h]
    exact paintEffects_onBrackets { s with brackets := ⟨some r, some pairs⟩ }
  · rw [h]
    simp [Effect.OnBrackets]

theorem rendered_brackets_onBrackets (content : Text) (result : Rendered (List BracketPair))
    (s : Session) : ∀ e ∈ (rendered (.brackets content result) s).2, e.OnBrackets := by
  rcases rendered_brackets_cases content result s with
    ⟨-, h⟩ | ⟨pairs, -, -, h⟩ | ⟨diagnostics, -, -, h⟩
  · rw [h]
    simp
  · rw [h]
    exact paintEffects_onBrackets _
  · rw [h]
    simp

theorem hideEffects_onPanes (p : Preview) : ∀ e ∈ p.hideEffects, e.OnPanes := by
  intro e hmem
  rw [Preview.eq_of_mem_hideEffects hmem]
  trivial

theorem syncPopup_onPanes (s : Session) : ∀ e ∈ (syncPopup s).2, e.OnPanes := by
  rcases syncPopup_cases s with ⟨-, h⟩ | ⟨-, h⟩ | ⟨shown, q, -, -, -, h⟩
  · rw [h]
    simp
  · rw [h]
    simp [Effect.OnPanes]
  · rw [h]
    intro e hmem
    rcases List.mem_append.mp hmem with hhide | hshow
    · exact hideEffects_onPanes s.preview e hhide
    · simp only [List.mem_cons, List.not_mem_nil, or_false] at hshow
      rcases hshow with rfl | rfl | rfl
      · rfl
      · trivial
      · intro m hm
        rw [List.mem_singleton.mp hm]
        rfl

theorem updatePreview_onPanes (setup : Setup) (s : Session) :
    ∀ e ∈ (updatePreview setup s).2, e.OnPanes := by
  rcases updatePreview_cases setup s with h | h | ⟨r, -, h⟩
  · rw [h]
    simp
  · rw [h]
    exact hideEffects_onPanes s.preview
  · rw [h]
    simp [Effect.OnPanes]

theorem rendered_preview_onPanes (ticket : Nat) (result : Rendered Rendering) (s : Session) :
    ∀ e ∈ (rendered (.preview ticket result) s).2, e.OnPanes := by
  rcases rendered_preview_cases ticket result s with ⟨-, h⟩ | ⟨-, h⟩
  · rw [h]
    simp
  · rw [h]
    intro e hmem
    obtain ⟨anchor, -, rfl⟩ := List.mem_map.mp hmem
    cases result <;> trivial

/-- Of a whole refresh only its last step touches the cache and the decorations of brackets. -/
theorem refresh_cases (setup : Setup) (s : Session) :
    ∃ (t : Session) (effects : List Effect), t.buffer = s.buffer ∧ t.cursor = s.cursor ∧
      t.brackets = s.brackets ∧ (∀ e ∈ effects, e.OnPanes) ∧
      refresh setup s = ((refreshBrackets t).1, effects ++ (refreshBrackets t).2) := by
  let opened := updateCompletion setup s
  let previewed := updatePreview setup opened.1
  refine ⟨previewed.1, opened.2 ++ previewed.2, ?_, ?_, ?_, ?_, ?_⟩
  · rw [updatePreview_buffer]
    exact syncPopup_buffer _
  · rw [updatePreview_cursor]
    exact syncPopup_cursor _
  · rw [updatePreview_brackets]
    exact syncPopup_brackets _
  · intro e hmem
    rcases List.mem_append.mp hmem with hmem | hmem
    · exact syncPopup_onPanes _ e hmem
    · exact updatePreview_onPanes setup _ e hmem
  · rw [List.append_assoc]
    rfl

theorem deferRepaint_isSilent (setup : Setup) (s : Session) :
    ∀ e ∈ (deferRepaint setup s).2, e.isSilent := by
  simp only [deferRepaint]
  split <;> simp [Effect.isSilent]

theorem commandEffects_isSilent (s : Session) (command : Command) :
    ∀ e ∈ s.commandEffects command, e.isSilent := by
  cases command with
  | boxEquation => simp [commandEffects, Effect.isSilent]
  | selectEquation => simp [commandEffects, Effect.isSilent]

/-! ### What the small steps ask for

Only a reconsidered preview and a new region ask a renderer. -/

theorem requests_syncPopup (s : Session) : Effect.requests (syncPopup s).2 = [] := by
  rcases syncPopup_cases s with ⟨-, h⟩ | ⟨-, h⟩ | ⟨shown, q, -, -, -, h⟩
  · rw [h]
    rfl
  · rw [h]
    rfl
  · rw [h, Effect.requests_append, Preview.requests_hideEffects]
    rfl

theorem requests_paintEffects (s : Session) : Effect.requests s.paintEffects = [] := by
  rcases paintEffects_cases s with ⟨-, h⟩ | ⟨-, -, h⟩ <;> rw [h] <;> rfl

theorem requests_rendered (reply : RenderReply) (s : Session) :
    Effect.requests (rendered reply s).2 = [] := by
  apply Effect.requests_eq_nil
  intro e hmem
  cases e with
  | request r => exact absurd hmem (request_notMem_rendered reply s r)
  | _ => rfl

theorem requests_deferRepaint (setup : Setup) (s : Session) :
    Effect.requests (deferRepaint setup s).2 = [] := by
  simp only [deferRepaint]
  split <;> rfl

theorem requests_commandEffects (s : Session) (command : Command) :
    Effect.requests (s.commandEffects command) = [] := by
  apply Effect.requests_eq_nil
  cases command with
  | boxEquation => simp [commandEffects, Effect.request?]
  | selectEquation => simp [commandEffects, Effect.request?]

end Session

end MathTyping
