import MathTyping.Proofs.Session.AnswerTiming
import MathTyping.Proofs.Session.Teardown

/-!
# Deferred repaints

A move of the caret asks for a repaint later, under a generation of its own, and each move and
each teardown begins a new generation.  A change of the document does not, so a repaint may
find a document that is newer than the one it was asked for.

The generation of a session counts the events that begin one (`generation_after`).  So the
generations of repaints grow, and one that was superseded never comes back.  A repaint that does
act is harmless: it needs cached pairs, and while pairs are cached their brackets are marked
already, by whichever event brought or moved them (`marked_after`).
-/

namespace MathTyping

namespace Event

/-- Tell whether an event supersedes the repaints that were asked for before: the caret moves, a
range is selected, or the session is taken down. -/
def supersedes : Event → Bool
  | .cursorMoved _ | .selectionChanged _ | .close => true
  | .focus gained => !gained
  | _ => false

end Event

namespace Effect

/-- The generation of the repaint that an effect asks for, if it asks for one. -/
def generation? : Effect → Option Nat
  | .defer _ generation => some generation
  | _ => none

/-- The generations of the repaints that some effects ask for, in order. -/
def deferred (effects : List Effect) : List Nat := effects.filterMap generation?

@[simp] theorem deferred_append (effects more : List Effect) :
    deferred (effects ++ more) = deferred effects ++ deferred more :=
  List.filterMap_append

theorem deferred_eq_nil {effects : List Effect} (h : ∀ e ∈ effects, e.generation? = none) :
    deferred effects = [] :=
  List.filterMap_eq_nil_iff.mpr h

variable {e : Effect}

theorem OnPanes.generation?_eq_none (h : e.OnPanes) : e.generation? = none := by
  cases e <;> first | rfl | exact h.elim

theorem OnBrackets.generation?_eq_none (h : e.OnBrackets) : e.generation? = none := by
  cases e <;> first | rfl | exact h.elim

end Effect

namespace Session

open Effect (deferred deferred_eq_nil)

variable {setup : Setup} {s : Session} {event : Event}

/-! ### Steps within a generation -/

/-- A step stays in the generation and asks for no repaint. -/
def KeepsTime (step : Step) : Prop :=
  ∀ s, (step s).1.generation = s.generation ∧ deferred (step s).2 = []

theorem KeepsTime.andThen {first second : Step} (hfirst : KeepsTime first)
    (hsecond : KeepsTime second) : KeepsTime (andThen first second) := by
  intro s
  obtain ⟨hearlier, hnone⟩ := hfirst s
  obtain ⟨hlater, hlast⟩ := hsecond (first s).1
  refine ⟨hlater.trans hearlier, ?_⟩
  show deferred ((first s).2 ++ (second (first s).1).2) = []
  rw [Effect.deferred_append, hnone, hlast, List.append_nil]

theorem keepsTime_syncPopup : KeepsTime syncPopup := by
  intro s
  refine ⟨?_, deferred_eq_nil fun e hmem => (syncPopup_onPanes s e hmem).generation?_eq_none⟩
  rcases syncPopup_cases s with ⟨-, h⟩ | ⟨-, h⟩ | ⟨shown, q, -, -, -, h⟩ <;> rw [h]

theorem keepsTime_updatePreview (setup : Setup) : KeepsTime (updatePreview setup) := by
  intro s
  refine ⟨?_, deferred_eq_nil fun e hmem =>
    (updatePreview_onPanes setup s e hmem).generation?_eq_none⟩
  rw [updatePreview_fst]

theorem deferred_paintEffects (s : Session) : deferred s.paintEffects = [] :=
  deferred_eq_nil fun e hmem => (paintEffects_onBrackets s e hmem).generation?_eq_none

theorem keepsTime_refreshBrackets : KeepsTime refreshBrackets := fun s =>
  ⟨rfl, deferred_eq_nil fun e hmem => (refreshBrackets_onBrackets s e hmem).generation?_eq_none⟩

theorem keepsTime_refresh (setup : Setup) : KeepsTime (refresh setup) := by
  have hcompletion : KeepsTime (updateCompletion setup) := fun s => keepsTime_syncPopup _
  exact hcompletion.andThen ((keepsTime_updatePreview setup).andThen keepsTime_refreshBrackets)

theorem keepsTime_rendered (reply : RenderReply) : KeepsTime (rendered reply) := by
  intro s
  cases reply with
  | brackets content result =>
      exact ⟨rfl, deferred_eq_nil fun e hmem =>
        (rendered_brackets_onBrackets content result s e hmem).generation?_eq_none⟩
  | preview ticket result =>
      exact ⟨rfl, deferred_eq_nil fun e hmem =>
        (rendered_preview_onPanes ticket result s e hmem).generation?_eq_none⟩

theorem keepsTime_outcome (o : Outcome) (s : Session) :
    (outcome o s).1.generation = s.generation ∧ deferred (outcome o s).2.effects = [] := by
  obtain ⟨hsame, hpopup⟩ := keepsTime_syncPopup s
  refine ⟨hsame, ?_⟩
  rw [outcome]
  dsimp only
  rw [Effect.deferred_append, hpopup, List.append_nil]
  apply deferred_eq_nil
  intro e hmem
  rcases List.mem_append.mp hmem with h | h
  · obtain ⟨n, -, rfl⟩ := List.mem_map.mp h
    rfl
  · obtain ⟨splice, -, rfl⟩ := List.mem_map.mp h
    rfl

/-! ### Events -/

/-- Other events stay in the generation and ask for no repaint. -/
theorem keepsTime_hear (setup : Setup) (hevent : event.supersedes = false) :
    KeepsTime (hear setup event) := by
  intro s
  cases event with
  | changed snapshot => exact keepsTime_refresh setup _
  | keyDown chord =>
      simp only [hear, handle, keyDown]
      split
      · exact keepsTime_outcome _ _
      · split
        · exact ⟨rfl, rfl⟩
        · split <;> exact ⟨rfl, rfl⟩
  | hover index => exact keepsTime_syncPopup _
  | select index => exact keepsTime_outcome _ _
  | repaint generation =>
      refine ⟨rfl, ?_⟩
      simp only [hear, handle]
      split
      · exact deferred_paintEffects s
      · rfl
  | focus gained =>
      cases gained with
      | true => exact ⟨rfl, rfl⟩
      | false => contradiction
  | command command =>
      refine ⟨rfl, deferred_eq_nil fun e hmem => ?_⟩
      cases command with
      | boxEquation =>
          obtain ⟨splice, -, rfl⟩ := List.mem_map.mp hmem
          rfl
      | selectEquation =>
          obtain ⟨range, -, rfl⟩ := List.mem_map.mp hmem
          rfl
  | rendered reply => exact keepsTime_rendered reply s
  | _ => contradiction

/-- A move begins the next generation, and a repaint that it asks for is of that one. -/
theorem generation_cursorMoved (setup : Setup) (cursor : Position) (s : Session) :
    (cursorMoved setup cursor s).1.generation = s.generation + 1 ∧
      (deferred (cursorMoved setup cursor s).2 = [] ∨
        deferred (cursorMoved setup cursor s).2 = [s.generation + 1]) := by
  obtain ⟨hsame, hnone⟩ := keepsTime_refresh setup
    { s with cursor := s.buffer.clamp cursor, selection := none }
  rw [cursorMoved, Session.andThen]
  generalize refresh setup { s with cursor := s.buffer.clamp cursor, selection := none } =
    followed at hsame hnone
  dsimp only at hsame ⊢
  rw [Effect.deferred_append, hnone, List.nil_append, deferRepaint]
  dsimp only
  rw [hsame]
  refine ⟨rfl, ?_⟩
  split
  · exact Or.inr rfl
  · exact Or.inl rfl

theorem generation_hear (setup : Setup) (s : Session) (hevent : event.supersedes) :
    (hear setup event s).1.generation = s.generation + 1 ∧
      (deferred (hear setup event s).2 = [] ∨
        deferred (hear setup event s).2 = [s.generation + 1]) := by
  cases event with
  | cursorMoved cursor => exact generation_cursorMoved setup cursor s
  | selectionChanged range => exact generation_cursorMoved setup (s.buffer.clamp range.stop) s
  | focus gained =>
      obtain rfl : gained = false := by simpa [Event.supersedes] using hevent
      exact ⟨rfl, Or.inl rfl⟩
  | close => exact ⟨rfl, Or.inl rfl⟩
  | _ => contradiction

/-- A repaint that an event asks for is of the generation that the event begins. -/
theorem mem_deferred_hear {generation : Nat}
    (hmem : generation ∈ deferred (hear setup event s).2) :
    generation = s.generation + 1 ∧ generation = (hear setup event s).1.generation := by
  cases hevent : event.supersedes with
  | false =>
      rw [(keepsTime_hear setup hevent s).2] at hmem
      contradiction
  | true =>
      obtain ⟨hnext, hnone | hone⟩ := generation_hear setup s hevent
      · rw [hnone] at hmem
        contradiction
      · rw [hone, List.mem_singleton] at hmem
        exact ⟨hmem, hmem.trans hnext.symm⟩

/-! ### Runs -/

/-- The generation counts the events that begin one.  A counter of 64 bits is enough for fewer
than `2 ^ 64` of them. -/
theorem generation_after (setup : Setup) (events : List Event) :
    (after setup events).generation = events.countP Event.supersedes := by
  induction events using List.reverseRecOn with
  | nil => rfl
  | append_singleton events event ih =>
      rw [after_concat, List.countP_append, List.countP_singleton, ← ih]
      cases hevent : event.supersedes with
      | false => exact (keepsTime_hear setup hevent _).1
      | true => exact (generation_hear setup _ hevent).1

/-- The repaints of a run are of growing generations, up to the one that it has reached. -/
theorem deferred_emitted (setup : Setup) (events : List Event) :
    (deferred (emitted setup events)).Pairwise (· < ·) ∧
      ∀ generation ∈ deferred (emitted setup events),
        generation ≤ (after setup events).generation := by
  induction events using List.reverseRecOn with
  | nil => exact ⟨.nil, fun _ hmem => absurd hmem List.not_mem_nil⟩
  | append_singleton events event ih =>
      obtain ⟨hgrows, hbound⟩ := ih
      rw [emitted_concat, after_concat, Effect.deferred_append]
      cases hevent : event.supersedes with
      | false =>
          obtain ⟨hsame, hnone⟩ := keepsTime_hear setup hevent (after setup events)
          rw [hnone, List.append_nil, hsame]
          exact ⟨hgrows, hbound⟩
      | true =>
          obtain ⟨hnext, hasks⟩ := generation_hear setup (after setup events) hevent
          have hearlier : ∀ generation ∈ deferred (emitted setup events),
              generation < (after setup events).generation + 1 := fun generation hmem =>
            Nat.lt_succ_of_le (hbound generation hmem)
          rw [hnext]
          rcases hasks with hnone | hone
          · rw [hnone, List.append_nil]
            exact ⟨hgrows, fun generation hmem => Nat.le_of_lt (hearlier generation hmem)⟩
          · rw [hone, List.pairwise_append]
            refine ⟨⟨hgrows, List.pairwise_singleton _ _, fun generation hmem last hlast => ?_⟩,
              fun generation hmem => ?_⟩
            · rw [List.mem_singleton.mp hlast]
              exact hearlier generation hmem
            · rcases List.mem_append.mp hmem with hold | hlast
              · exact Nat.le_of_lt (hearlier generation hold)
              · exact Nat.le_of_eq (List.mem_singleton.mp hlast)

/-- A repaint of another generation than the present one does nothing. -/
theorem handle_repaint_of_ne {generation : Nat} (h : generation ≠ s.generation) :
    handle setup s (.repaint generation) = (s, ⟨false, []⟩) := by
  rw [handle, if_neg h]

/-! ### What a repaint does to the screen -/

/-- A repaint gives the decorations of brackets back, in the order of the pairs. -/
theorem decorated_paintEffects {v : Screen} (hmarked : Marked s v.view) :
    (v.applyAll s.paintEffects).view.decorated Highlight.bracketClasses =
      v.view.decorated Highlight.bracketClasses := by
  rcases paintEffects_cases s with ⟨-, hpaint⟩ | ⟨hregion, hpairs, -⟩
  · rw [hpaint]
    rfl
  · have hpainted : Marked s (v.applyAll s.paintEffects).view :=
      marked_paintEffects v fun _ => hregion
    rw [(hpainted hpairs).2, (hmarked hpairs).2]

/-- A repaint changes at most the order of the decorations. -/
theorem highlights_paintEffects {v : Screen} (hmarked : Marked s v.view)
    (hclasses : ∀ m ∈ v.view.highlights, m.className ∈ Highlight.allClasses) :
    (v.applyAll s.paintEffects).highlights.Perm v.highlights := by
  have honBrackets := paintEffects_onBrackets s
  have hlater : ∀ m ∈ (v.applyAll s.paintEffects).view.highlights,
      m.className ∈ Highlight.allClasses :=
    Screen.className_mem_applyAll (fun e hmem => (honBrackets e hmem).addsOnly) hclasses
  have hquery : (v.applyAll s.paintEffects).view.decorated [Highlight.triggerClass] =
      v.view.decorated [Highlight.triggerClass] :=
    v.decorated_applyAll_of_spares fun e hmem => (honBrackets e hmem).spares_trigger
  refine (View.highlights_perm hlater).trans (.trans ?_ (View.highlights_perm hclasses).symm)
  rw [decorated_paintEffects hmarked, hquery]

/-- **Repaints are harmless, and silent once superseded.**  In every run the generations of the
repaints that are asked for grow.  Such a repaint is silent after a later move of the caret, a
later selection or teardown.  And no repaint at all, of this generation or another, changes the
session or a decoration. -/
theorem repaints_harmless (setup : Setup) (events : List Event) :
    (deferred (emitted setup events)).Pairwise (· < ·) ∧
    (∀ event later generation,
      generation ∈ deferred (hear setup event (after setup events)).2 →
      (∃ e ∈ later, e.supersedes) →
        let s := after setup (events ++ event :: later)
        handle setup s (.repaint generation) = (s, ⟨false, []⟩)) ∧
    ∀ generation,
      let repaint := hear setup (.repaint generation) (after setup events)
      repaint.1 = after setup events ∧
        ((screenAfter setup events).applyAll repaint.2).highlights.Perm
          (screenAfter setup events).highlights := by
  refine ⟨(deferred_emitted setup events).1, ?_, fun generation => ⟨rfl, ?_⟩⟩
  · intro event later generation hmem hlater
    have hpositive : 0 < later.countP Event.supersedes := List.countP_pos_iff.mpr hlater
    have hbegun := (mem_deferred_hear hmem).2
    rw [← after_concat, generation_after] at hbegun
    have hcount : (events ++ event :: later).countP Event.supersedes =
        (events ++ [event]).countP Event.supersedes + later.countP Event.supersedes := by
      rw [List.append_cons, List.countP_append]
    refine handle_repaint_of_ne (Nat.ne_of_lt ?_)
    rw [hbegun, generation_after, hcount]
    exact Nat.lt_add_of_pos_right hpositive
  · simp only [hear, handle]
    split
    · exact highlights_paintEffects (marked_after setup events) (className_mem_after setup events)
    · exact .refl _

/-- The caret moves twice in marked brackets. -/
def moveTwice : List Event :=
  askTwice ++ [pairsAnswer] ++ [.cursorMoved ⟨0, 3⟩, .cursorMoved ⟨0, 2⟩]

/-- Of the repaints after two moves the first is superseded, and the second takes the marks away
and gives them back. -/
theorem repaints_of_two_moves :
    deferred (emitted plainSetup moveTwice) = [1, 2] ∧
      handle plainSetup (after plainSetup moveTwice) (.repaint 1) =
        (after plainSetup moveTwice, ⟨false, []⟩) ∧
      (hear plainSetup (.repaint 2) (after plainSetup moveTwice)).2 ≠ [] ∧
      ((screenAfter plainSetup moveTwice).applyAll
          (hear plainSetup (.repaint 2) (after plainSetup moveTwice)).2).highlights.Perm
        (screenAfter plainSetup moveTwice).highlights := by
  have hasked : 1 ∈ deferred (hear plainSetup (.cursorMoved ⟨0, 3⟩)
      (after plainSetup (askTwice ++ [pairsAnswer]))).2 := by
    decide +kernel
  obtain ⟨-, hsilent, -⟩ := repaints_harmless plainSetup (askTwice ++ [pairsAnswer])
  obtain ⟨-, -, hharmless⟩ := repaints_harmless plainSetup moveTwice
  exact ⟨by decide +kernel,
    hsilent _ [.cursorMoved ⟨0, 2⟩] 1 hasked ⟨_, List.mem_singleton_self _, rfl⟩,
    by decide +kernel, (hharmless 2).2⟩

end Session

end MathTyping
