import MathTyping.Proofs.Session.BracketMarks

/-!
# Taking a session down

Closing the editor and leaving it take a session down.  Every class of
decorations that a session ever uses is in the list that goes then, so nothing
is left on the screen.

Bracket pairs, previews and repaints that were asked for before may still arrive,
and so may the pointer.  A session that was taken down is at rest: it holds no
region, waits for no ticket and offers no candidates, so each of them finds
nothing to act on, and the session stays at rest however many of them come.
-/

namespace MathTyping

namespace Event

/-- Tell whether an event acts only on what a session holds: an answer, a repaint, the
pointer on a candidate, or the return of the focus. -/
def isAftermath : Event → Bool
  | .rendered _ | .repaint _ | .hover _ | .select _ => true
  | .focus gained => gained
  | _ => false

end Event

namespace Session

/-- No popup is open, no region is cached and no preview is waited for. -/
structure AtRest (s : Session) : Prop where
  completion : s.completion = .idle
  popup : s.popup = none
  brackets : s.brackets = .empty
  pending : s.preview.pending = none

theorem atRest_close (s : Session) : AtRest (close s).1 := ⟨rfl, rfl, rfl, rfl⟩

namespace AtRest

variable {s : Session}

theorem syncPopup_eq (h : AtRest s) : syncPopup s = (s, []) := by
  rw [syncPopup, h.completion, h.popup]
  rfl

theorem paintEffects_eq_nil (h : AtRest s) : s.paintEffects = [] := by
  rw [paintEffects, h.brackets]
  rfl

/-- No answer is for what a session at rest holds. -/
theorem rendered_eq (h : AtRest s) (reply : RenderReply) : rendered reply s = (s, []) := by
  cases reply with
  | brackets content result =>
      rcases rendered_brackets_cases content result s with
        ⟨-, hdropped⟩ | ⟨pairs, hholds, -⟩ | ⟨diagnostics, hholds, -⟩
      · exact hdropped
      · rw [h.brackets] at hholds
        contradiction
      · rw [h.brackets] at hholds
        contradiction
  | preview ticket result =>
      rcases rendered_preview_cases ticket result s with ⟨-, hdropped⟩ | ⟨hpending, -⟩
      · exact hdropped
      · rw [h.pending] at hpending
        contradiction

/-- What comes after the teardown is left to the editor and changes nothing. -/
theorem handle_eq (h : AtRest s) (setup : Setup) {event : Event} (hevent : event.isAftermath) :
    handle setup s event = (s, ⟨false, []⟩) := by
  -- The pointer finds no candidate, so the popup stays as it is.
  have hsame : { s with completion := .idle } = s := by rw [← h.completion]
  cases event with
  | rendered reply => rw [handle, unhandled, h.rendered_eq reply]
  | repaint generation =>
      rw [handle, h.paintEffects_eq_nil]
      simp
  | hover index =>
      rw [handle, h.completion, Completion.hover, hsame, unhandled, h.syncPopup_eq]
  | select index =>
      rw [handle, select, h.completion, Completion.choose]
      show outcome .pass { s with completion := .idle } = _
      rw [hsame, outcome, h.syncPopup_eq]
      rfl
  | focus gained =>
      obtain rfl : gained = true := hevent
      rfl
  | _ => contradiction

/-- However much of it comes, the session stays as it is and says nothing. -/
theorem run_eq (h : AtRest s) (setup : Setup) {later : List Event}
    (hlater : ∀ e ∈ later, e.isAftermath) : run (hear setup) later s = (s, []) := by
  induction later with
  | nil => rfl
  | cons event later ih =>
      have hheard : hear setup event s = (s, []) := by
        rw [hear, h.handle_eq setup (hlater event List.mem_cons_self)]
      rw [run, andThen, hheard]
      simp only [ih fun e hmem => hlater e (List.mem_cons_of_mem event hmem), List.append_nil]

end AtRest

/-- After every run all decorations have known classes. -/
theorem className_mem_after (setup : Setup) (events : List Event) :
    ∀ m ∈ (screenAfter setup events).view.highlights, m.className ∈ Highlight.allClasses := by
  induction events using List.reverseRecOn with
  | nil => simp [screenAfter, emitted, run, Screen.applyAll, Screen.view, Screen.initial]
  | append_singleton events event ih =>
      rw [screenAfter_concat]
      exact Screen.className_mem_applyAll (hear_addsOnly setup event _) ih

/-- Taking a session down clears a screen on which all decorations have known classes. -/
theorem view_close {v : Screen} (s : Session)
    (hknown : ∀ m ∈ v.view.highlights, m.className ∈ Highlight.allClasses) :
    (v.applyAll (close s).2).view = ⟨none, none, []⟩ := by
  have hnone : (v.highlights.filter fun m => !Highlight.allClasses.contains m.className) = [] := by
    rw [List.filter_eq_nil_iff]
    intro m hmem
    simpa using hknown m hmem
  show View.mk none none
    (v.highlights.filter fun m => !Highlight.allClasses.contains m.className) = _
  rw [hnone]

/-- **The teardown is complete and quiet.**  After every run, closing or leaving the editor
leaves no popup, no preview and no decoration.  Of the answers, repaints, moves and clicks of
the pointer and returns of the focus that follow, in any number and order, each is left to the
editor without any effect, and the session does not change. -/
theorem teardown_complete_and_quiet (setup : Setup) (events : List Event) (event : Event)
    (hevent : event = .close ∨ event = .focus false) :
    let s := after setup (events ++ [event])
    let v := screenAfter setup (events ++ [event])
    v.popup = none ∧ v.preview = none ∧ v.highlights = [] ∧
      ∀ later : List Event, (∀ e ∈ later, e.isAftermath) →
        ∀ passed e, passed ++ [e] <+: later →
          handle setup (after setup (events ++ [event] ++ passed)) e = (s, ⟨false, []⟩) := by
  intro s v
  have hheard : ∀ t, hear setup event t = close t := by
    intro t
    rcases hevent with rfl | rfl <;> rfl
  have hview : v.view = ⟨none, none, []⟩ := by
    show (screenAfter setup (events ++ [event])).view = _
    rw [screenAfter_concat, hheard]
    exact view_close _ (className_mem_after setup events)
  have hrest : AtRest s := by
    show AtRest (after setup (events ++ [event]))
    rw [after_concat, hheard]
    exact atRest_close _
  refine ⟨congrArg View.popup hview, congrArg View.preview hview,
    congrArg View.highlights hview, ?_⟩
  intro later hlater passed e hpassed
  have hkept : after setup (events ++ [event] ++ passed) = s := by
    have hquiet : ∀ f ∈ passed, f.isAftermath := fun f hf =>
      hlater f (hpassed.subset (List.mem_append_left _ hf))
    rw [after, run_append]
    show (run (hear setup) passed s).1 = s
    rw [hrest.run_eq setup hquiet]
  rw [hkept]
  exact hrest.handle_eq setup (hlater e (hpassed.subset (by simp)))

/-- What may still arrive once the focus is lost: the pointer, a repaint, the focus, and the
answer for a preview. -/
def lateArrivals : List Event :=
  [.hover 0, .repaint 0, .select 0, .focus true, .rendered (.preview 2 (.ok ⟨"svg".toList, []⟩))]

/-- Brackets are marked and a preview is waited for when the focus is lost.  The marks go, and
the preview that arrives last is dropped. -/
theorem late_preview_dropped_after_blur :
    let events := askTwice ++ [pairsAnswer]
    (screenAfter plainSetup events).highlights ≠ [] ∧
      (after plainSetup events).preview.pending = some 2 ∧
      (screenAfter plainSetup (events ++ [.focus false])).highlights = [] ∧
      handle plainSetup (after plainSetup (events ++ [.focus false] ++ lateArrivals.dropLast))
          (.rendered (.preview 2 (.ok ⟨"svg".toList, []⟩))) =
        (after plainSetup (events ++ [.focus false]), ⟨false, []⟩) := by
  intro events
  obtain ⟨-, -, hmarks, hquiet⟩ :=
    teardown_complete_and_quiet plainSetup events (.focus false) (Or.inr rfl)
  have hlate : ∀ e ∈ lateArrivals, e.isAftermath := by simp [lateArrivals, Event.isAftermath]
  exact ⟨by decide +kernel, by decide +kernel, hmarks,
    hquiet lateArrivals hlate lateArrivals.dropLast _ (List.prefix_refl lateArrivals)⟩

end Session

end MathTyping
