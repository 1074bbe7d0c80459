import MathTyping.Proofs.Buffer.Cuts
import MathTyping.Proofs.Host.Operation
import MathTyping.Render.Local

/-!
# The selection of a host

A selection is made with the caret at its end.  Everything that a session makes a
host do keeps the two together, and so do typing, clicks and loading, which drop
the selection.  But the editor deletes a character and moves the caret over one
without dropping it.

So the caret leaves a selection that stays exactly if one of these keys is let
through while something is selected and there is a character to pass.
-/

namespace MathTyping

namespace Screen

/-- The caret is at the end of the selection, if there is one. -/
def AtCaret (v : Screen) : Prop := ∀ r, v.selection = some r → v.cursor = r.stop

variable {v w : Screen}

theorem atCaret_congr (h : w.document = v.document) : w.AtCaret ↔ v.AtCaret := by
  have hcursor : w.cursor = v.cursor := congrArg (·.2.1) h
  have hselection : w.selection = v.selection := congrArg (·.2.2) h
  rw [AtCaret, AtCaret, hcursor, hselection]

theorem atCaret_of_none (h : v.selection = none) : v.AtCaret := by
  intro r hr
  rw [h] at hr
  contradiction

/-- An effect drops the selection, makes a new one, or leaves it and the caret alone. -/
theorem AtCaret.apply (h : v.AtCaret) (e : Effect) : (v.apply e).1.AtCaret := by
  cases e with
  | splice s => exact atCaret_of_none rfl
  | setSelection range =>
      intro r hr
      rw [← Option.some.inj hr]
      rfl
  | _ => exact h

theorem AtCaret.applyAll (h : v.AtCaret) (effects : List Effect) :
    (v.applyAll effects).AtCaret := by
  induction effects generalizing v with
  | nil => exact h
  | cons e effects ih => exact ih (h.apply e)

end Screen

namespace Host

open Screen (AtCaret)

variable {env : HostSetup} {h : Host} {event : Event}

/-! ### What a session makes a host do -/

theorem atCaret_step (env : HostSetup) (event : Event) (hcaret : h.screen.AtCaret) :
    (h.step env event).1.screen.AtCaret := by
  rw [screen_step]
  exact hcaret.applyAll _

theorem atCaret_tell (env : HostSetup) (event : Event) (hcaret : h.screen.AtCaret) :
    (h.tell env event).screen.AtCaret :=
  run_keeps (P := fun h => h.screen.AtCaret) (fun _ event => atCaret_step env event) hcaret

/-- What is told of a change leaves the selection and the caret as the change has put them. -/
theorem atCaret_tell_report (env : HostSetup) (hevent : event.isReport) :
    (h.tell env event).screen.AtCaret ↔ h.screen.AtCaret := by
  rw [tell_report env h hevent]
  exact Screen.atCaret_congr (step_report env h hevent).1

/-! ### What the editor does itself -/

/-- Tell whether the editor passes a character on its own and leaves a selection behind. -/
def strands (v : Screen) (chord : Chord) : Bool :=
  chord.key.passes && v.selection.isSome && (defaultAction v chord).isSome

/-- Passing a character moves the caret and keeps the selection. -/
theorem moved_of_passes {v w : Screen} {chord : Chord} (hpasses : chord.key.passes = true)
    (haction : defaultAction v chord = some (w, event)) :
    w.selection = v.selection ∧ w.cursor ≠ v.cursor := by
  -- A caret inside a surrogate pair counts as behind the pair, so bytes tell places apart.
  have hmoved : ∀ {p : Position}, v.buffer.toByte p ≠ v.buffer.toByte v.cursor → p ≠ v.cursor :=
    fun hbyte hsame => hbyte (congrArg _ hsame)
  rcases defaultAction_cases haction with
    ⟨htypes, -⟩ | ⟨c, -, hc, rfl, -⟩ | ⟨c, -, hc, rfl, -⟩ | ⟨c, -, hc, rfl, -⟩
  · rw [htypes] at hpasses
    contradiction
  · have hbyte := Buffer.toByte_before hc
    have hpos := c.utf8Size_pos
    refine ⟨rfl, hmoved ?_⟩
    dsimp only
    rw [Buffer.afterReplace_before hc]
    omega
  · have hbyte := Buffer.toByte_before hc
    have hpos := c.utf8Size_pos
    exact ⟨rfl, hmoved (by dsimp only; omega)⟩
  · have hbyte := Buffer.toByte_behind hc
    have hpos := c.utf8Size_pos
    exact ⟨rfl, hmoved (by dsimp only; omega)⟩

/-- After an action of the editor the caret is at the end of the selection, unless the editor
has passed a character. -/
theorem atCaret_defaultAction {v w : Screen} {chord : Chord} (hcaret : v.AtCaret)
    (haction : defaultAction v chord = some (w, event)) :
    w.AtCaret ↔ strands v chord = false := by
  cases hpasses : chord.key.passes with
  | false =>
      rcases defaultAction_cases haction with
        ⟨-, text, rfl, -⟩ | ⟨c, hkey, -⟩ | ⟨c, hkey, -⟩ | ⟨c, hkey, -⟩
      · exact iff_of_true (Screen.atCaret_of_none rfl) (by rw [strands, hpasses]; rfl)
      all_goals
        rw [hkey] at hpasses
        contradiction
  | true =>
      obtain ⟨hkept, hmoved⟩ := moved_of_passes hpasses haction
      have hstrands : strands v chord = v.selection.isSome := by simp [strands, hpasses, haction]
      rw [hstrands]
      cases hselection : v.selection with
      | none => exact iff_of_true (Screen.atCaret_of_none (hkept.trans hselection)) rfl
      | some r =>
          refine iff_of_false (fun hlater => hmoved ?_) Bool.true_eq_false.mp
          exact (hlater r (hkept.trans hselection)).trans (hcaret r hselection).symm

/-- Tell whether a key is let through with which the editor leaves a selection behind. -/
def keyStrands (env : HostSetup) (h : Host) (chord : Chord) : Bool :=
  let (ran, handled) := h.run env (.keyDown chord)
  !handled && strands ran.screen chord

theorem atCaret_press (env : HostSetup) (chord : Chord) (hcaret : h.screen.AtCaret) :
    (h.press env chord).1.screen.AtCaret ↔ keyStrands env h chord = false := by
  have hran : (h.run env (.keyDown chord)).1.screen.AtCaret := atCaret_tell env _ hcaret
  have hkey : keyStrands env h chord =
      (!(h.run env (.keyDown chord)).2 && strands (h.run env (.keyDown chord)).1.screen chord) :=
    rfl
  rw [hkey]
  rcases press_cases env h chord with ⟨hover, hpress⟩ | ⟨w, event, hlet, haction, hpress⟩
  · rw [hpress]
    refine iff_of_true hran ?_
    rcases hover with hhandled | hnothing
    · simp [hhandled]
    · simp [strands, hnothing]
  · rw [hpress, atCaret_tell_report env (isReport_defaultAction haction), hlet, Bool.not_false,
      Bool.true_and]
    exact atCaret_defaultAction hran haction

/-- A key that types leaves no selection behind. -/
theorem keyStrands_of_typed (env : HostSetup) (h : Host) (c : Char) :
    keyStrands env h (.plain (.char c)) = false := by
  simp [keyStrands, strands, Chord.plain, Key.passes]

/-! ### Operations -/

/-- Tell whether an operation is a key with which the editor leaves a selection behind. -/
def Operation.strands (env : HostSetup) (h : Host) : Operation → Bool
  | .press chord => keyStrands env h (Chord.ofText chord)
  | .key chord => keyStrands env h chord
  | _ => false

theorem atCaret_load (env : HostSetup) (h : Host) (text : Text) (cursor : Position) :
    (h.load env text cursor).screen.AtCaret :=
  (atCaret_tell_report env rfl).mpr (Screen.atCaret_of_none rfl)

/-- An operation leaves the caret at the end of the selection unless it passes a character. -/
theorem atCaret_perform (env : HostSetup) (operation : Operation) (hcaret : h.screen.AtCaret) :
    (h.perform env operation).screen.AtCaret ↔ operation.strands env h = false := by
  cases operation with
  | press chord => exact atCaret_press env _ hcaret
  | key chord => exact atCaret_press env chord hcaret
  | openMarked marked =>
      refine iff_of_true ?_ rfl
      simp only [perform, openMarked]
      split <;> exact atCaret_load env h _ _
  | load text cursor => exact iff_of_true (atCaret_load env h text cursor) rfl
  | typeText text =>
      have hpress : ∀ (host : Host) c, host.screen.AtCaret →
          (host.press env (.plain (.char c))).1.screen.AtCaret := fun host c hkept =>
        (atCaret_press env _ hkept).mpr (keyStrands_of_typed env host c)
      refine iff_of_true ?_ rfl
      exact typeText_keeps (P := fun host => host.screen.AtCaret) text hpress hcaret
  | click p =>
      exact iff_of_true ((atCaret_tell_report env rfl).mpr (Screen.atCaret_of_none rfl)) rfl
  | select range =>
      refine iff_of_true ((atCaret_tell_report env rfl).mpr fun r hr => ?_) rfl
      rw [← Option.some.inj hr]
  | hover index => exact iff_of_true (atCaret_tell env _ hcaret) rfl
  | choose index => exact iff_of_true (atCaret_tell env _ hcaret) rfl
  | command command => exact iff_of_true (atCaret_tell env _ hcaret) rfl
  | blur => exact iff_of_true (atCaret_tell env _ hcaret) rfl
  | settle =>
      have htell : ∀ (host : Host) generation, host.screen.AtCaret →
          (host.tell env (.repaint generation)).screen.AtCaret := fun _ _ hkept =>
        atCaret_tell env _ hkept
      exact iff_of_true (settle_keeps (P := fun host => host.screen.AtCaret) htell hcaret) rfl

/-- **The selection dies with the caret, but for keys that pass a character.**  All along some
operations the caret is at the end of the selection, if there is one, exactly if the editor
never deletes a character or moves the caret over one while something is selected. -/
theorem caret_at_selection_iff (setup : Setup) (turns : List (Renderer × Operation)) :
    (∀ passed, passed <+: turns → (after setup passed).screen.AtCaret) ↔
      ∀ passed turn, passed ++ [turn] <+: turns →
        turn.2.strands ⟨setup, turn.1⟩ (after setup passed) = false := by
  constructor
  · intro hcaret passed turn hpassed
    have hearlier := hcaret passed ((List.prefix_append passed [turn]).trans hpassed)
    have hlater := hcaret (passed ++ [turn]) hpassed
    rw [after_concat] at hlater
    exact (atCaret_perform ⟨setup, turn.1⟩ turn.2 hearlier).mp hlater
  · intro hkept passed hpassed
    induction passed using List.reverseRecOn with
    | nil => exact Screen.atCaret_of_none rfl
    | append_singleton passed turn ih =>
        have hearlier := ih ((List.prefix_append passed [turn]).trans hpassed)
        rw [after_concat]
        exact (atCaret_perform ⟨setup, turn.1⟩ turn.2 hearlier).mpr (hkept passed turn hpassed)

/-- Two characters are selected, and the caret moves back over one of them. -/
def moveOffSelection : List (Renderer × Operation) :=
  [(LocalRenderer.renderer, .load "abc".toList ⟨0, 0⟩),
    (LocalRenderer.renderer, .select ⟨⟨0, 0⟩, ⟨0, 2⟩⟩),
    (LocalRenderer.renderer, .key (.plain .left))]

/-- The selection stays while the caret leaves it, and what is typed next replaces it. -/
theorem selection_outlives_caret :
    (after Session.plainSetup moveOffSelection).screen.selection = some ⟨⟨0, 0⟩, ⟨0, 2⟩⟩ ∧
      (after Session.plainSetup moveOffSelection).screen.cursor = ⟨0, 1⟩ ∧
      (after Session.plainSetup (moveOffSelection ++
        [(LocalRenderer.renderer, .typeText ['x'])])).screen.buffer.text = "xc".toList := by
  simp only [after, moveOffSelection, List.cons_append, List.nil_append, List.foldl_cons,
    List.foldl_nil, perform, load, select, press, typeText, tell, run_eq]
  decide +kernel

end Host

end MathTyping
