import Mathlib.Data.List.Induction
import MathTyping.Proofs.Screen
import MathTyping.Scripts

/-!
# Runs of a session

A session hears events one at a time.  A run is the composition of the steps
that answer them; it gives the last session and all effects, oldest first, and
the screen after a run is that of a host that has carried out every effect.

An invariant of runs relates a session to the view of such a screen.  `Leads`
says that a step takes one relation to another, and `Passes` that the effects of
a step show only safe views on the way.  Both compose along `andThen`, so an
invariant is checked on the small steps of which an answer is built.
-/

namespace MathTyping

namespace Session

/-- The step that answers an event. -/
def hear (setup : Setup) (event : Event) : Step := fun s =>
  let (t, reaction) := handle setup s event
  (t, reaction.effects)

/-- Take the steps of a list of events in turn. -/
def run (step : Event → Step) : List Event → Step
  | [] => fun s => (s, [])
  | event :: events => andThen (step event) (run step events)

/-- The session after a list of events. -/
def after (setup : Setup) (events : List Event) : Session :=
  (run (hear setup) events .initial).1

/-- All effects of a list of events. -/
def emitted (setup : Setup) (events : List Event) : List Effect :=
  (run (hear setup) events .initial).2

/-- The screen of a host that has carried out all effects of a list of events. -/
def screenAfter (setup : Setup) (events : List Event) : Screen :=
  Screen.initial.applyAll (emitted setup events)

/-- The standard configuration, without symbols and scripts. -/
def plainSetup : Setup := ⟨.standard, .empty, noScripts⟩

theorem run_append (step : Event → Step) (events more : List Event) (s : Session) :
    run step (events ++ more) s = andThen (run step events) (run step more) s := by
  induction events generalizing s with
  | nil => rfl
  | cons event events ih =>
      rw [List.cons_append]
      show ((run step (events ++ more) (step event s).1).1,
        (step event s).2 ++ (run step (events ++ more) (step event s).1).2) = _
      rw [ih]
      simp [andThen, run]

/-- The last event of a run answers on the session before it. -/
theorem run_concat (step : Event → Step) (events : List Event) (event : Event) (s : Session) :
    run step (events ++ [event]) s =
      ((step event (run step events s).1).1,
        (run step events s).2 ++ (step event (run step events s).1).2) := by
  rw [run_append]
  simp [andThen, run]

theorem after_concat (setup : Setup) (events : List Event) (event : Event) :
    after setup (events ++ [event]) = (hear setup event (after setup events)).1 := by
  rw [after, run_concat]
  rfl

theorem emitted_concat (setup : Setup) (events : List Event) (event : Event) :
    emitted setup (events ++ [event]) =
      emitted setup events ++ (hear setup event (after setup events)).2 := by
  rw [emitted, run_concat]
  rfl

theorem screenAfter_concat (setup : Setup) (events : List Event) (event : Event) :
    screenAfter setup (events ++ [event]) =
      (screenAfter setup events).applyAll (hear setup event (after setup events)).2 := by
  rw [screenAfter, emitted_concat, Screen.applyAll_append]
  rfl

/-! ### Conditions that steps preserve -/

/-- A relation between a session and the view that a host has of it. -/
abbrev Condition := Session → View → Prop

/-- A step leads from a condition to another, once its effects are carried out. -/
def Leads (before : Condition) (step : Step) (later : Condition) : Prop :=
  ∀ (s : Session) (v : Screen), before s v.view → later (step s).1 (v.applyAll (step s).2).view

/-- A step passes only through safe views while its effects are carried out. -/
def Passes (before : Condition) (step : Step) (safe : View → Prop) : Prop :=
  ∀ (s : Session) (v : Screen), before s v.view → v.Throughout safe (step s).2

section Leads

variable {P Q R : Condition}

theorem Leads.andThen {first second : Step} (hfirst : Leads P first Q)
    (hsecond : Leads Q second R) : Leads P (andThen first second) R := by
  intro s v hP
  show R (second (first s).1).1 (v.applyAll ((first s).2 ++ (second (first s).1).2)).view
  rw [Screen.applyAll_append]
  exact hsecond _ _ (hfirst s v hP)

theorem Passes.andThen {first second : Step} {safe : View → Prop} (hfirst : Passes P first safe)
    (hleads : Leads P first Q) (hsecond : Passes Q second safe) :
    Passes P (andThen first second) safe := by
  intro s v hP
  exact Screen.throughout_append (hfirst s v hP) (hsecond _ _ (hleads s v hP))

/-- What every event preserves holds after every run. -/
theorem condition_after {setup : Setup} (hstart : P .initial Screen.initial.view)
    (hstep : ∀ event, Leads P (hear setup event) P) (events : List Event) :
    P (after setup events) (screenAfter setup events).view := by
  induction events using List.reverseRecOn with
  | nil => exact hstart
  | append_singleton events event ih =>
      rw [after_concat, screenAfter_concat]
      exact hstep event _ _ ih

end Leads

end Session

end MathTyping
