import MathTyping.Proofs.Buffer.Places
import MathTyping.Proofs.Session.Coherence
import MathTyping.Proofs.Session.OpenPopup

/-!
# Reached sessions

The configuration and the symbols stay for the life of a session, but a host may run a script
twice and get two answers.  A session is reached if some events lead to it, whatever scripts
answered on the way; the sessions after a run (`after`) are those reached with one evaluator.

Invariants of single answers carry over, because an answer does not know which evaluator the
one before it had.
-/

namespace MathTyping

namespace Session

/-- The sessions to which events lead.  What the scripts answer may change from one event to the
next. -/
inductive Reached (config : Config) (symbols : SymbolIndex) : Session → Prop
  | initial : Reached config symbols .initial
  | heard {s : Session} (h : Reached config symbols s) (evaluate : Evaluator) (event : Event) :
      Reached config symbols (hear ⟨config, symbols, evaluate⟩ event s).1

variable {config : Config} {symbols : SymbolIndex} {s : Session}

theorem reached_after (setup : Setup) (events : List Event) :
    Reached setup.config setup.symbols (after setup events) := by
  induction events using List.reverseRecOn with
  | nil => exact .initial
  | append_singleton events event ih =>
      rw [after_concat]
      exact .heard ih setup.evaluate event

/-- Some host is in step with a reached session. -/
theorem Reached.exists_inStep (h : Reached config symbols s) : ∃ v : Screen, InStep s v.view := by
  induction h with
  | initial => exact ⟨.initial, inStep_initial⟩
  | heard h evaluate event ih =>
      obtain ⟨v, hv⟩ := ih
      exact ⟨_, inStep_hear ⟨_, _, evaluate⟩ event _ v hv⟩

/-- The popup last shown is that of the state. -/
theorem Reached.synced (h : Reached config symbols s) :
    s.popup = PopupView.of? s.completion := by
  obtain ⟨v, hv⟩ := h.exists_inStep
  exact hv.synced

/-- The caret is a place of the document. -/
theorem Reached.clamp_cursor (h : Reached config symbols s) :
    s.buffer.clamp s.cursor = s.cursor := by
  induction h with
  | initial => rfl
  | heard h evaluate event ih =>
      rcases computed_or_kept_hear ⟨_, _, evaluate⟩ event _ with ⟨⟨p, hcursor⟩, -⟩ | hkept
      · rw [hcursor]
        exact Buffer.clamp_clamp _ p
      · rw [hkept.buffer, hkept.cursor]
        exact ih

end Session

end MathTyping
