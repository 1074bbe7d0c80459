import MathTyping.Proofs.Host.Reports

/-!
# The operations of a user

A user edits, moves, selects, points and waits.  Each operation is one event, or a
few in turn; only a key that the session lets through is handled by the editor
itself, and `defaultAction_cases` lists all that the editor then does.
-/

namespace MathTyping

/-- Tell whether an editor deletes a character with a key, or moves the caret over one. -/
def Key.passes : Key → Bool
  | .backspace | .left | .right => true
  | _ => false

namespace Host

/-! ### Keys that the editor handles itself -/

/-- A key that types passes no character. -/
theorem passes_of_typed? {chord : Chord} {c : Char} (h : chord.typed? = some c) :
    chord.key.passes = false := by
  rw [Chord.key_of_typed? h]
  rfl

/-- What the editor does with a key: it types a text, deletes the character before the caret, or
moves the caret over the one before or behind it. -/
theorem defaultAction_cases {v w : Screen} {chord : Chord} {event : Event}
    (h : defaultAction v chord = some (w, event)) :
    let byte := v.buffer.toByte v.cursor
    (chord.key.passes = false ∧ ∃ text, w = insert v text ∧ event = .changed w.snapshot) ∨
    (∃ c, chord.key = .backspace ∧ (Text.takeBytes byte v.buffer.text).getLast? = some c ∧
      let range : Range := ⟨v.buffer.ofByte (byte - c.utf8Size), v.cursor⟩
      w = { v with
        buffer := v.buffer.replace range []
        cursor := v.buffer.afterReplace range [] } ∧ event = .changed w.snapshot) ∨
    (∃ c, chord.key = .left ∧ (Text.takeBytes byte v.buffer.text).getLast? = some c ∧
      w = { v with cursor := v.buffer.ofByte (byte - c.utf8Size) } ∧
        event = .cursorMoved w.cursor) ∨
    ∃ c, chord.key = .right ∧ (Text.dropBytes byte v.buffer.text).head? = some c ∧
      w = { v with cursor := v.buffer.ofByte (byte + c.utf8Size) } ∧
        event = .cursorMoved w.cursor := by
  intro byte
  rw [defaultAction] at h
  split at h
  · rename_i c htyped
    obtain ⟨rfl, rfl⟩ := Prod.mk.inj (Option.some.inj h)
    exact Or.inl ⟨passes_of_typed? htyped, _, rfl, rfl⟩
  · dsimp only at h
    split at h
    · rename_i hkey
      obtain ⟨rfl, rfl⟩ := Prod.mk.inj (Option.some.inj h)
      exact Or.inl ⟨by rw [hkey]; rfl, _, rfl, rfl⟩
    · rename_i hkey
      obtain ⟨rfl, rfl⟩ := Prod.mk.inj (Option.some.inj h)
      exact Or.inl ⟨by rw [hkey]; rfl, _, rfl, rfl⟩
    · rename_i hkey
      obtain ⟨c, hc, haction⟩ := Option.bind_eq_some_iff.mp h
      obtain ⟨rfl, rfl⟩ := Prod.mk.inj (Option.some.inj haction)
      exact Or.inr (Or.inl ⟨c, hkey, hc, rfl, rfl⟩)
    · rename_i hkey
      obtain ⟨c, hc, haction⟩ := Option.bind_eq_some_iff.mp h
      obtain ⟨rfl, rfl⟩ := Prod.mk.inj (Option.some.inj haction)
      exact Or.inr (Or.inr (Or.inl ⟨c, hkey, hc, rfl, rfl⟩))
    · rename_i hkey
      obtain ⟨c, hc, haction⟩ := Option.bind_eq_some_iff.mp h
      obtain ⟨rfl, rfl⟩ := Prod.mk.inj (Option.some.inj haction)
      exact Or.inr (Or.inr (Or.inr ⟨c, hkey, hc, rfl, rfl⟩))
    · contradiction

theorem isReport_defaultAction {v w : Screen} {chord : Chord} {event : Event}
    (h : defaultAction v chord = some (w, event)) : event.isReport := by
  rcases defaultAction_cases h with
    ⟨-, text, -, rfl⟩ | ⟨c, -, -, -, rfl⟩ | ⟨c, -, -, -, rfl⟩ | ⟨c, -, -, -, rfl⟩ <;> rfl

/-- A key press is over if the session takes the key or the editor does nothing with it; else the
editor reports its own action. -/
theorem press_cases (env : HostSetup) (h : Host) (chord : Chord) :
    let ran := h.run env (.keyDown chord)
    ((ran.2 = true ∨ defaultAction ran.1.screen chord = none) ∧ (h.press env chord).1 = ran.1) ∨
    ∃ w event, ran.2 = false ∧ defaultAction ran.1.screen chord = some (w, event) ∧
      (h.press env chord).1 = tell env { ran.1 with screen := w } event := by
  dsimp only
  rw [press]
  generalize h.run env (.keyDown chord) = ran
  obtain ⟨host, handled⟩ := ran
  cases handled with
  | true => exact Or.inl ⟨Or.inl rfl, rfl⟩
  | false =>
      dsimp only
      cases haction : defaultAction host.screen chord with
      | none => exact Or.inl ⟨Or.inr rfl, rfl⟩
      | some action => exact Or.inr ⟨action.1, action.2, rfl, rfl, rfl⟩

/-- What every key of a text keeps, typing the text keeps. -/
theorem typeText_keeps {P : Host → Prop} {env : HostSetup} {h : Host} (text : Text)
    (hpress : ∀ host c, P host → P (host.press env (.plain (.char c))).1) (hstart : P h) :
    P (h.typeText env text) := by
  induction text generalizing h with
  | nil => exact hstart
  | cons c text ih => exact ih (hpress h c hstart)

/-- What every repaint keeps, letting the delays elapse keeps. -/
theorem settle_keeps {P : Host → Prop} {env : HostSetup} {h : Host}
    (htell : ∀ host generation, P host → P (host.tell env (.repaint generation)))
    (hstart : P { h with deferred := [] }) : P (h.settle env) := by
  rw [settle]
  generalize { h with deferred := [] } = host at hstart ⊢
  induction h.deferred generalizing host with
  | nil => exact hstart
  | cons generation due ih => exact ih _ (htell host generation hstart)

/-! ### Operations -/

/-- What a user does with an editor. -/
inductive Operation where
  | openMarked (marked : Text)
  | load (text : Text) (cursor : Position)
  | typeText (text : Text)
  | press (chord : Text)
  | key (chord : Chord)
  | click (p : Position)
  | select (range : Range)
  | hover (index : Nat)
  | choose (index : Nat)
  | command (command : Command)
  | blur
  | settle

/-- Carry out an operation. -/
def perform (env : HostSetup) (h : Host) : Operation → Host
  | .openMarked marked => h.openMarked env marked
  | .load text cursor => h.load env text cursor
  | .typeText text => h.typeText env text
  | .press chord => (h.press env (Chord.ofText chord)).1
  | .key chord => (h.press env chord).1
  | .click p => h.click env p
  | .select range => h.select env range
  | .hover index => h.tell env (.hover index)
  | .choose index => h.tell env (.select index)
  | .command command => h.tell env (.command command)
  | .blur => h.tell env (.focus false)
  | .settle => h.settle env

/-- The host after some operations.  A renderer may answer differently in each of them. -/
def after (setup : Setup) (turns : List (Renderer × Operation)) : Host :=
  turns.foldl (fun h (renderer, operation) => h.perform ⟨setup, renderer⟩ operation) .initial

theorem after_concat (setup : Setup) (turns : List (Renderer × Operation))
    (turn : Renderer × Operation) :
    after setup (turns ++ [turn]) = (after setup turns).perform ⟨setup, turn.1⟩ turn.2 := by
  rw [after, List.foldl_append]
  rfl

end Host

end MathTyping
