import Mathlib.Data.List.Induction
import MathTyping.CodeContext
import MathTyping.Proofs.Region.Gaps

/-!
# Spans of code by their backticks

Two readings of a line decide what is escaped.  The search for math counts the backslashes right
before a character, backwards from it; the search for code reads a line once, with a flag that
every backslash turns over and every other character clears.

The flag is what the count would give for the text read so far (`ticksFrom_append`), so the two
agree about every backtick, and a cursor is in a span of code exactly if an odd number of
backticks before it are not escaped.
-/

namespace MathTyping

namespace CodeContext

open Text (Unescaped escapedAfter unescaped_iff)

/-- The flag of the pass over a text goes on with the text read so far. -/
theorem ticksFrom_append (seen p t : Text) :
    ticksFrom (escapedAfter seen) (p ++ t) =
      ticksFrom (escapedAfter seen) p + ticksFrom (escapedAfter (p.reverse ++ seen)) t := by
  -- The text read so far grows by the character whose turn it is.
  induction p generalizing seen with
  | nil => rw [List.nil_append, List.reverse_nil, List.nil_append, ticksFrom, Nat.zero_add]
  | cons c p ih =>
      have hread : (c :: p).reverse ++ seen = p.reverse ++ c :: seen := by simp
      have hnext := ih (c :: seen)
      rw [hread, List.cons_append, ticksFrom, ticksFrom]
      by_cases hslash : c = '\\'
      · subst hslash
        rw [Text.escapedAfter_backslash] at hnext
        rw [if_pos rfl, if_pos rfl, hnext]
      · rw [Text.escapedAfter_of_ne c seen hslash] at hnext
        rw [if_neg hslash, if_neg hslash, hnext]
        split <;> omega

/-- The pass counts a backtick exactly if it is not escaped, and goes on without the flag. -/
theorem ticksFrom_tick (p t : Text) :
    ticksFrom false (p ++ '\x60' :: t) =
      ticksFrom false p + (if escapedAfter p.reverse = false then 1 else 0) +
        ticksFrom false t := by
  have happend := ticksFrom_append [] p ('\x60' :: t)
  rw [Text.escapedAfter_nil, List.append_nil] at happend
  rw [happend, ticksFrom]
  cases escapedAfter p.reverse with
  | true => simp
  | false =>
      simp
      omega

theorem ticksFrom_concat_of_ne (p : Text) {c : Char} (h : c ≠ '\x60') :
    ticksFrom false (p ++ [c]) = ticksFrom false p := by
  have happend := ticksFrom_append [] p [c]
  rw [Text.escapedAfter_nil] at happend
  rw [happend, ticksFrom, ticksFrom, ticksFrom]
  simp [h]

/-- Tell whether a backtick is at an index of a text, and an even number of backslashes right
before it. -/
def IsTick (t : Text) (i : Nat) : Prop := t[i]? = some '\x60' ∧ Unescaped (t.take i)

instance (t : Text) (i : Nat) : Decidable (IsTick t i) := inferInstanceAs (Decidable (_ ∧ _))

theorem isTick_concat_of_lt {p : Text} {i : Nat} (c : Char) (h : i < p.length) :
    IsTick (p ++ [c]) i ↔ IsTick p i := by
  rw [IsTick, IsTick, List.getElem?_append_left h, List.take_append_of_le_length (Nat.le_of_lt h)]

theorem isTick_concat_length (p : Text) (c : Char) :
    IsTick (p ++ [c]) p.length ↔ c = '\x60' ∧ escapedAfter p.reverse = false := by
  rw [IsTick, List.getElem?_concat_length, List.take_left, Option.some.injEq, unescaped_iff]

/-- The pass counts the backticks before which the backslashes are even in number. -/
theorem ticksFrom_eq_countP (t : Text) :
    ticksFrom false t = (List.range t.length).countP fun i => IsTick t i := by
  induction t using List.reverseRecOn with
  | nil => rfl
  | append_singleton p c ih =>
      have hearlier : (List.range p.length).countP (fun i => IsTick (p ++ [c]) i) =
          (List.range p.length).countP fun i => IsTick p i :=
        List.countP_congr fun i hi => by
          simpa using isTick_concat_of_lt c (List.mem_range.mp hi)
      rw [List.length_append, List.length_singleton, List.range_succ, List.countP_append,
        hearlier, ← ih, List.countP_singleton]
      simp only [decide_eq_true_eq, isTick_concat_length]
      by_cases hc : c = '\x60'
      · subst hc
        rw [ticksFrom_tick]
        simp [ticksFrom]
      · rw [ticksFrom_concat_of_ne p hc]
        simp [hc]

/-- **The two readings of escapes agree.**  A cursor is inside a span of code exactly if an odd
number of backticks stands before it on its line, of those that an even number of backslashes
precedes.  The pass over the line counts each backtick exactly if the backwards count of the
backslashes before it finds it not escaped. -/
theorem inSpan_iff_odd_ticks (b : Buffer) (cursor : Position) (line : Text)
    (h : b.line? cursor.line = some line) :
    (inSpan b cursor ↔
        ((List.range (line.before cursor.column).length).countP fun i =>
          IsTick (line.before cursor.column) i) % 2 = 1) ∧
      ∀ p t, line = p ++ '\x60' :: t →
        ticksFrom false line = ticksFrom false p +
          (if escapedAfter p.reverse = false then 1 else 0) + ticksFrom false t := by
  refine ⟨?_, ?_⟩
  · rw [inSpan, h, ← ticksFrom_eq_countP, Text.before]
    exact beq_iff_eq
  · rintro p t rfl
    exact ticksFrom_tick p t

/-- Of three backticks the first stands behind one backslash, the second behind two, and the
third, past a wide character, behind three: only the second counts. -/
theorem span_behind_escaped_tick :
    let b : Buffer := ⟨"a\n\\\x60\\\\\x60𝔸\\\\\\\x60 x".toList⟩
    let line : Text := "\\\x60\\\\\x60𝔸\\\\\\\x60 x".toList
    b.line? 1 = some line ∧
      (inSpan b ⟨1, 12⟩ ↔
        ((List.range (line.before 12).length).countP fun i => IsTick (line.before 12) i) % 2 = 1) ∧
      inSpan b ⟨1, 12⟩ = true := by
  intro b line
  have hline : b.line? 1 = some line := by decide +kernel
  exact ⟨hline, (inSpan_iff_odd_ticks b ⟨1, 12⟩ line hline).1, by decide +kernel⟩

end CodeContext

end MathTyping
