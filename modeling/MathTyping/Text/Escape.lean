import MathTyping.Text.Measure

/-!
# Escaped characters

A character is escaped when an odd number of backslashes stands right before
it.  Texts read so far are kept nearest character first, so the backslashes in
question are the ones at the front.
-/

namespace MathTyping

namespace Text

/-- Tell whether the character after a text is escaped, the text being given
backwards. -/
def escapedAfter (seen : Text) : Bool := (seen.takeWhile (· == '\\')).length % 2 == 1

@[simp] theorem escapedAfter_nil : escapedAfter [] = false := rfl

theorem escapedAfter_backslash (seen : Text) :
    escapedAfter ('\\' :: seen) = !escapedAfter seen := by
  simp only [escapedAfter, List.takeWhile_cons, beq_self_eq_true, if_true, List.length_cons]
  rcases Nat.mod_two_eq_zero_or_one ((seen.takeWhile (· == '\\')).length) with h | h
  · simp [h, Nat.add_mod]
  · simp [h, Nat.add_mod]

theorem escapedAfter_of_ne (c : Char) (seen : Text) (h : c ≠ '\\') :
    escapedAfter (c :: seen) = false := by
  simp [escapedAfter, h]

end Text

end MathTyping
