import MathTyping.Proofs.Query.Extent

/-!
# Where keys write and erase

While snippets are offered, the query is edited before its end: a typed character goes behind
the word or behind the last character of the argument, and Backspace erases what is there.
The popup finds these places by counting units back from the caret.  `Takes` and `Erases` name
the parts of the query on both sides of them; the counts are the units of these parts
(`Takes.units_eq`, `Erases.units_eq`).

A wide character counts for two units, but Backspace always erases as many units as `gone` has
characters.
-/

namespace MathTyping

namespace Query

/-- A query on both sides of the place where a typed character goes: it goes behind the word, or
behind the last character of the argument. -/
inductive Takes (q : Query) : Text → Text → Prop
  | word (hargument : q.argument = none) : Takes q q.word ['@']
  | inner (inner : Text) (hargument : q.argument = some ('(' :: (inner ++ [')']))) :
      Takes q (q.word ++ '(' :: inner) [')', '@']

/-- A query around what Backspace erases: the last character of the word, the empty argument, or
the last character of the argument. -/
inductive Erases (q : Query) : Text → Text → Text → Prop
  | word (init : Text) (c : Char) (hargument : q.argument = none) (hlast : q.word = init ++ [c]) :
      Erases q init [c] ['@']
  | pair (hargument : q.argument = some ['(', ')']) : Erases q q.word ['(', ')'] ['@']
  | inner (init : Text) (c : Char) (hargument : q.argument = some ('(' :: (init ++ [c, ')']))) :
      Erases q (q.word ++ '(' :: init) [c] [')', '@']

variable {q : Query} {front gone back : Text}

/-! ### Writing -/

theorem exists_takes (hparenthesized : q.Parenthesized) : ∃ front back, q.Takes front back := by
  cases hargument : q.argument with
  | none => exact ⟨_, _, .word hargument⟩
  | some a =>
      obtain ⟨inner, rfl⟩ := hparenthesized a hargument
      exact ⟨_, _, .inner inner hargument⟩

theorem Takes.text_eq (h : q.Takes front back) (hkind : q.kind = .snippet) :
    q.text = front ++ back := by
  cases h with
  | word hargument => exact text_of_argument_eq_none hkind hargument
  | inner inner hargument =>
      rw [text, hargument, if_pos hkind]
      simp

theorem Takes.units_eq (h : q.Takes front back) :
    back.units = if q.argument.isSome then 2 else 1 := by
  cases h with
  | word hargument => rw [hargument]; rfl
  | inner inner hargument => rw [hargument]; rfl

/-! ### Erasing -/

theorem exists_erases (hparenthesized : q.Parenthesized) (hword : q.word ≠ []) :
    ∃ front gone back, q.Erases front gone back := by
  cases hargument : q.argument with
  | none =>
      obtain ⟨init, c, hlast⟩ := (List.eq_nil_or_concat q.word).resolve_left hword
      exact ⟨_, _, _, .word init c hargument (hlast.trans List.concat_eq_append)⟩
  | some a =>
      obtain ⟨inner, rfl⟩ := hparenthesized a hargument
      rcases List.eq_nil_or_concat inner with rfl | ⟨init, c, rfl⟩
      · exact ⟨_, _, _, .pair hargument⟩
      · exact ⟨_, _, _, .inner init c (by rw [hargument]; simp)⟩

theorem Erases.text_eq (h : q.Erases front gone back) (hkind : q.kind = .snippet) :
    q.text = front ++ (gone ++ back) := by
  cases h with
  | word init c hargument hlast =>
      rw [text_of_argument_eq_none hkind hargument, hlast, List.append_assoc]
  | pair hargument | inner init c hargument =>
      rw [text, hargument, if_pos hkind]
      simp

theorem argument_ne_pair {init : Text} {c : Char}
    (hargument : q.argument = some ('(' :: (init ++ [c, ')']))) :
    q.argument ≠ some ['(', ')'] := by
  rw [hargument]
  intro hpair
  have hlength := congrArg List.length (Option.some.inj hpair)
  simp at hlength

theorem Erases.length_eq (h : q.Erases front gone back) :
    gone.length = if q.argument = some ['(', ')'] then 2 else 1 := by
  cases h with
  | word init c hargument => rw [hargument]; rfl
  | pair hargument => rw [hargument]; rfl
  | inner init c hargument => rw [if_neg (argument_ne_pair hargument)]; rfl

theorem Erases.units_eq (h : q.Erases front gone back) :
    back.units + gone.length = if q.argument.isSome then 3 else 2 := by
  cases h with
  | word init c hargument => rw [hargument]; rfl
  | pair hargument => rw [hargument]; rfl
  | inner init c hargument => rw [hargument]; rfl

/-- Every character has a unit to erase. -/
theorem Erases.length_le_units (h : q.Erases front gone back) : gone.length ≤ gone.units := by
  cases h with
  | word init c | inner init c =>
      exact Nat.le_trans (Text.charUnits_pos c) (Nat.le_add_right _ _)
  | pair => exact Nat.le_refl _

end Query

end MathTyping
