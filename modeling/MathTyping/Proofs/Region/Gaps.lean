import Mathlib.Data.List.DropRight
import MathTyping.Proofs.Buffer.CursorLine
import MathTyping.Proofs.Region.Delimiters

/-!
# Inline math is the gap between two dollars

A dollar of a line counts if an even number of backslashes stands right before it; the run of
backslashes may reach back over the cursor.  The dollars that count cut the line into gaps, and
a cursor lies in one of them: behind the last dollar before it and before the first one behind
it (`exists_last_dollar`, `exists_first_dollar`).

The inline search gives the gap of the cursor (`InGap.inlineAt?_eq`), and nothing before the
first dollar, behind the last one, and between a dollar and a space.  Which gap it is does not
depend on the place of the cursor in it.
-/

namespace MathTyping

namespace Text

/-- A text ends with an even number of backslashes, so what follows is not escaped. -/
def Unescaped (before : Text) : Prop := (before.rtakeWhile (· == '\\')).length % 2 = 0

instance (before : Text) : Decidable (Unescaped before) := inferInstanceAs (Decidable (_ = _))

/-- No dollar counts in a part of a line; `before` is the line up to that part. -/
def Bare (before t : Text) : Prop := ∀ x y, t = x ++ '$' :: y → ¬ Unescaped (before ++ x)

variable {before s t x y : Text}

theorem unescaped_iff : Unescaped before ↔ escapedAfter before.reverse = false := by
  simp [Unescaped, escapedAfter, List.rtakeWhile]

theorem unescaped_nil : Unescaped [] := rfl

theorem unescaped_concat (before : Text) (c : Char) :
    Unescaped (before ++ [c]) ↔ (c = '\\' → ¬ Unescaped before) := by
  rw [unescaped_iff, unescaped_iff, List.reverse_concat]
  by_cases hc : c = '\\'
  · simp [hc, escapedAfter_backslash]
  · simp [hc, escapedAfter_of_ne c _ hc]

/-- No run of backslashes goes over the end of a line. -/
theorem unescaped_lastLine (t : Text) : Unescaped t.lastLine ↔ Unescaped t := by
  obtain ⟨init, h⟩ := lines_eq_concat_lastLine t
  refine lines_induction (motive := fun s init l => Unescaped l ↔ Unescaped s) Iff.rfl ?_ ?_ h
  · intro s init l _
    exact iff_of_true unescaped_nil ((unescaped_concat s '\n').mpr (by simp))
  · intro s init l c _ ih
    rw [unescaped_concat, unescaped_concat, ih]

theorem dollarsFrom_eq_nil_iff (offset : Nat) :
    dollarsFrom before.reverse offset t = [] ↔ Bare before t := by
  rw [List.eq_nil_iff_forall_not_mem]
  constructor
  · rintro h x y rfl hcounts
    refine h (offset + x.bytes) (mem_dollarsFrom_iff.mpr ⟨x, y, rfl, rfl, ?_⟩)
    rw [← List.reverse_append]
    exact unescaped_iff.mp hcounts
  · intro h m hm
    obtain ⟨x, y, rfl, -, hcounts⟩ := mem_dollarsFrom_iff.mp hm
    rw [← List.reverse_append] at hcounts
    exact h x y rfl (unescaped_iff.mpr hcounts)

theorem bare_nil (before : Text) : Bare before [] :=
  (dollarsFrom_eq_nil_iff 0).mp rfl

theorem bare_append : Bare before (s ++ t) ↔ Bare before s ∧ Bare (before ++ s) t := by
  rw [← dollarsFrom_eq_nil_iff 0, dollarsFrom_append, List.append_eq_nil_iff,
    ← List.reverse_append, dollarsFrom_eq_nil_iff, dollarsFrom_eq_nil_iff]

theorem bare_cons {c : Char} :
    Bare before (c :: t) ↔ ¬ (c = '$' ∧ Unescaped before) ∧ Bare (before ++ [c]) t := by
  have hone : Bare before [c] ↔ ¬ (c = '$' ∧ Unescaped before) := by
    rw [← dollarsFrom_eq_nil_iff 0, unescaped_iff]
    simp [dollarsFrom]
  rw [← List.singleton_append, bare_append, hone]

theorem unescaped_of_notMem (h : '\\' ∉ t) : Unescaped t :=
  unescaped_iff.mpr (escapedAfter_of_notMem (by simpa using h))

theorem bare_of_notMem (before : Text) (h : '$' ∉ t) : Bare before t := by
  rintro x y rfl
  simp at h

/-- A part of a line is bare, or it has a first dollar that counts. -/
theorem exists_first_dollar (before t : Text) :
    Bare before t ∨ ∃ x y, t = x ++ '$' :: y ∧ Bare before x ∧ Unescaped (before ++ x) := by
  induction t generalizing before with
  | nil => exact Or.inl (bare_nil before)
  | cons c t ih =>
      by_cases hcounts : c = '$' ∧ Unescaped before
      · obtain ⟨rfl, hcounts⟩ := hcounts
        exact Or.inr ⟨[], t, rfl, bare_nil before, by simpa using hcounts⟩
      · rcases ih (before ++ [c]) with hbare | ⟨x, y, rfl, hbare, hfirst⟩
        · exact Or.inl (bare_cons.mpr ⟨hcounts, hbare⟩)
        · exact Or.inr ⟨c :: x, y, rfl, bare_cons.mpr ⟨hcounts, hbare⟩, by simpa using hfirst⟩

/-- A part of a line is bare, or it has a last dollar that counts. -/
theorem exists_last_dollar (before t : Text) :
    Bare before t ∨
      ∃ x y, t = x ++ '$' :: y ∧ Unescaped (before ++ x) ∧ Bare (before ++ x ++ ['$']) y := by
  induction t generalizing before with
  | nil => exact Or.inl (bare_nil before)
  | cons c t ih =>
      rcases ih (before ++ [c]) with hbare | ⟨x, y, rfl, hlast, hbare⟩
      · by_cases hcounts : c = '$' ∧ Unescaped before
        · obtain ⟨rfl, hcounts⟩ := hcounts
          exact Or.inr ⟨[], t, rfl, by simpa using hcounts, by simpa using hbare⟩
        · exact Or.inl (bare_cons.mpr ⟨hcounts, hbare⟩)
      · exact Or.inr ⟨c :: x, y, rfl, by simpa using hlast, by simpa using hbare⟩

theorem head?_dollarsFrom (offset : Nat) (hbare : Bare before x) (hfirst : Unescaped (before ++ x)) :
    (dollarsFrom before.reverse offset (x ++ '$' :: y)).head? = some (offset + x.bytes) := by
  rw [unescaped_iff, List.reverse_append] at hfirst
  rw [dollarsFrom_append, (dollarsFrom_eq_nil_iff offset).mpr hbare, List.nil_append, dollarsFrom,
    if_pos ⟨rfl, hfirst⟩, List.head?_cons]

theorem getLast?_dollarsFrom (offset : Nat) (hlast : Unescaped (before ++ x))
    (hbare : Bare (before ++ x ++ ['$']) y) :
    (dollarsFrom before.reverse offset (x ++ '$' :: y)).getLast? = some (offset + x.bytes) := by
  have hbehind : dollarsFrom ('$' :: (x.reverse ++ before.reverse))
      (offset + x.bytes + '$'.utf8Size) y = [] := by
    have hnil := (dollarsFrom_eq_nil_iff (offset + x.bytes + '$'.utf8Size)).mpr hbare
    simpa using hnil
  rw [unescaped_iff, List.reverse_append] at hlast
  rw [dollarsFrom_append, dollarsFrom, if_pos ⟨rfl, hlast⟩, hbehind, List.getLast?_concat]

end Text

namespace Region

open Text (Unescaped Bare)

variable {b : Buffer} {cursor other : Position} {r : Region} {before behind x y z w : Text}

/-- Two dollars that count stand around a place of a line, and none between them: `y` and `z` are
the parts of the gap before and behind the place. -/
structure InGap (before behind x y z w : Text) : Prop where
  before_eq : before = x ++ '$' :: y
  behind_eq : behind = z ++ '$' :: w
  opens : Unescaped x
  closes : Unescaped (before ++ z)
  bare : Bare (x ++ ['$']) (y ++ z)

/-- Two cursors are between the same two dollars of a line. -/
def SameGap (b : Buffer) (p q : Position) : Prop :=
  (b.clamp p).line = (b.clamp q).line ∧ ∃ x y z y' z' w,
    InGap (b.lineBefore p) (b.lineBehind p) x y z w ∧
      InGap (b.lineBefore q) (b.lineBehind q) x y' z' w

/-- The region that a gap of a line makes. -/
def gapRegion (line : Nat) (x content : Text) : Region :=
  let start : Position := ⟨line, Text.units (x ++ ['$'])⟩
  ⟨.inline, content, start, start.advance content⟩

/-- A place of a line has no dollar before it, none behind it, or is in a gap. -/
theorem bare_or_inGap (before behind : Text) :
    (Bare [] before ∨ Bare before behind) ∨ ∃ x y z w, InGap before behind x y z w := by
  rcases Text.exists_last_dollar [] before with hnone | ⟨x, y, hbefore, hopens, hafter⟩
  · exact Or.inl (Or.inl hnone)
  · rcases Text.exists_first_dollar before behind with hnone | ⟨z, w, hbehind, hbare, hcloses⟩
    · exact Or.inl (Or.inr hnone)
    · refine Or.inr ⟨x, y, z, w, hbefore, hbehind, hopens, hcloses, ?_⟩
      refine Text.bare_append.mpr ⟨hafter, ?_⟩
      simpa [hbefore] using hbare

namespace InGap

theorem not_bare (h : InGap before behind x y z w) : ¬ (Bare [] before ∨ Bare before behind) := by
  rintro (hnone | hnone)
  · exact hnone x y h.before_eq h.opens
  · exact hnone z w h.behind_eq h.closes

/-- In a gap the inline search gives the gap, except beside padding. -/
theorem inlineAt?_eq (h : InGap (b.lineBefore cursor) (b.lineBehind cursor) x y z w) :
    inlineAt? b cursor =
      if isPadding (b.lineBefore cursor).getLast? (b.lineBehind cursor).head? then none
      else some (gapRegion (b.clamp cursor).line x (y ++ z)) := by
  obtain ⟨hbefore, hbehind, hopens, hcloses, hbare⟩ := h
  obtain ⟨hy, hz⟩ := Text.bare_append.mp hbare
  have hopening : (Text.dollars (x ++ '$' :: y)).getLast? = some x.bytes := by
    have hlast : Unescaped ([] ++ x) := hopens
    rw [← Nat.zero_add x.bytes]
    exact Text.getLast?_dollarsFrom 0 hlast hy
  have hgap : Bare (x ++ '$' :: y) z := by simpa using hz
  rw [hbefore] at hcloses
  exact inlineAt?_eq_gap hbefore hbehind hopening (Text.head?_dollarsFrom _ hgap hcloses)

theorem inlineAt?_of_isSome (h : InGap (b.lineBefore cursor) (b.lineBehind cursor) x y z w)
    (hfound : (inlineAt? b cursor).isSome) :
    inlineAt? b cursor = some (gapRegion (b.clamp cursor).line x (y ++ z)) := by
  rw [h.inlineAt?_eq] at hfound ⊢
  by_cases hpadding : isPadding (b.lineBefore cursor).getLast? (b.lineBehind cursor).head? = true
  · rw [if_pos hpadding] at hfound
    contradiction
  · exact if_neg hpadding

end InGap

/-- Two cursors between the same two dollars cut the same content. -/
theorem content_eq_of_sameGap {y' z' : Text} (hline : (b.clamp cursor).line = (b.clamp other).line)
    (h : InGap (b.lineBefore cursor) (b.lineBehind cursor) x y z w)
    (hother : InGap (b.lineBefore other) (b.lineBehind other) x y' z' w) :
    y ++ z = y' ++ z' := by
  have hparts : b.lineBefore cursor ++ b.lineBehind cursor =
      b.lineBefore other ++ b.lineBehind other := by
    rw [← b.line_eq_parts, ← b.line_eq_parts, hline]
  rw [h.before_eq, h.behind_eq, hother.before_eq, hother.behind_eq] at hparts
  have hgap : (y ++ z) ++ '$' :: w = (y' ++ z') ++ '$' :: w := by simpa using hparts
  exact List.append_cancel_right hgap

theorem inlineAt?_of_bare (h : Bare [] (b.lineBefore cursor) ∨
    Bare (b.lineBefore cursor) (b.lineBehind cursor)) : inlineAt? b cursor = none := by
  rw [Region.inlineAt?_eq]
  rcases h with hnone | hnone
  · have hdollars : (b.lineBefore cursor).dollars = [] := (Text.dollarsFrom_eq_nil_iff 0).mpr hnone
    simp [hdollars]
  · simp [(Text.dollarsFrom_eq_nil_iff _).mpr hnone]

/-- What the inline search finds is the gap of the cursor. -/
theorem exists_inGap (h : inlineAt? b cursor = some r) :
    ∃ x y z w, InGap (b.lineBefore cursor) (b.lineBehind cursor) x y z w ∧
      r = gapRegion (b.clamp cursor).line x (y ++ z) := by
  rcases bare_or_inGap (b.lineBefore cursor) (b.lineBehind cursor) with
    hbare | ⟨x, y, z, w, hgap⟩
  · rw [inlineAt?_of_bare hbare] at h
    contradiction
  · refine ⟨x, y, z, w, hgap, ?_⟩
    rw [hgap.inlineAt?_of_isSome (Option.isSome_of_eq_some h)] at h
    exact (Option.some.inj h).symm

theorem kind_of_inlineAt? (h : inlineAt? b cursor = some r) : r.kind = .inline := by
  obtain ⟨x, y, z, w, -, rfl⟩ := exists_inGap h
  rfl

theorem inlineAt?_eq_none_iff :
    inlineAt? b cursor = none ↔
      isPadding (b.lineBefore cursor).getLast? (b.lineBehind cursor).head? = true ∨
        Bare [] (b.lineBefore cursor) ∨ Bare (b.lineBefore cursor) (b.lineBehind cursor) := by
  rcases bare_or_inGap (b.lineBefore cursor) (b.lineBehind cursor) with
    hbare | ⟨x, y, z, w, hgap⟩
  · exact iff_of_true (inlineAt?_of_bare hbare) (Or.inr hbare)
  · rw [hgap.inlineAt?_eq, or_iff_left hgap.not_bare]
    simp

/-- **Inline math is exactly the gap between two dollars that count.**  Nothing is found beside
padding, and where no dollar counts before the cursor or none behind it; otherwise the content
is what stands between the last one before and the first one behind, and no dollar counts in
it.  Cursors in one gap find the same region, if they find any. -/
theorem inline_region_is_gap (b : Buffer) (cursor : Position) :
    (inlineAt? b cursor = none ↔
      ((b.lineBefore cursor).getLast? = some '$' ∧ (b.lineBehind cursor).head? = some ' ' ∨
        (b.lineBefore cursor).getLast? = some ' ' ∧ (b.lineBehind cursor).head? = some '$') ∨
      Bare [] (b.lineBefore cursor) ∨ Bare (b.lineBefore cursor) (b.lineBehind cursor)) ∧
    (∀ r, inlineAt? b cursor = some r → ∃ x y z w,
      InGap (b.lineBefore cursor) (b.lineBehind cursor) x y z w ∧ r.content = y ++ z) ∧
    (∀ other, SameGap b cursor other → (inlineAt? b cursor).isSome → (inlineAt? b other).isSome →
      inlineAt? b cursor = inlineAt? b other) := by
  refine ⟨?_, ?_, ?_⟩
  · rw [inlineAt?_eq_none_iff, isPadding_iff]
  · intro r hr
    obtain ⟨x, y, z, w, hgap, rfl⟩ := exists_inGap hr
    exact ⟨x, y, z, w, hgap, rfl⟩
  · rintro other ⟨hline, x, y, z, y', z', w, hgap, hother⟩ hfound hfound'
    rw [hgap.inlineAt?_of_isSome hfound, hother.inlineAt?_of_isSome hfound', hline,
      content_eq_of_sameGap hline hgap hother]

end Region

end MathTyping
