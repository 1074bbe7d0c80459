import MathTyping.Equation

/-!
# Occurrences in a text

A search gives the parts of the text around what it found.  `FirstAt` and `LastAt` say what the
parts are, without the search: they are put together with the needle between them, and the
needle is nowhere further to the front, or to the end.  Occurrences of one needle may overlap,
so an occurrence is known by the text before it.
-/

namespace MathTyping

namespace Text

variable {needle t rest before after : Text} {n : Nat} {wanted : Char → Bool}

/-! ### A text in another one -/

theorem dropPrefix?_eq_some_iff : dropPrefix? needle t = some rest ↔ t = needle ++ rest := by
  induction needle generalizing t with
  | nil => simp [dropPrefix?]
  | cons p ps ih =>
      cases t with
      | nil => simp [dropPrefix?]
      | cons c t =>
          by_cases h : p = c
          · simp [dropPrefix?, h, ih]
          · simp [dropPrefix?, h, Ne.symm h]

theorem dropPrefix?_eq_none_iff : dropPrefix? needle t = none ↔ ¬ needle <+: t := by
  rw [Option.eq_none_iff_forall_ne_some]
  constructor
  · rintro h ⟨rest, rfl⟩
    exact h rest (dropPrefix?_eq_some_iff.mpr rfl)
  · rintro h rest hrest
    exact h ⟨rest, (dropPrefix?_eq_some_iff.mp hrest).symm⟩

/-- A text has its first occurrence in another one between two parts of it. -/
def FirstAt (needle t before after : Text) : Prop :=
  t = before ++ needle ++ after ∧ ∀ x y, t = x ++ needle ++ y → before.length ≤ x.length

/-- A text has its last occurrence in another one between two parts of it. -/
def LastAt (needle t before after : Text) : Prop :=
  t = before ++ needle ++ after ∧ ∀ x y, t = x ++ needle ++ y → x.length ≤ before.length

/-- An occurrence is known by the length of the text before it. -/
theorem parts_unique {x y : Text} (h : t = before ++ needle ++ after) (h' : t = x ++ needle ++ y)
    (hlength : before.length = x.length) : before = x ∧ after = y := by
  rw [h, List.append_assoc, List.append_assoc] at h'
  obtain ⟨rfl, hrest⟩ := List.append_inj h' hlength
  exact ⟨rfl, List.append_cancel_left hrest⟩

theorem FirstAt.unique {x y : Text} (h : FirstAt needle t before after)
    (h' : FirstAt needle t x y) : before = x ∧ after = y :=
  parts_unique h.1 h'.1 (Nat.le_antisymm (h.2 x y h'.1) (h'.2 before after h.1))

theorem LastAt.unique {x y : Text} (h : LastAt needle t before after)
    (h' : LastAt needle t x y) : before = x ∧ after = y :=
  parts_unique h.1 h'.1 (Nat.le_antisymm (h'.2 before after h.1) (h.2 x y h'.1))

/-- The first occurrence in a text without its first character is the first one in the text, if
none starts there. -/
theorem FirstAt.cons {c : Char} (h : FirstAt needle t before after) (hnone : ¬ needle <+: c :: t) :
    FirstAt needle (c :: t) (c :: before) after := by
  refine ⟨by rw [h.1]; rfl, fun x y hxy => ?_⟩
  cases x with
  | nil => exact absurd ⟨y, hxy.symm⟩ hnone
  | cons d x =>
      obtain ⟨-, htail⟩ := List.cons_eq_cons.mp hxy
      exact Nat.succ_le_succ (h.2 x y htail)

/-- The first occurrence is not changed by what follows the text. -/
theorem FirstAt.append (h : FirstAt needle t before after) (rest : Text) :
    FirstAt needle (t ++ rest) before (after ++ rest) := by
  refine ⟨by rw [h.1, List.append_assoc], fun x y hxy => ?_⟩
  refine Nat.not_lt.mp fun hearlier => ?_
  have hfits : (x ++ needle).length ≤ t.length := by
    rw [h.1, List.append_assoc, List.length_append, List.length_append, List.length_append]
    omega
  obtain ⟨later, hx⟩ :=
    List.prefix_of_prefix_length_le ⟨y, hxy.symm⟩ (List.prefix_append t rest) hfits
  exact Nat.not_lt.mpr (h.2 x later hx.symm) hearlier

theorem LastAt.cons (h : LastAt needle t before after) (c : Char) :
    LastAt needle (c :: t) (c :: before) after := by
  refine ⟨by rw [h.1]; rfl, fun x y hxy => ?_⟩
  cases x with
  | nil => exact Nat.zero_le _
  | cons d x =>
      obtain ⟨-, htail⟩ := List.cons_eq_cons.mp hxy
      exact Nat.succ_le_succ (h.2 x y htail)

/-! ### The cuts -/

/-- A text contains another exactly if the other is a segment of it. -/
theorem contains_iff (t needle : Text) : t.contains needle ↔ needle <:+: t := by
  induction t with
  | nil =>
      rw [contains, cut?, Option.isSome_map, List.infix_nil, ← List.prefix_nil,
        Option.isSome_iff_ne_none, ne_eq, dropPrefix?_eq_none_iff, Classical.not_not]
  | cons c t ih =>
      rw [List.infix_cons_iff, ← ih, contains, contains, cut?]
      cases hfront : dropPrefix? needle (c :: t) with
      | none => simp [dropPrefix?_eq_none_iff.mp hfront]
      | some rest => simp [dropPrefix?_eq_some_iff.mp hfront]

theorem cut?_eq_none_iff : cut? needle t = none ↔ ¬ needle <:+: t := by
  rw [← contains_iff, contains]
  simp

theorem firstAt_of_cut? (h : cut? needle t = some (before, after)) :
    FirstAt needle t before after := by
  induction t generalizing before with
  | nil =>
      obtain ⟨rest, hrest, hpair⟩ := Option.map_eq_some_iff.mp h
      obtain ⟨rfl, rfl⟩ := Prod.mk.inj hpair
      exact ⟨dropPrefix?_eq_some_iff.mp hrest, fun x _ _ => Nat.zero_le x.length⟩
  | cons c t ih =>
      rw [cut?] at h
      split at h
      · rename_i rest hrest
        obtain ⟨rfl, rfl⟩ := Prod.mk.inj (Option.some.inj h)
        exact ⟨dropPrefix?_eq_some_iff.mp hrest, fun x _ _ => Nat.zero_le x.length⟩
      · rename_i hnone
        obtain ⟨⟨head, tail⟩, hlater, hpair⟩ := Option.map_eq_some_iff.mp h
        obtain ⟨rfl, rfl⟩ := Prod.mk.inj hpair
        exact (ih hlater).cons (dropPrefix?_eq_none_iff.mp hnone)

/-- The cut is at the first occurrence. -/
theorem cut?_eq_some_iff :
    cut? needle t = some (before, after) ↔ FirstAt needle t before after := by
  constructor
  · exact firstAt_of_cut?
  · intro h
    cases hcut : cut? needle t with
    | none => exact absurd ⟨before, after, h.1.symm⟩ (cut?_eq_none_iff.mp hcut)
    | some parts =>
        obtain ⟨rfl, rfl⟩ := h.unique (firstAt_of_cut? hcut)
        rfl

/-- A cut is made where it is made in the part of the text that is read first. -/
theorem cut?_append (h : cut? needle t = some (before, after)) (rest : Text) :
    cut? needle (t ++ rest) = some (before, after ++ rest) :=
  cut?_eq_some_iff.mpr ((cut?_eq_some_iff.mp h).append rest)

/-- A text is cut at the first occurrence of a character. -/
theorem cut?_character {c : Char} (h : c ∉ before) (after : Text) :
    cut? [c] (before ++ c :: after) = some (before, after) := by
  induction before with
  | nil => simp [cut?, dropPrefix?]
  | cons d before ih =>
      have hnone : dropPrefix? [c] (d :: (before ++ c :: after)) = none := by
        simp [dropPrefix?, List.ne_of_not_mem_cons h]
      rw [List.cons_append, cut?, hnone, ih (List.not_mem_of_not_mem_cons h)]
      rfl

theorem cutLast?_eq_none_iff : cutLast? needle t = none ↔ ¬ needle <:+: t := by
  induction t with
  | nil =>
      rw [cutLast?, Option.map_eq_none_iff, dropPrefix?_eq_none_iff, List.infix_nil,
        List.prefix_nil]
  | cons c t ih =>
      rw [List.infix_cons_iff, not_or, ← ih, cutLast?]
      cases hlater : cutLast? needle t with
      | none => simp [dropPrefix?_eq_none_iff]
      | some parts => simp

theorem lastAt_of_cutLast? (h : cutLast? needle t = some (before, after)) :
    LastAt needle t before after := by
  induction t generalizing before with
  | nil =>
      obtain ⟨rest, hrest, hpair⟩ := Option.map_eq_some_iff.mp h
      obtain ⟨rfl, rfl⟩ := Prod.mk.inj hpair
      have hnil := dropPrefix?_eq_some_iff.mp hrest
      refine ⟨hnil, fun x y hxy => ?_⟩
      have hlength := congrArg List.length hxy
      simp at hlength
      omega
  | cons c t ih =>
      rw [cutLast?] at h
      split at h
      · rename_i head tail hlater
        obtain ⟨rfl, rfl⟩ := Prod.mk.inj (Option.some.inj h)
        exact (ih hlater).cons c
      · rename_i hnone
        obtain ⟨rest, hrest, hpair⟩ := Option.map_eq_some_iff.mp h
        obtain ⟨rfl, rfl⟩ := Prod.mk.inj hpair
        refine ⟨dropPrefix?_eq_some_iff.mp hrest, fun x y hxy => ?_⟩
        cases x with
        | nil => exact Nat.le_refl _
        | cons d x =>
            obtain ⟨-, htail⟩ := List.cons_eq_cons.mp hxy
            exact absurd ⟨x, y, htail.symm⟩ (cutLast?_eq_none_iff.mp hnone)

/-- The cut is at the last occurrence. -/
theorem cutLast?_eq_some_iff :
    cutLast? needle t = some (before, after) ↔ LastAt needle t before after := by
  constructor
  · exact lastAt_of_cutLast?
  · intro h
    cases hcut : cutLast? needle t with
    | none => exact absurd ⟨before, after, h.1.symm⟩ (cutLast?_eq_none_iff.mp hcut)
    | some parts =>
        obtain ⟨rfl, rfl⟩ := h.unique (lastAt_of_cutLast? hcut)
        rfl

/-! ### Every occurrence -/

/-- A text is another one with `sub` at every occurrence of `needle`, taken from the left and
without overlap. -/
inductive Replaced (needle sub : Text) : Text → Text → Prop
  | kept {t : Text} (h : ¬ needle <:+: t) : Replaced needle sub t t
  | replaced {t before after out : Text} (h : FirstAt needle t before after)
      (hrest : Replaced needle sub after out) : Replaced needle sub t (before ++ sub ++ out)

theorem replaceFrom_add (needle sub : Text) (skip : Nat) (t : Text) :
    replaceFrom needle sub skip t = replaceFrom needle sub 0 (t.drop skip) := by
  induction t generalizing skip with
  | nil => cases skip <;> rfl
  | cons c t ih =>
      cases skip with
      | zero => rfl
      | succ skip => exact ih skip

theorem replace_of_beginning {sub : Text} (hneedle : needle ≠ []) (after : Text) :
    (needle ++ after).replace needle sub = sub ++ after.replace needle sub := by
  obtain ⟨c, rest, rfl⟩ := List.exists_cons_of_ne_nil hneedle
  have hfront : (c :: rest).isPrefixOf (c :: (rest ++ after)) = true :=
    List.isPrefixOf_iff_prefix.mpr ⟨after, rfl⟩
  rw [List.cons_append, replace, replaceFrom, if_pos hfront, replaceFrom_add, List.length_cons,
    Nat.add_sub_cancel, List.drop_left, replace]

theorem replace_of_not_beginning {sub : Text} {c : Char} (h : ¬ needle <+: c :: t) :
    replace (c :: t) needle sub = c :: t.replace needle sub := by
  rw [replace, replaceFrom, if_neg (by rwa [List.isPrefixOf_iff_prefix]), replace]

theorem replace_of_absent {sub : Text} (h : ¬ needle <:+: t) : t.replace needle sub = t := by
  induction t with
  | nil => rfl
  | cons c t ih =>
      rw [List.infix_cons_iff, not_or] at h
      rw [replace_of_not_beginning h.1, ih h.2]

theorem replace_of_firstAt {sub : Text} (hneedle : needle ≠ [])
    (h : FirstAt needle t before after) :
    t.replace needle sub = before ++ sub ++ after.replace needle sub := by
  obtain ⟨rfl, hfirst⟩ := h
  induction before with
  | nil => rw [List.nil_append, List.nil_append, replace_of_beginning hneedle]
  | cons c before ih =>
      have hnone : ¬ needle <+: c :: (before ++ needle ++ after) := by
        rintro ⟨rest, hrest⟩
        exact absurd (hfirst [] rest hrest.symm) (Nat.not_succ_le_zero _)
      have hlater := ih fun x y hxy =>
        Nat.le_of_succ_le_succ (hfirst (c :: x) y (congrArg (c :: ·) hxy))
      rw [List.cons_append, List.cons_append, replace_of_not_beginning hnone, hlater]
      rfl

/-- Replacing works at every occurrence, and nowhere else. -/
theorem replaced_iff {sub out : Text} (hneedle : needle ≠ []) :
    Replaced needle sub t out ↔ out = t.replace needle sub := by
  constructor
  · intro h
    induction h with
    | kept h => exact (replace_of_absent h).symm
    | replaced h _ ih => rw [replace_of_firstAt hneedle h, ih]
  · rintro rfl
    induction hlength : t.length using Nat.strongRecOn generalizing t with
    | ind length ih =>
        cases hcut : cut? needle t with
        | none =>
            have hnone := cut?_eq_none_iff.mp hcut
            rw [replace_of_absent hnone]
            exact .kept hnone
        | some parts =>
            have hfirst := cut?_eq_some_iff.mp hcut
            have hshorter : parts.2.length < length := by
              rw [← hlength, hfirst.1, List.length_append, List.length_append]
              have := List.length_pos_iff.mpr hneedle
              omega
            rw [replace_of_firstAt hneedle hfirst]
            exact .replaced hfirst (ih _ hshorter rfl)

/-! ### A character of a class -/

theorem firstByte?_eq_none_iff : firstByte? wanted t = none ↔ ∀ c ∈ t, wanted c = false := by
  induction t with
  | nil => simp [firstByte?]
  | cons c t ih =>
      rw [firstByte?]
      cases hc : wanted c with
      | true => simp [hc]
      | false => simp [hc, ih]

/-- The first character of a class splits the text, and none of the class is before it. -/
theorem firstByte?_eq_some (h : firstByte? wanted t = some n) :
    ∃ (before : Text) (c : Char) (after : Text), t = before ++ c :: after ∧ wanted c = true ∧
      n = before.bytes ∧ ∀ d ∈ before, wanted d = false := by
  induction t generalizing n with
  | nil => contradiction
  | cons c t ih =>
      rw [firstByte?] at h
      cases hc : wanted c with
      | true =>
          rw [hc, if_pos rfl] at h
          exact ⟨[], c, t, rfl, hc, (Option.some.inj h).symm, by simp⟩
      | false =>
          rw [hc, if_neg (by simp), Option.map_eq_some_iff] at h
          obtain ⟨m, hlater, rfl⟩ := h
          obtain ⟨before, d, after, rfl, hd, rfl, hbefore⟩ := ih hlater
          exact ⟨c :: before, d, after, rfl, hd, rfl, List.forall_mem_cons.mpr ⟨hc, hbefore⟩⟩

theorem lastByte?_eq_none_iff : lastByte? wanted t = none ↔ ∀ c ∈ t, wanted c = false := by
  induction t with
  | nil => simp [lastByte?]
  | cons c t ih =>
      rw [lastByte?, List.forall_mem_cons, ← ih]
      cases lastByte? wanted t with
      | some n => simp
      | none => simp

/-- The last character of a class splits the text, and none of the class is behind it. -/
theorem lastByte?_eq_some (h : lastByte? wanted t = some n) :
    ∃ (before : Text) (c : Char) (after : Text), t = before ++ c :: after ∧ wanted c = true ∧
      n = before.bytes ∧ ∀ d ∈ after, wanted d = false := by
  induction t generalizing n with
  | nil => contradiction
  | cons c t ih =>
      rw [lastByte?] at h
      cases hlater : lastByte? wanted t with
      | some m =>
          rw [hlater] at h
          obtain ⟨before, d, after, rfl, hd, rfl, hafter⟩ := ih hlater
          obtain rfl := Option.some.inj h
          exact ⟨c :: before, d, after, rfl, hd, rfl, hafter⟩
      | none =>
          rw [hlater] at h
          obtain ⟨hc, hn⟩ := Option.ite_none_right_eq_some.mp h
          obtain rfl := Option.some.inj hn
          exact ⟨[], c, t, rfl, hc, rfl, lastByte?_eq_none_iff.mp hlater⟩

end Text

end MathTyping
