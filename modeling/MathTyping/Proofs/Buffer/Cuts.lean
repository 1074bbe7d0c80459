import Mathlib.Order.Defs.LinearOrder
import MathTyping.Proofs.Buffer.Places

/-!
# Positions and cuts

Every place of a document cuts its text in two.  A position names the cut behind a
beginning `pre` of the text if it is the place behind `pre`, or if it is inside the
surrogate pair that `pre` ends with: the pair is never cut.  `Position.Names` says so for a
text that is written from any position on, so the same words do for a document and for a part
of it.

Counting the bytes before a position finds the cut that the position names, and a byte offset
leads to the place behind the longest beginning that fits.  The two make a Galois connection:
a position lies at or before a place of the text exactly if its bytes do.
-/

namespace MathTyping

namespace Text

/-! ### Beginnings of a text -/

theorem bytes_pos {t : Text} (h : t ≠ []) : 0 < t.bytes := by
  obtain ⟨c, rest, rfl⟩ := List.exists_cons_of_ne_nil h
  have := c.utf8Size_pos
  simp only [bytes_cons]
  omega

/-- Of two beginnings of one text the one with fewer bytes is a beginning of the other. -/
theorem prefix_of_bytes_le {t s u : Text} (hs : s <+: t) (hu : u <+: t)
    (h : s.bytes ≤ u.bytes) : s <+: u := by
  rcases List.prefix_or_prefix_of_prefix hs hu with hsu | ⟨rest, rfl⟩
  · exact hsu
  · have hrest : rest = [] := by
      by_contra hne
      have hpos := bytes_pos hne
      rw [bytes_append] at h
      omega
    subst hrest
    simp

/-- A beginning of a text is known by its bytes. -/
theorem eq_of_prefix_of_bytes_eq {t s u : Text} (hs : s <+: t) (hu : u <+: t)
    (h : s.bytes = u.bytes) : s = u :=
  (prefix_of_bytes_le hs hu (Nat.le_of_eq h)).eq_of_length_le
    (prefix_of_bytes_le hu hs (Nat.le_of_eq h.symm)).length_le

/-- A beginning that fits into a number of bytes is part of what is kept. -/
theorem bytes_le_takeBytes {pre post : Text} {n : Nat} (h : pre.bytes ≤ n) :
    pre.bytes ≤ (takeBytes n (pre ++ post)).bytes := by
  obtain ⟨more, rfl⟩ := Nat.exists_eq_add_of_le h
  rw [takeBytes_bytes_add, bytes_append]
  exact Nat.le_add_right _ _

/-- What is left over of a number of bytes is too little for the character that follows. -/
theorem exists_left_over (n : Nat) (t : Text) :
    ∃ k, min n t.bytes = (takeBytes n t).bytes + k ∧ k ≤ (dropBytes n t).bytes ∧
      takeBytes k (dropBytes n t) = [] := by
  induction t generalizing n with
  | nil => exact ⟨0, by simp [takeBytes], by simp [dropBytes], by simp⟩
  | cons c t ih =>
      by_cases hfits : c.utf8Size ≤ n
      · obtain ⟨k, hk, hle, hnil⟩ := ih (n - c.utf8Size)
        refine ⟨k, ?_, ?_, ?_⟩
        · simp only [takeBytes, if_pos hfits, bytes_cons]
          omega
        · simpa only [dropBytes, if_pos hfits] using hle
        · simpa only [dropBytes, if_pos hfits] using hnil
      · refine ⟨n, ?_, ?_, ?_⟩
        · simp only [takeBytes, if_neg hfits, bytes_nil, bytes_cons]
          omega
        · simp only [dropBytes, if_neg hfits, bytes_cons]
          omega
        · simp only [dropBytes, takeBytes, if_neg hfits]

/-- The same, when only the first of the lines that follow is looked at. -/
theorem left_over_of_lines {t m : Text} {rest : List Text} {k : Nat}
    (hlines : t.lines = m :: rest) (hle : k ≤ t.bytes) (hnil : takeBytes k t = []) :
    k ≤ m.bytes ∧ takeBytes k m = [] := by
  obtain ⟨-, ⟨-, rfl⟩ | ⟨u, rfl, -⟩⟩ := eq_of_lines_eq_cons hlines
  · exact ⟨hle, hnil⟩
  · cases m with
    | nil =>
        have hzero : k = 0 := by
          by_contra hne
          have hfeed : '\n'.utf8Size ≤ k := Nat.one_le_iff_ne_zero.mpr hne
          simp [takeBytes, hfeed] at hnil
        simp [hzero]
    | cons c m =>
        have hsmall : k < c.utf8Size := by
          by_contra hfits
          simp [takeBytes, Nat.le_of_not_lt hfits] at hnil
        have hnot : ¬ c.utf8Size ≤ k := by omega
        refine ⟨?_, by simp only [takeBytes, if_neg hnot]⟩
        rw [bytes_cons]
        omega

theorem le_of_mem_startsOf {offset n : Nat} {ls : List Text} (h : n ∈ startsOf offset ls) :
    offset ≤ n := by
  induction ls generalizing offset with
  | nil => contradiction
  | cons l ls ih =>
      rcases List.mem_cons.mp h with rfl | hmem
      · exact Nat.le_refl _
      · have := ih hmem
        omega

/-- The lines that start at or before a byte of a line are those before it and the line. -/
theorem countP_startsOf {offset byte : Nat} {init rest : List Text} {line : Text}
    (hstart : offset + feedBytes init ≤ byte)
    (hstop : byte ≤ offset + feedBytes init + line.bytes) :
    (startsOf offset (init ++ line :: rest)).countP (· ≤ byte) = init.length + 1 := by
  induction init generalizing offset with
  | nil =>
      have hnone : (startsOf (offset + line.bytes + 1) rest).countP (· ≤ byte) = 0 := by
        rw [List.countP_eq_zero]
        intro n hn
        have hafter := le_of_mem_startsOf hn
        rw [feedBytes_nil] at hstop
        simp only [decide_eq_true_eq]
        omega
      rw [feedBytes_nil] at hstart
      rw [List.nil_append, startsOf, List.countP_cons_of_pos (by simp; omega), hnone,
        List.length_nil]
  | cons first init ih =>
      rw [feedBytes_cons] at hstart hstop
      have hrest : (startsOf (offset + first.bytes + 1) (init ++ line :: rest)).countP (· ≤ byte) =
          init.length + 1 := ih (by omega) (by omega)
      rw [List.cons_append, startsOf, List.countP_cons_of_pos (by simp; omega), hrest,
        List.length_cons]

/-- Tell the byte offsets at which a character starts, and the end of the text. -/
def IsBoundary (t : Text) (n : Nat) : Prop := ∃ pre post, t = pre ++ post ∧ n = pre.bytes

/-- Three boundaries in order cut a text in four. -/
theorem exists_parts {t : Text} {start place stop : Nat} (hstart : t.IsBoundary start)
    (hplace : t.IsBoundary place) (hstop : t.IsBoundary stop) (hle : start ≤ place)
    (hle' : place ≤ stop) :
    ∃ pre head rest post : Text, t = pre ++ (head ++ rest) ++ post ∧ start = pre.bytes ∧
      place = (pre ++ head).bytes ∧ stop = (pre ++ (head ++ rest)).bytes := by
  obtain ⟨first, _, ht, rfl⟩ := hstart
  obtain ⟨second, _, ht', rfl⟩ := hplace
  obtain ⟨third, post, rfl, rfl⟩ := hstop
  obtain ⟨head, rfl⟩ := prefix_of_bytes_le ⟨_, ht.symm⟩ ⟨_, ht'.symm⟩ hle
  obtain ⟨rest, rfl⟩ := prefix_of_bytes_le ⟨_, ht'.symm⟩ ⟨post, rfl⟩ hle'
  exact ⟨first, head, rest, post, by rw [List.append_assoc first], rfl, rfl,
    by rw [List.append_assoc]⟩

end Text

namespace Position

/-! ### The order of positions -/

instance : LinearOrder Position where
  le_refl p := by simp [le_def]
  le_trans p q r := by simp only [le_def]; omega
  lt_iff_le_not_ge p q := by simp only [le_def, lt_def]; omega
  le_antisymm p q hpq hqp := by
    obtain ⟨line, column⟩ := p
    obtain ⟨line', column'⟩ := q
    simp only [le_def] at hpq hqp
    simp only [mk.injEq]
    omega
  le_total p q := by simp only [le_def]; omega
  toDecidableLE := inferInstance

theorem lt_right (p : Position) {delta : Nat} (h : 0 < delta) : p < p.right delta :=
  Or.inr ⟨rfl, Nat.lt_add_of_pos_right h⟩

/-- Writing anything leads to a later position. -/
theorem lt_advance (p : Position) {t : Text} (h : t ≠ []) : p < p.advance t := by
  obtain ⟨c, rest, rfl⟩ := List.exists_cons_of_ne_nil h
  by_cases hc : c = '\n'
  · rw [advance, if_pos hc]
    exact lt_of_lt_of_le (Or.inl (Nat.lt_succ_self _)) (le_advance _ _)
  · rw [advance, if_neg hc]
    exact lt_of_lt_of_le (p.lt_right (Text.charUnits_pos c)) (le_advance _ _)

theorem advance_le_advance (p : Position) {s t : Text} (h : s <+: t) :
    p.advance s ≤ p.advance t := by
  obtain ⟨rest, rfl⟩ := h
  rw [advance_append]
  exact le_advance _ _

/-! ### The cut that a position names -/

/-- A position is the place behind a text written from `start` on, or it is inside the surrogate
pair with which the text ends. -/
inductive Names (start p : Position) (pre : Text) : Prop
  | behind (h : p = start.advance pre)
  | inside (init : Text) (c : Char) (hpre : pre = init ++ [c]) (hwide : charUnits c = 2)
      (h : p = (start.advance init).right 1)

variable {start p : Position} {pre other : Text}

theorem feed_notMem_of_wide {c : Char} (h : charUnits c = 2) : '\n' ∉ [c] := by
  rw [List.mem_singleton]
  rintro rfl
  contradiction

/-- Only behind a surrogate pair a cut has a second name. -/
theorem Names.eq_advance {init : Text} {c : Char} (h : Names start p (init ++ [c]))
    (hnarrow : charUnits c = 1) : p = start.advance (init ++ [c]) := by
  cases h with
  | behind h => exact h
  | inside init' c' hpre hwide h =>
      obtain rfl := List.singleton_inj.mp (List.append_inj' hpre rfl).2
      omega

theorem Names.le_advance (h : Names start p pre) : p ≤ start.advance pre := by
  cases h with
  | behind h => exact le_of_eq h
  | inside init c hpre hwide h =>
      have hline := feed_notMem_of_wide hwide
      rw [h, hpre, advance_append, advance_of_notMem _ hline]
      exact Or.inr ⟨rfl, by simp [right, hwide]⟩

/-- A shorter text ends before any position that names the cut behind the longer one. -/
theorem Names.advance_lt (h : Names start p pre) (hother : other <+: pre) (hne : other ≠ pre) :
    start.advance other < p := by
  obtain ⟨rest, rfl⟩ := hother
  have hrest : rest ≠ [] := by
    rintro rfl
    exact hne (List.append_nil other).symm
  cases h with
  | behind h =>
      rw [h, advance_append]
      exact lt_advance _ hrest
  | inside init c hpre hwide h =>
      -- The pair is the last character, so the shorter text ends at or before its start.
      obtain ⟨more, rfl⟩ : ∃ more, init = other ++ more := by
        rw [← List.dropLast_concat_getLast hrest, ← List.append_assoc] at hpre
        exact ⟨rest.dropLast, (List.append_inj' hpre rfl).1.symm⟩
      rw [h]
      exact lt_of_le_of_lt (advance_le_advance start (List.prefix_append _ _))
        (lt_right _ Nat.one_pos)

/-- A position lies at or before the end of a beginning of the text exactly if the cut that it
names does. -/
theorem Names.le_advance_iff {t : Text} (h : Names start p pre) (hpre : pre <+: t)
    (hother : other <+: t) : p ≤ start.advance other ↔ pre.bytes ≤ other.bytes := by
  constructor
  · intro hle
    by_contra hlt
    have hbefore : other <+: pre := Text.prefix_of_bytes_le hother hpre (by omega)
    have hne : other ≠ pre := by
      rintro rfl
      omega
    exact absurd hle (not_le_of_gt (h.advance_lt hbefore hne))
  · intro hle
    exact le_trans h.le_advance
      (advance_le_advance start (Text.prefix_of_bytes_le hpre hother hle))

/-- A beginning of the text that does not end with a surrogate pair ends at or before a position
exactly if its cut is at or before the one that the position names. -/
theorem Names.advance_le_iff {t : Text} (h : Names start p pre) (hpre : pre <+: t)
    (hother : other <+: t) (hnarrow : ∀ c, other.getLast? = some c → charUnits c = 1) :
    start.advance other ≤ p ↔ other.bytes ≤ pre.bytes := by
  constructor
  · intro hle
    by_contra hlt
    have hbehind := (behind rfl : Names start (start.advance other) other).advance_lt
      (Text.prefix_of_bytes_le hpre hother (by omega)) (by rintro rfl; omega)
    exact absurd (le_trans hle h.le_advance) (not_le_of_gt hbehind)
  · intro hle
    have hbefore : other <+: pre := Text.prefix_of_bytes_le hother hpre hle
    by_cases heq : other = pre
    · cases h with
      | behind h => rw [h, heq]
      | inside init c hpre hwide h =>
          have hone := hnarrow c (by rw [heq, hpre, List.getLast?_concat])
          omega
    · exact le_of_lt (h.advance_lt hbefore heq)

/-- The line of a position is the one on which the text before it ends. -/
theorem Names.line_eq (h : Names start p pre) : p.line = (start.advance pre).line := by
  cases h with
  | behind h => rw [h]
  | inside init c hpre hwide h =>
      have hline := feed_notMem_of_wide hwide
      rw [h, hpre, advance_append, advance_of_notMem _ hline]
      rfl

end Position

namespace Buffer

open Position (origin Names)

variable {b : Buffer} {p : Position} {pre post : Text}

/-! ### Counting bytes -/

@[simp] theorem toByte_clamp (b : Buffer) (p : Position) : b.toByte (b.clamp p) = b.toByte p := by
  rw [toByte, toByte, clamp_clamp]

/-- Every position names a cut of the document, once it is brought into it. -/
theorem exists_names (b : Buffer) (p : Position) :
    ∃ pre post, b.text = pre ++ post ∧ Names origin (b.clamp p) pre := by
  have hclamp := b.clamp_clamp p
  obtain ⟨-, hcolumn⟩ := clamp_eq_self_iff.mp hclamp
  obtain ⟨hline, head, tail, htext, hhead⟩ := exists_of_clamp_eq_self hclamp
  generalize b.clamp p = q at *
  refine ⟨head ++ (b.line q.line).before q.column, tail, htext, ?_⟩
  -- Text is kept up to the column, and one unit more where the column is inside a pair.
  rcases Text.units_before hcolumn with hunits | ⟨hunits, c, hlast, hwide⟩
  · refine Names.behind ?_
    rw [Position.advance_append, hhead, Position.advance_of_notMem _ hline, hunits,
      Position.right, Nat.zero_add]
  · obtain ⟨init, hinit⟩ := List.getLast?_eq_some_iff.mp hlast
    rw [hinit] at hline hunits
    have hinitLine : '\n' ∉ init := fun hmem => hline (List.mem_append_left _ hmem)
    refine Names.inside (head ++ init) c (by rw [hinit, List.append_assoc]) hwide ?_
    rw [Position.advance_append, hhead, Position.advance_of_notMem _ hinitLine,
      Position.right_right, Position.right, Nat.zero_add]
    have hsum : Text.units init + 1 = q.column := by
      simp [hwide] at hunits
      omega
    rw [hsum]

/-- A position that names a cut is in the document. -/
theorem clamp_of_names (htext : b.text = pre ++ post) (h : Names origin p pre) :
    b.clamp p = p := by
  cases h with
  | behind h =>
      rw [h]
      exact clamp_advance htext
  | inside init c hpre hwide h =>
      have hline := Position.feed_notMem_of_wide hwide
      rw [hpre] at htext
      rw [h]
      exact clamp_right htext hline (by simp [hwide])

/-- The bytes before a position are those before the cut that it names. -/
theorem toByte_of_names (htext : b.text = pre ++ post) (h : Names origin p pre) :
    b.toByte p = pre.bytes := by
  cases h with
  | behind h =>
      rw [h]
      exact toByte_advance htext
  | inside init c hpre hwide h =>
      have hline := Position.feed_notMem_of_wide hwide
      rw [hpre] at htext
      rw [h, toByte_right htext hline (by simp [hwide]), hpre, Text.bytes_append,
        Text.columnToByte_cons _ _ Nat.one_pos, hwide]
      simp

/-- Bytes and positions put a place on the same side of every cut. -/
theorem toByte_le_bytes_iff (htext : b.text = pre ++ post) (p : Position) :
    b.toByte p ≤ pre.bytes ↔ b.clamp p ≤ origin.advance pre := by
  obtain ⟨named, rest, hnamed, hnames⟩ := b.exists_names p
  rw [← toByte_clamp, toByte_of_names hnamed hnames]
  exact (hnames.le_advance_iff ⟨rest, hnamed.symm⟩ ⟨post, htext.symm⟩).symm

/-! ### Finding the position of a byte -/

/-- A byte offset leads behind the longest beginning of the text that fits. -/
theorem ofByte_eq (b : Buffer) (n : Nat) :
    b.ofByte n = origin.advance (Text.takeBytes n b.text) := by
  obtain ⟨init, l, hinit⟩ := Text.exists_lines_eq_concat (Text.takeBytes n b.text)
  obtain ⟨m, rest, hrest⟩ := Text.exists_lines_eq_cons (Text.dropBytes n b.text)
  -- Of the `n` bytes `k` are left over: they reach into the next character, on the same line.
  obtain ⟨k, hmin, hle, hnil⟩ := Text.exists_left_over n b.text
  obtain ⟨hshort, hempty⟩ := Text.left_over_of_lines hrest hle hnil
  have hlines : b.lines = init ++ (l ++ m) :: rest := by
    rw [lines, ← Text.takeBytes_append_dropBytes n b.text]
    exact Text.lines_append hinit hrest
  have hbyte : min n b.text.bytes = Text.feedBytes init + (l.bytes + k) := by
    rw [hmin, Text.bytes_eq_of_lines hinit, Nat.add_assoc]
  have hindex : b.lineOfByte (Text.feedBytes init + (l.bytes + k)) = init.length := by
    rw [lineOfByte, lineStarts, hlines, Text.countP_startsOf, Nat.add_sub_cancel]
    · omega
    · rw [Text.bytes_append]
      omega
  rw [ofByte, hbyte, hindex, lineStart_of_lines hlines, line_of_lines hlines,
    Nat.add_sub_cancel_left, Text.byteToColumn, Text.takeBytes_bytes_add, hempty,
    List.append_nil, Position.origin_advance hinit]

theorem ofByte_bytes (htext : b.text = pre ++ post) : b.ofByte pre.bytes = origin.advance pre := by
  rw [ofByte_eq, htext, Text.takeBytes_bytes_append]

theorem clamp_ofByte (b : Buffer) (n : Nat) : b.clamp (b.ofByte n) = b.ofByte n := by
  rw [ofByte_eq]
  exact clamp_advance (Text.takeBytes_append_dropBytes n b.text).symm

/-- The place behind a text that replaced a range is in the edited document. -/
theorem clamp_afterReplace (b : Buffer) (r : Range) (text : Text) :
    (b.replace r text).clamp (b.afterReplace r text) = b.afterReplace r text := by
  rw [afterReplace, ofByte_eq, ← Position.advance_append]
  exact clamp_advance rfl

/-- A position has at most a number of bytes before it exactly if it is at or before the place
to which they lead. -/
theorem toByte_le_iff (b : Buffer) (p : Position) (n : Nat) :
    b.toByte p ≤ n ↔ b.clamp p ≤ b.ofByte n := by
  have htext := (Text.takeBytes_append_dropBytes n b.text).symm
  rw [ofByte_eq, ← toByte_le_bytes_iff htext]
  constructor
  · intro hle
    obtain ⟨named, rest, hnamed, hnames⟩ := b.exists_names p
    rw [← toByte_clamp, toByte_of_names hnamed hnames] at *
    rw [hnamed]
    exact Text.bytes_le_takeBytes hle
  · intro hle
    exact Nat.le_trans hle (Text.bytes_takeBytes_le n b.text)

theorem toByte_mono (b : Buffer) {p q : Position} (h : p ≤ q) : b.toByte p ≤ b.toByte q := by
  rw [toByte_le_iff]
  exact le_trans (b.clamp_mono h) ((b.toByte_le_iff q _).mp (Nat.le_refl _))

/-! ### The connection -/

/-- Tell whether a position is between the two halves of a surrogate pair of its line. -/
def SplitsPair (b : Buffer) (p : Position) : Prop :=
  ∃ (before : Text) (c : Char) (after : Text), b.line p.line = before ++ c :: after ∧
    charUnits c = 2 ∧ p.column = before.units + 1

/-- A position inside the pair that ends a beginning of the text splits the pair. -/
theorem splitsPair_right {init : Text} {c : Char} (htext : b.text = init ++ [c] ++ post)
    (hwide : charUnits c = 2) : b.SplitsPair ((origin.advance init).right 1) := by
  have hline := Position.feed_notMem_of_wide hwide
  obtain ⟨whole, l, m, rest, hinit, hlines⟩ := line_segment htext hline
  refine ⟨l, c, m, ?_, hwide, ?_⟩
  · rw [Position.origin_advance hinit, Position.right]
    dsimp only
    rw [line_of_lines hlines]
    simp
  · rw [Position.origin_advance hinit, Position.right]

/-- The place behind a beginning of the document splits no pair. -/
theorem not_splitsPair_advance (htext : b.text = pre ++ post) :
    ¬ b.SplitsPair (origin.advance pre) := by
  rintro ⟨before, c, after, hline, hwide, hcolumn⟩
  have hsegment : b.text = pre ++ [] ++ post := by rw [List.append_nil, htext]
  obtain ⟨init, l, m, rest, hpre, hlines⟩ := line_segment hsegment List.not_mem_nil
  rw [Position.origin_advance hpre] at hline hcolumn
  dsimp only at hline hcolumn
  rw [line_of_lines hlines, List.nil_append] at hline
  have hpair : before ++ [c] <+: l ++ m := ⟨after, by rw [hline]; simp⟩
  -- The last line before the place ends before the pair, behind it, or further on.
  rcases List.prefix_or_prefix_of_prefix (List.prefix_append l m) hpair with h | ⟨more, rfl⟩
  · rcases List.prefix_concat_iff.mp h with rfl | ⟨more, rfl⟩
    · simp [hwide] at hcolumn
    · simp at hcolumn
      omega
  · simp [hwide] at hcolumn
    omega

/-- Of the two names of a cut only the one that is not the place behind it splits a pair. -/
theorem splitsPair_iff_of_names (htext : b.text = pre ++ post) (h : Names origin p pre) :
    b.SplitsPair p ↔ p ≠ origin.advance pre := by
  constructor
  · rintro hsplit rfl
    exact not_splitsPair_advance htext hsplit
  · intro hne
    cases h with
    | behind h => exact absurd h hne
    | inside init c hpre hwide h =>
        rw [hpre] at htext
        rw [h]
        exact splitsPair_right htext hwide

/-- A position of the document that splits no pair is the place to which its bytes lead. -/
theorem ofByte_toByte (hp : b.clamp p = p) (hsplit : ¬ b.SplitsPair p) :
    b.ofByte (b.toByte p) = p := by
  obtain ⟨pre, post, htext, hnames⟩ := b.exists_names p
  rw [hp] at hnames
  rw [toByte_of_names htext hnames, ofByte_bytes htext]
  cases hnames with
  | behind h => exact h.symm
  | inside init c hpre hwide h =>
      rw [hpre] at htext
      rw [h] at hsplit
      exact absurd (splitsPair_right htext hwide) hsplit

theorem toByte_ofByte {n : Nat} (h : b.text.IsBoundary n) : b.toByte (b.ofByte n) = n := by
  obtain ⟨pre, post, htext, rfl⟩ := h
  rw [ofByte_bytes htext, toByte_advance htext]

/-- **Positions and byte offsets form a Galois connection**: rounding a position up and a byte
offset down, in whatever way they split characters or miss the document, never disagree.  On
the starts of characters the two are inverse. -/
theorem toByte_ofByte_galois (b : Buffer) :
    (∀ p n, b.toByte p ≤ n ↔ b.clamp p ≤ b.ofByte n) ∧
      (∀ n, b.text.IsBoundary n → b.toByte (b.ofByte n) = n) ∧
      (∀ p, b.clamp p = p → ¬ b.SplitsPair p → b.ofByte (b.toByte p) = p) :=
  ⟨b.toByte_le_iff, fun _ h => toByte_ofByte h, fun _ hp hsplit => ofByte_toByte hp hsplit⟩

/-- Before `𝔸` and behind it the two readings are inverse; inside the pair the position is
rounded up, and inside its four bytes the offset is rounded down. -/
theorem galois_around_wide_character :
    let b : Buffer := ⟨"a𝔸\né".toList⟩
    (b.toByte ⟨0, 2⟩ ≤ 4 ↔ b.clamp ⟨0, 2⟩ ≤ b.ofByte 4) ∧
      (b.text.IsBoundary 5 ∧ b.toByte (b.ofByte 5) = 5) ∧
      b.clamp ⟨0, 3⟩ = ⟨0, 3⟩ ∧ ¬ b.SplitsPair ⟨0, 3⟩ ∧ b.ofByte (b.toByte ⟨0, 3⟩) = ⟨0, 3⟩ := by
  intro b
  obtain ⟨hgalois, hbyte, hposition⟩ := b.toByte_ofByte_galois
  have hboundary : b.text.IsBoundary 5 := ⟨"a𝔸".toList, "\né".toList, rfl, rfl⟩
  have hsplit : ¬ b.SplitsPair ⟨0, 3⟩ := by
    rintro ⟨before, c, after, hline, hwide, hcolumn⟩
    rw [show b.line 0 = ['a', '𝔸'] from rfl] at hline
    rcases before with _ | ⟨x, _ | ⟨y, rest⟩⟩
    · simp at hcolumn
    · obtain ⟨rfl, -⟩ := List.cons_eq_cons.mp hline
      exact absurd hcolumn (by decide)
    · simp at hline
  exact ⟨hgalois ⟨0, 2⟩ 4, ⟨hboundary, hbyte 5 hboundary⟩, by decide, hsplit,
    hposition ⟨0, 3⟩ (by decide) hsplit⟩

/-! ### One character on -/

variable {c : Char}

/-- The bytes before a position are those of a beginning of the text. -/
theorem exists_cut_toByte (b : Buffer) (p : Position) :
    ∃ pre post, b.text = pre ++ post ∧ b.toByte p = pre.bytes := by
  obtain ⟨pre, post, htext, hnames⟩ := b.exists_names p
  have hbyte := toByte_of_names htext hnames
  rw [toByte_clamp] at hbyte
  exact ⟨pre, post, htext, hbyte⟩

/-- The place before the character that ends the text before a position. -/
theorem toByte_before (h : (Text.takeBytes (b.toByte p) b.text).getLast? = some c) :
    b.toByte (b.ofByte (b.toByte p - c.utf8Size)) + c.utf8Size = b.toByte p := by
  obtain ⟨pre, post, htext, hbyte⟩ := b.exists_cut_toByte p
  rw [hbyte, htext, Text.takeBytes_bytes_append, List.getLast?_eq_some_iff] at h
  obtain ⟨init, rfl⟩ := h
  have hinit : b.text = init ++ ([c] ++ post) := by rw [htext, List.append_assoc]
  have hless : b.toByte p - c.utf8Size = Text.bytes init := by
    rw [hbyte]
    simp
  rw [hless, toByte_ofByte ⟨init, [c] ++ post, hinit, rfl⟩, hbyte]
  simp

/-- The place behind the character that starts the text behind a position. -/
theorem toByte_behind (h : (Text.dropBytes (b.toByte p) b.text).head? = some c) :
    b.toByte (b.ofByte (b.toByte p + c.utf8Size)) = b.toByte p + c.utf8Size := by
  obtain ⟨pre, post, htext, hbyte⟩ := b.exists_cut_toByte p
  rw [hbyte, htext, Text.dropBytes_bytes_append, List.head?_eq_some_iff] at h
  obtain ⟨rest, rfl⟩ := h
  have hpassed : b.text = (pre ++ [c]) ++ rest := by simp [htext]
  rw [hbyte]
  exact toByte_ofByte ⟨pre ++ [c], rest, hpassed, by simp⟩

/-- Deleting up to a position leaves the caret where the deletion starts. -/
theorem afterReplace_before (h : (Text.takeBytes (b.toByte p) b.text).getLast? = some c) :
    b.afterReplace ⟨b.ofByte (b.toByte p - c.utf8Size), p⟩ [] =
      b.ofByte (b.toByte p - c.utf8Size) := by
  have hbefore := toByte_before h
  have hstart : b.toByte (b.ofByte (b.toByte p - c.utf8Size)) = b.toByte p - c.utf8Size := by
    omega
  rw [afterReplace, byteRange]
  dsimp only
  rw [hstart, Nat.min_eq_left (Nat.sub_le _ _), Position.advance_nil]

end Buffer

end MathTyping
