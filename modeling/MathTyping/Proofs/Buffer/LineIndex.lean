import Mathlib.Data.List.Sort
import MathTyping.Proofs.Buffer.Cuts

/-!
# The line index

A buffer is kept with the byte offsets at which its lines start, and every conversion between
positions and offsets looks them up there.  The lines of a text are cut at its line feeds, so the
starts are listed in one pass over the text (`startsOf_lines`).

The starts belong to one text and to no other reading of it: they increase, and a number is among
them exactly if it is zero or behind a line feed (`LineIndex`).  That leaves one list for each text
(`LineIndex.unique`), so a buffer that carries its index is known by its text
(`IndexedBuffer.eq_indexed`), however the index was come by.
-/

namespace MathTyping

namespace Text

variable {t : Text} {starts others : List Nat}

/-- The byte offsets at which the lines of a text start, in order: zero, and one behind each line
feed. -/
structure LineIndex (t : Text) (starts : List Nat) : Prop where
  first : starts.head? = some 0
  increasing : starts.Pairwise (· < ·)
  entries : ∀ n, n ∈ starts ↔
    n = 0 ∨ ∃ before behind, t = before ++ '\n' :: behind ∧ n = before.bytes + 1

/-- A text has one line index. -/
theorem LineIndex.unique (h : t.LineIndex starts) (hother : t.LineIndex others) :
    others = starts :=
  hother.increasing.eq_of_mem_iff h.increasing fun n =>
    (hother.entries n).trans (h.entries n).symm

/-- List the byte offsets behind the line feeds of a text. -/
def feedsFrom (offset : Nat) : Text → List Nat
  | [] => []
  | c :: t =>
      if c = '\n' then (offset + 1) :: feedsFrom (offset + 1) t
      else feedsFrom (offset + c.utf8Size) t

/-- The byte offset of the start of every line, as the line feeds of the text give it. -/
def indexLines (t : Text) : List Nat := 0 :: feedsFrom 0 t

/-- The lines of a text start at its start and behind its line feeds. -/
theorem startsOf_lines (offset : Nat) (t : Text) :
    startsOf offset t.lines = offset :: feedsFrom offset t := by
  induction t generalizing offset with
  | nil => rfl
  | cons c t ih =>
      obtain ⟨l, rest, hlines⟩ := exists_lines_eq_cons t
      by_cases hc : c = '\n'
      · rw [hc, lines_feed, startsOf, ih, feedsFrom, if_pos rfl]
        rfl
      · have hstarts := ih (offset + c.utf8Size)
        rw [hlines, startsOf, List.cons_inj_right] at hstarts
        rw [lines_cons hc hlines, startsOf, feedsFrom, if_neg hc, ← hstarts, bytes_cons,
          Nat.add_assoc offset c.utf8Size]

theorem length_startsOf (offset : Nat) (ls : List Text) :
    (startsOf offset ls).length = ls.length := by
  induction ls generalizing offset with
  | nil => rfl
  | cons l ls ih => rw [startsOf, List.length_cons, List.length_cons, ih]

theorem pairwise_startsOf (offset : Nat) (ls : List Text) :
    (startsOf offset ls).Pairwise (· < ·) := by
  induction ls generalizing offset with
  | nil => exact List.Pairwise.nil
  | cons l ls ih =>
      refine List.pairwise_cons.mpr ⟨fun n hn => ?_, ih _⟩
      have hbehind := le_of_mem_startsOf hn
      omega

/-- A line feed of a text is its first character, or one of the rest. -/
theorem exists_feed_cons {c : Char} {P : Text → Prop} :
    (∃ before behind, c :: t = before ++ '\n' :: behind ∧ P before) ↔
      (c = '\n' ∧ P []) ∨ ∃ before behind, t = before ++ '\n' :: behind ∧ P (c :: before) := by
  constructor
  · rintro ⟨before, behind, htext, hbefore⟩
    cases before with
    | nil => exact Or.inl ⟨(List.cons_eq_cons.mp htext).1, hbefore⟩
    | cons d before =>
        obtain ⟨rfl, rfl⟩ := List.cons_eq_cons.mp htext
        exact Or.inr ⟨before, behind, rfl, hbefore⟩
  · rintro (⟨rfl, hfirst⟩ | ⟨before, behind, rfl, hbefore⟩)
    · exact ⟨[], t, rfl, hfirst⟩
    · exact ⟨c :: before, behind, rfl, hbefore⟩

theorem mem_feedsFrom {offset n : Nat} :
    n ∈ feedsFrom offset t ↔
      ∃ before behind, t = before ++ '\n' :: behind ∧ n = offset + before.bytes + 1 := by
  induction t generalizing offset with
  | nil => simp [feedsFrom]
  | cons c t ih =>
      -- Each feed of the rest has `c` in front of it too.
      have hlater : n ∈ feedsFrom (offset + c.utf8Size) t ↔
          ∃ before behind, t = before ++ '\n' :: behind ∧
            n = offset + Text.bytes (c :: before) + 1 := by
        simp only [ih, bytes_cons, Nat.add_assoc]
      rw [exists_feed_cons (P := fun before => n = offset + before.bytes + 1), ← hlater, feedsFrom]
      by_cases hc : c = '\n'
      · rw [if_pos hc, List.mem_cons, hc, show '\n'.utf8Size = 1 from rfl]
        simp
      · rw [if_neg hc]
        simp [hc]

theorem lineIndex_indexLines (t : Text) : t.LineIndex t.indexLines := by
  refine ⟨rfl, ?_, fun n => ?_⟩
  · rw [indexLines, ← startsOf_lines]
    exact pairwise_startsOf 0 t.lines
  · simp only [indexLines, List.mem_cons, mem_feedsFrom, Nat.zero_add]

end Text

/-- A buffer with the index by which it is read. -/
structure IndexedBuffer where
  text : Text
  lineStarts : List Nat
  indexed : text.LineIndex lineStarts

/-- Index the lines of a text. -/
def IndexedBuffer.ofText (text : Text) : IndexedBuffer :=
  ⟨text, text.indexLines, text.lineIndex_indexLines⟩

/-- The document of an indexed buffer. -/
def IndexedBuffer.buffer (d : IndexedBuffer) : Buffer := ⟨d.text⟩

/-- A buffer with its index. -/
def Buffer.indexed (b : Buffer) : IndexedBuffer := .ofText b.text

instance : Coe Buffer IndexedBuffer := ⟨Buffer.indexed⟩

@[simp] theorem Buffer.text_indexed (b : Buffer) : b.indexed.text = b.text := rfl

theorem Buffer.lineStarts_indexed (b : Buffer) : b.indexed.lineStarts = b.lineStarts :=
  (Text.startsOf_lines 0 b.text).symm

theorem Buffer.lineIndex_lineStarts (b : Buffer) : b.text.LineIndex b.lineStarts :=
  b.lineStarts_indexed ▸ b.indexed.indexed

/-- The index of a buffer cannot be another than that of its text. -/
theorem IndexedBuffer.eq_indexed (d : IndexedBuffer) : d = d.buffer.indexed := by
  obtain ⟨text, starts, hstarts⟩ := d
  obtain rfl := text.lineIndex_indexLines.unique hstarts
  rfl

end MathTyping
