import MathTyping.Edit
import MathTyping.Proofs.Guarded.Buffer

/-!
# Replacing a range

A range may have its ends in any order, out of the document, or inside surrogate pairs.  Its
ends name two cuts all the same, so the document is three parts: before the range, what it
covers, and behind it (`exists_range_cuts`).  Replacing the range is an exchange of the second
part, and everything else about an edit is read off the parts: the place behind the new text,
the lines, and that replacing the new text by the old one gives the document back.  The line index
follows: a buffer that keeps one looks the ends up in it, and indexes the text anew.

The place behind the new text is not looked up in the edited document.  It is counted over the
text from the start of the range, rounded to a character, and the start of the range itself will
do if it is the place of a character.
-/

namespace MathTyping

namespace Text

/-- The lines of a text, with line feeds between them, are the text. -/
theorem join_lines (t : Text) : join ['\n'] t.lines = t :=
  join_splitOn '\n' t

theorem feed_notMem_of_mem_lines {t l : Text} (h : l ∈ t.lines) : '\n' ∉ l := by
  obtain ⟨index, hindex⟩ := List.getElem?_of_mem h
  exact (Position.exists_of_lines_getElem? hindex).1

end Text

namespace Buffer

open Position (origin)

variable {b : Buffer} {r : Range} {pre mid post : Text}

/-! ### The parts of a document around a range -/

/-- The ends of a range, whatever they are, cut the document in three. -/
theorem exists_range_cuts (b : Buffer) (r : Range) :
    ∃ pre mid post, b.text = pre ++ mid ++ post ∧
      b.byteRange r = (pre.bytes, (pre ++ mid).bytes) := by
  obtain ⟨first, afterFirst, hfirst, hstart⟩ := b.exists_cut_toByte r.start
  obtain ⟨second, afterSecond, hsecond, hstop⟩ := b.exists_cut_toByte r.stop
  rw [byteRange, hstart, hstop]
  rcases Nat.le_total first.bytes second.bytes with hle | hle
  · obtain ⟨mid, rfl⟩ := Text.prefix_of_bytes_le ⟨_, hfirst.symm⟩ ⟨_, hsecond.symm⟩ hle
    exact ⟨first, mid, afterSecond, hsecond, by rw [Nat.min_eq_left hle, Nat.max_eq_right hle]⟩
  · obtain ⟨mid, rfl⟩ := Text.prefix_of_bytes_le ⟨_, hsecond.symm⟩ ⟨_, hfirst.symm⟩ hle
    exact ⟨second, mid, afterFirst, hfirst, by rw [Nat.min_eq_right hle, Nat.max_eq_left hle]⟩

theorem afterReplace_of_cuts (htext : b.text = pre ++ mid ++ post)
    (hrange : b.byteRange r = (pre.bytes, (pre ++ mid).bytes)) (text : Text) :
    b.afterReplace r text = origin.advance (pre ++ text) := by
  rw [List.append_assoc] at htext
  rw [afterReplace, hrange, ofByte_bytes htext, ← Position.advance_append]

/-- Where a range in order starts at the place of a character, the text may be counted from its
start. -/
theorem afterReplace_eq_stop (horder : r.start ≤ r.stop) (hinside : b.clamp r.start = r.start)
    (hsplit : ¬ b.SplitsPair r.start) (text : Text) :
    b.afterReplace r text = Edit.stop ⟨r, text⟩ := by
  rw [afterReplace, byteRange, Nat.min_eq_left (toByte_mono b horder), ofByte_toByte hinside hsplit,
    Edit.stop]

/-- **An edit is exact, and can be undone.**  Whatever a range is, the text between the byte
offsets of its ends is exchanged and the rest stays; the line index is that of the new text, whose
lines give it back; the position that is returned is the place behind the text that was written;
and writing what was removed over what was written gives the document back.  A buffer that keeps an
index reads the range by the old one, and keeps that of the new text. -/
theorem replace_exact_and_undone (b : Buffer) (r : Range) (text : Text) :
    let start := min (b.toByte r.start) (b.toByte r.stop)
    let stop := max (b.toByte r.start) (b.toByte r.stop)
    let edited := b.replace r text
    let last := b.afterReplace r text
    (∃ pre post, b.text = pre ++ b.slice r ++ post ∧ start = pre.bytes ∧
        stop = (pre ++ b.slice r).bytes ∧ edited.text = pre ++ text ++ post) ∧
      edited.text.LineIndex edited.lineStarts ∧
      (Text.join ['\n'] edited.lines = edited.text ∧ ∀ l ∈ edited.lines, '\n' ∉ l) ∧
      edited.toByte last = start + text.bytes ∧ edited.ofByte (start + text.bytes) = last ∧
      (r.start ≤ r.stop → b.clamp r.start = r.start → ¬ b.SplitsPair r.start →
        last = Edit.stop ⟨r, text⟩) ∧
      edited.replace ⟨b.ofByte start, last⟩ (b.slice r) = b ∧
      ∀ d : IndexedBuffer, d.buffer = b →
        ∃ kept : IndexedBuffer, Guarded.replace d r text = pure (kept, last) ∧
          kept.buffer = edited ∧ kept.lineStarts = edited.lineStarts := by
  intro start stop edited last
  obtain ⟨pre, mid, post, htext, hrange⟩ := b.exists_range_cuts r
  obtain ⟨hstart, hstop⟩ : start = pre.bytes ∧ stop = (pre ++ mid).bytes := Prod.mk.inj hrange
  have hedited : edited.text = pre ++ text ++ post :=
    congrArg Buffer.text (replace_of_cuts htext hrange text)
  have hlast : last = origin.advance (pre ++ text) := afterReplace_of_cuts htext hrange text
  have hbytes : start + text.bytes = (pre ++ text).bytes := by rw [hstart, Text.bytes_append]
  have hfrom : b.ofByte start = origin.advance pre := by
    rw [hstart]
    exact ofByte_bytes (by rw [htext, List.append_assoc])
  rw [slice_of_cuts htext hrange]
  refine ⟨⟨pre, post, htext, hstart, hstop, hedited⟩, edited.lineIndex_lineStarts,
    ⟨Text.join_lines edited.text, fun l hl => Text.feed_notMem_of_mem_lines hl⟩, ?_, ?_,
    fun horder hinside hsplit => afterReplace_eq_stop horder hinside hsplit text, ?_, ?_⟩
  · rw [hlast, toByte_advance hedited, hbytes]
  · rw [hbytes, ofByte_bytes hedited, hlast]
  · rw [hfrom, hlast, replace_of_cuts hedited (byteRange_advance hedited), ← htext]
  · intro d hd
    rw [d.eq_indexed, hd]
    exact ⟨edited.indexed, Guarded.replace_eq b r text, rfl, edited.lineStarts_indexed⟩

/-- A range written backwards, with both ends inside surrogate pairs: it covers what is behind
the first pair up to behind the second, over three lines.  One that is in order and splits no
character leaves the place where the edit says. -/
theorem replaced_backwards_over_lines :
    let b : Buffer := ⟨"a𝔸\nbc\n𝔹d".toList⟩
    let r : Range := ⟨⟨2, 1⟩, ⟨0, 2⟩⟩
    let text := "x\n𝔸".toList
    let straight : Range := ⟨⟨0, 1⟩, ⟨1, 1⟩⟩
    (b.slice r = "\nbc\n𝔹".toList ∧ b.afterReplace r text = ⟨1, 2⟩ ∧
        (b.replace r text).replace ⟨b.ofByte 5, b.afterReplace r text⟩ (b.slice r) = b ∧
        ∃ kept, Guarded.replace b.indexed r text = pure (kept, b.afterReplace r text) ∧
          kept.lineStarts = [0, 7]) ∧
      straight.start ≤ straight.stop ∧ b.clamp straight.start = straight.start ∧
        ¬ b.SplitsPair straight.start ∧
        b.afterReplace straight text = Edit.stop ⟨straight, text⟩ := by
  intro b r text straight
  have htext : b.text = ['a'] ++ "𝔸\nbc\n𝔹d".toList := rfl
  have hsplit : ¬ b.SplitsPair straight.start := not_splitsPair_advance htext
  obtain ⟨-, -, -, -, -, -, hundone, hindexed⟩ := b.replace_exact_and_undone r text
  obtain ⟨kept, hkept, -, hstarts⟩ := hindexed b.indexed rfl
  obtain ⟨-, -, -, -, -, hstop, -⟩ := b.replace_exact_and_undone straight text
  exact ⟨⟨by decide, by decide, hundone, kept, hkept, hstarts.trans (by decide)⟩, by decide,
    by decide, hsplit, hstop (by decide) (by decide) hsplit⟩

end Buffer

end MathTyping
