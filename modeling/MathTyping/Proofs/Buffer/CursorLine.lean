import MathTyping.Proofs.Buffer.Cuts

/-!
# The line of a cursor

A cursor cuts its line in two (`lineBefore`, `lineBehind`).  Where the text of the document is
known around the cursor, so are the two parts: the last line of the text before it comes first,
and what stands on the line behind it follows (`exists_parts_of_names`).
-/

namespace MathTyping

open Position (origin Names)

namespace Text

/-- The text behind the last line feed. -/
def lastLine (t : Text) : Text := t.lines.getLastD []

theorem lastLine_of_lines {t l : Text} {init : List Text} (h : t.lines = init ++ [l]) :
    t.lastLine = l := by
  rw [lastLine, h, List.getLastD_concat]

theorem lines_eq_concat_lastLine (t : Text) : ∃ init, t.lines = init ++ [t.lastLine] := by
  obtain ⟨init, l, h⟩ := exists_lines_eq_concat t
  exact ⟨init, by rw [lastLine_of_lines h, h]⟩

/-- A text without line feeds goes on in the last line. -/
theorem lastLine_append (s : Text) {t : Text} (h : '\n' ∉ t) :
    (s ++ t).lastLine = s.lastLine ++ t := by
  obtain ⟨init, hs⟩ := lines_eq_concat_lastLine s
  exact lastLine_of_lines (lines_append hs (lines_of_notMem h))

theorem feed_notMem_lastLine (t : Text) : '\n' ∉ t.lastLine := by
  obtain ⟨init, h⟩ := lines_eq_concat_lastLine t
  have hline : t.lines[init.length]? = some t.lastLine := by
    rw [h, List.getElem?_concat_length]
  exact (Position.exists_of_lines_getElem? hline).1

/-- What is before the last line does not matter for the last line of a longer text. -/
theorem lastLine_lastLine_append (s t : Text) :
    (s.lastLine ++ t).lastLine = (s ++ t).lastLine := by
  obtain ⟨init, hs⟩ := lines_eq_concat_lastLine s
  obtain ⟨m, rest, ht⟩ := exists_lines_eq_cons t
  have hline : s.lastLine.lines = [] ++ [s.lastLine] := lines_of_notMem (feed_notMem_lastLine s)
  show (s.lastLine ++ t).lines.getLastD [] = (s ++ t).lines.getLastD []
  rw [lines_append hline ht, lines_append hs ht]
  simp [List.getLastD_eq_getLast?, List.getLast?_cons]

/-- The text before a column behind a whole text. -/
theorem before_append (s t : Text) (column : Nat) :
    before (s ++ t) (s.units + column) = s ++ before t column := by
  rw [before, columnToByte_append_units, takeBytes_bytes_add, before]

end Text

namespace Position

theorem column_advance (t : Text) : (origin.advance t).column = t.lastLine.units := by
  obtain ⟨init, h⟩ := Text.lines_eq_concat_lastLine t
  rw [Position.origin_advance h]

end Position

namespace Buffer

variable {b : Buffer} {pre post : Text}

/-- The line before a place is the last line of the text before it. -/
theorem before_advance (htext : b.text = pre ++ post) :
    (b.line (origin.advance pre).line).before (origin.advance pre).column = pre.lastLine := by
  have hsegment : b.text = pre ++ [] ++ post := by rw [List.append_nil, htext]
  obtain ⟨init, l, m, rest, hpre, hlines⟩ := line_segment hsegment List.not_mem_nil
  rw [Position.origin_advance hpre, line_of_lines hlines, Text.lastLine_of_lines hpre,
    List.nil_append]
  have hbefore := Text.before_append l m 0
  rwa [Text.before_zero, List.append_nil, Nat.add_zero] at hbefore

/-- The line of a cursor up to the cursor. -/
def lineBefore (b : Buffer) (cursor : Position) : Text :=
  (b.line (b.clamp cursor).line).before (b.clamp cursor).column

/-- The line of a cursor from the cursor on. -/
def lineBehind (b : Buffer) (cursor : Position) : Text :=
  Text.dropBytes ((b.line (b.clamp cursor).line).columnToByte (b.clamp cursor).column)
    (b.line (b.clamp cursor).line)

theorem line_eq_parts (b : Buffer) (cursor : Position) :
    b.line (b.clamp cursor).line = b.lineBefore cursor ++ b.lineBehind cursor :=
  (Text.takeBytes_append_dropBytes _ _).symm

theorem columnToByte_parts (b : Buffer) (cursor : Position) :
    (b.lineBefore cursor ++ b.lineBehind cursor).columnToByte (b.clamp cursor).column =
      (b.lineBefore cursor).bytes := by
  rw [← line_eq_parts, lineBefore, Text.bytes_before]

/-- The two parts of the line meet in the document where the cursor is. -/
theorem exists_cursor_line (b : Buffer) (cursor : Position) :
    ∃ head tail, b.text = head ++ (b.lineBefore cursor ++ b.lineBehind cursor) ++ tail ∧
      '\n' ∉ b.lineBefore cursor ++ b.lineBehind cursor ∧
      origin.advance head = ⟨(b.clamp cursor).line, 0⟩ ∧
      b.toByte cursor = (head ++ b.lineBefore cursor).bytes := by
  obtain ⟨hindex, hcolumn⟩ := clamp_eq_self_iff.mp (b.clamp_clamp cursor)
  obtain ⟨hline, head, tail, htext, hhead⟩ := exists_line hindex
  have hbyte := toByte_right htext hline hcolumn
  rw [hhead, Position.right] at hbyte
  dsimp only at hbyte
  rw [Nat.zero_add, toByte_clamp] at hbyte
  rw [line_eq_parts] at htext hline
  refine ⟨head, tail, htext, hline, hhead, ?_⟩
  rw [hbyte, Text.bytes_append, lineBefore, Text.bytes_before]

/-- A position that names a cut inside a stretch of one line cuts the line there. -/
theorem exists_parts_of_names {s t : Text} {cursor : Position}
    (htext : b.text = pre ++ (s ++ t) ++ post) (hline : '\n' ∉ s ++ t)
    (h : Names origin (b.clamp cursor) (pre ++ s)) :
    ∃ m, b.lineBefore cursor = pre.lastLine ++ s ∧ b.lineBehind cursor = t ++ m ∧
      origin.advance pre = ⟨(b.clamp cursor).line, pre.lastLine.units⟩ := by
  obtain ⟨init, l, m, rest, hpre, hlines⟩ := line_segment htext hline
  obtain rfl := Text.lastLine_of_lines hpre
  have hcut : b.text = (pre ++ s) ++ (t ++ post) := by simp [htext]
  have hindex : (b.clamp cursor).line = init.length := by
    have hs : '\n' ∉ s := fun hmem => hline (List.mem_append_left _ hmem)
    rw [h.line_eq, Position.advance_append, Position.advance_of_notMem _ hs,
      Position.origin_advance hpre, Position.right]
  have hwhole : b.line (b.clamp cursor).line = (pre.lastLine ++ s) ++ (t ++ m) := by
    rw [hindex, line_of_lines hlines]
    simp
  have hsplit : Text.columnToByte ((pre.lastLine ++ s) ++ (t ++ m)) (b.clamp cursor).column =
      Text.bytes (pre.lastLine ++ s) := by
    have hbyte := toByte_of_names hcut h
    rw [toByte, clamp_clamp, hwhole, hindex, lineStart_of_lines hlines, Text.bytes_append,
      Text.bytes_eq_of_lines hpre] at hbyte
    rw [Text.bytes_append]
    omega
  refine ⟨m, ?_, ?_, ?_⟩
  · rw [lineBefore, Text.before, hwhole, hsplit, Text.takeBytes_bytes_append]
  · rw [lineBehind, hwhole, hsplit, Text.dropBytes_bytes_append]
  · rw [Position.origin_advance hpre, hindex]

end Buffer

end MathTyping
