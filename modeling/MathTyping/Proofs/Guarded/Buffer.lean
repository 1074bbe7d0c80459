import MathTyping.Proofs.Buffer.LineIndex
import MathTyping.Proofs.Guarded.Operation

/-!
# Guarded reading of a document

A document is read through the line index that its buffer keeps: a line is cut out between two
starts, a position leads to an entry of the list, and a byte offset is looked up in it.
Nothing in these steps checks that the list fits the text.  What makes them safe is that the index
is that of the text (`IndexedBuffer`): the first start is zero, each later one is behind a line
feed, and both ends of a line are boundaries of characters (`exists_line_cut`).  An edit moves the
lines, so it indexes them again (`replace_eq`).  A buffer without an index is read by that of its
text.
-/

namespace MathTyping

namespace Text

variable {t line : Text} {init rest : List Text} {n m : Nat}

/-- A line stands behind the lines before it and their line feeds. -/
theorem exists_line_cut (h : t.lines = init ++ line :: rest) :
    ∃ head tail, t = head ++ line ++ tail ∧ head.bytes = feedBytes init ∧
      (rest = [] → tail = []) := by
  induction init generalizing t with
  | nil =>
      obtain ⟨-, ⟨-, rfl⟩ | ⟨u, rfl, rfl⟩⟩ := eq_of_lines_eq_cons h
      · exact ⟨[], [], by simp, rfl, fun _ => rfl⟩
      · exact ⟨[], '\n' :: u, rfl, rfl, fun hnil => absurd hnil (splitOn_ne_nil '\n' u)⟩
  | cons first init ih =>
      obtain ⟨-, ⟨hnil, -⟩ | ⟨u, rfl, hlines⟩⟩ := eq_of_lines_eq_cons h
      · exact absurd hnil (by simp)
      · obtain ⟨head, tail, rfl, hbytes, htail⟩ := ih hlines
        refine ⟨first ++ '\n' :: head, tail, by simp, ?_, htail⟩
        rw [bytes_append, bytes_cons, hbytes, feedBytes_cons, Nat.add_assoc]
        rfl

/-- What is kept of a text is kept as long as its own bytes fit. -/
theorem takeBytes_of_le (hle : m ≤ n) (hfits : (takeBytes n t).bytes ≤ m) :
    takeBytes m t = takeBytes n t := by
  induction t generalizing n m with
  | nil => rfl
  | cons c t ih =>
      by_cases hc : c.utf8Size ≤ n
      · rw [takeBytes, if_pos hc, bytes_cons] at hfits
        have hm : c.utf8Size ≤ m := by omega
        have hrest : takeBytes (m - c.utf8Size) t = takeBytes (n - c.utf8Size) t :=
          ih (by omega) (by omega)
        rw [takeBytes, takeBytes, if_pos hc, if_pos hm, hrest]
      · have hm : ¬ c.utf8Size ≤ m := by omega
        rw [takeBytes, takeBytes, if_neg hc, if_neg hm]

end Text

namespace Guarded

variable {b : Buffer} {index : Nat}

/-! ### Lines -/

/-- The text of a line, if the document has it: it ends before the line feed in front of the
next start. -/
def line? (d : IndexedBuffer) (index : Nat) : Guarded (Option Text) :=
  match d.lineStarts[index]? with
  | none => pure none
  | some start => do
      let stop ← match d.lineStarts[index + 1]? with
        | some next => minus next 1
        | none => pure d.text.bytes
      some <$> cut d.text start stop

/-- The lines of the document. -/
def lines (d : IndexedBuffer) : Guarded (List Text) := do
  let found ← (List.range d.lineStarts.length).mapM (line? d)
  pure (found.filterMap id)

/-- The code units of a line. -/
def lineUnits (d : IndexedBuffer) (index : Nat) : Guarded Nat := do
  let line ← line? d index
  pure (line.getD []).units

theorem length_lineStarts (b : Buffer) : b.indexed.lineStarts.length = b.lineCount := by
  rw [Buffer.lineStarts_indexed, Buffer.lineStarts, Text.length_startsOf, Buffer.lineCount]

theorem line?_eq (b : Buffer) (index : Nat) : line? b index = pure (b.line? index) := by
  rw [line?, Buffer.lineStarts_indexed, Buffer.text_indexed]
  -- A line ends at the feed in front of the next start, and the last one at the end of the text.
  rcases Nat.lt_or_ge index b.lines.length with hlt | hge
  · obtain ⟨init, line, rest, hlines, rfl⟩ :
        ∃ init line rest, b.lines = init ++ line :: rest ∧ index = init.length :=
      ⟨b.lines.take index, b.lines[index], b.lines.drop (index + 1),
        by rw [← List.drop_eq_getElem_cons hlt, List.take_append_drop],
        by rw [List.length_take, Nat.min_eq_left (Nat.le_of_lt hlt)]⟩
    obtain ⟨head, tail, htext, hhead, htail⟩ := Text.exists_line_cut hlines
    have hstart : b.lineStarts[init.length]? = some (Text.feedBytes init) := by
      rw [Buffer.lineStarts, hlines, Text.startsOf_getElem?, Nat.zero_add]
    have hcut : cut b.text (Text.feedBytes init) (Text.feedBytes init + line.bytes) =
        pure line := by
      rw [htext, ← hhead, ← Text.bytes_append, cut_append]
    have hline : b.line? init.length = some line := by
      rw [Buffer.line?, hlines]
      simp
    rw [hstart, hline]
    cases rest with
    | nil =>
        have hnext : b.lineStarts[init.length + 1]? = none := by
          rw [List.getElem?_eq_none_iff, Buffer.lineStarts, hlines, Text.length_startsOf]
          simp
        have hbytes : b.text.bytes = Text.feedBytes init + line.bytes := by
          rw [htext, htail rfl, List.append_nil, Text.bytes_append, hhead]
        simp only [hnext, hbytes, pure_bind, hcut, map_pure]
    | cons next rest =>
        have hnext : b.lineStarts[init.length + 1]? =
            some (Text.feedBytes init + line.bytes + 1) := by
          have happend := Text.startsOf_getElem? 0 (init ++ [line]) next rest
          rw [List.append_assoc, List.singleton_append, ← hlines, List.length_append,
            Text.feedBytes_append] at happend
          rw [Buffer.lineStarts]
          simpa [Nat.add_assoc] using happend
        simp only [hnext, minus_of_le (Nat.le_add_left 1 _), Nat.add_sub_cancel, pure_bind, hcut,
          map_pure]
  · have hstart : b.lineStarts[index]? = none := by
      rwa [List.getElem?_eq_none_iff, Buffer.lineStarts, Text.length_startsOf]
    rw [hstart, Buffer.line?, List.getElem?_eq_none_iff.mpr hge]

theorem lines_eq (b : Buffer) : lines b = pure b.lines := by
  have hall : ∀ ls : List Text, ((List.range ls.length).map (ls[·]?)).filterMap id = ls := by
    intro ls
    rw [List.filterMap_map]
    induction ls with
    | nil => rfl
    | cons l ls ih =>
        rw [List.length_cons, List.range_succ_eq_map, List.filterMap_cons, List.filterMap_map]
        exact congrArg (l :: ·) ih
  have hread : line? b = fun index => pure (b.line? index) := funext (line?_eq b)
  rw [lines, hread, List.mapM_pure, pure_bind, length_lineStarts]
  exact congrArg pure (hall b.lines)

theorem lineUnits_eq (b : Buffer) (index : Nat) :
    lineUnits b index = pure (b.lineUnits index) := by
  rw [lineUnits, line?_eq, pure_bind]
  rfl

/-! ### Positions -/

/-- The position after the last character. -/
def endPosition (d : IndexedBuffer) : Guarded Position := do
  let last ← minus d.lineStarts.length 1
  let column ← lineUnits d last
  pure ⟨last, column⟩

/-- Bring a position into the document. -/
def clamp (d : IndexedBuffer) (p : Position) : Guarded Position :=
  if d.lineStarts.length ≤ p.line then endPosition d
  else do
    let units ← lineUnits d p.line
    pure ⟨p.line, min p.column units⟩

/-- Count the bytes before a position. -/
def toByte (d : IndexedBuffer) (p : Position) : Guarded Nat := do
  let q ← clamp d p
  let start ← entry d.lineStarts q.line
  let line ← line? d q.line
  pure (start + (line.getD []).columnToByte q.column)

/-- Step back from a byte offset until a character starts there. -/
def floorBoundary (line : Text) (byte : Nat) : Guarded Nat :=
  if line.IsBoundary byte then pure byte
  else
    match byte with
    | 0 => throw .underflow
    | earlier + 1 => floorBoundary line earlier

/-- Count the code units before a byte offset of a line, rounding down to a character. -/
def byteToColumn (line : Text) (byte : Nat) : Guarded Nat := do
  let floor ← floorBoundary line (min byte line.bytes)
  let before ← cut line 0 floor
  pure before.units

/-- Find the position of a byte offset, rounding down to a character. -/
def ofByte (d : IndexedBuffer) (byte : Nat) : Guarded Position := do
  let byte := min byte d.text.bytes
  let index ← minus (d.lineStarts.countP (· ≤ byte)) 1
  let line ← line? d index
  let start ← entry d.lineStarts index
  let rest ← minus byte start
  let column ← byteToColumn (line.getD []) rest
  pure ⟨index, column⟩

theorem endPosition_eq (b : Buffer) : endPosition b = pure b.endPosition := by
  rw [endPosition, length_lineStarts, minus_of_le b.lineCount_pos, pure_bind, lineUnits_eq,
    pure_bind]
  rfl

theorem clamp_eq (b : Buffer) (p : Position) : clamp b p = pure (b.clamp p) := by
  rw [clamp, length_lineStarts, endPosition_eq, lineUnits_eq, pure_bind, Buffer.clamp]
  split <;> rfl

/-- The start of every line of the document is in the list. -/
theorem entry_lineStarts (h : index < b.lineCount) :
    entry b.indexed.lineStarts index = pure (b.lineStart index) := by
  refine entry_of_getElem? ?_
  have hlength : index < b.lineStarts.length := by
    rwa [Buffer.lineStarts, Text.length_startsOf]
  rw [Buffer.lineStarts_indexed, Buffer.lineStart, Buffer.lineStart?,
    List.getElem?_eq_getElem hlength]
  rfl

theorem toByte_eq (b : Buffer) (p : Position) : toByte b p = pure (b.toByte p) := by
  obtain ⟨hline, -⟩ := Buffer.clamp_eq_self_iff.mp (b.clamp_clamp p)
  rw [toByte, clamp_eq, pure_bind, entry_lineStarts hline, pure_bind, line?_eq, pure_bind]
  rfl

theorem floorBoundary_eq (line : Text) (byte : Nat) :
    floorBoundary line byte = pure (Text.takeBytes byte line).bytes := by
  induction byte with
  | zero => rw [floorBoundary, if_pos line.isBoundary_zero, Text.takeBytes_zero, Text.bytes_nil]
  | succ earlier ih =>
      rw [floorBoundary]
      split
      · rename_i hboundary
        rw [hboundary.bytes_takeBytes]
      · rename_i hinside
        -- No character starts here, so one offset less keeps the same characters.
        have hle := Text.bytes_takeBytes_le (earlier + 1) line
        have hboundary := Text.isBoundary_takeBytes (earlier + 1) line
        have hless : (Text.takeBytes (earlier + 1) line).bytes ≤ earlier := by
          by_contra hmore
          rw [show (Text.takeBytes (earlier + 1) line).bytes = earlier + 1 by omega] at hboundary
          exact hinside hboundary
        rw [ih, Text.takeBytes_of_le (Nat.le_succ earlier) hless]

theorem byteToColumn_eq (line : Text) (byte : Nat) :
    byteToColumn line byte = pure (line.byteToColumn byte) := by
  have hmin : Text.takeBytes (min byte line.bytes) line = Text.takeBytes byte line :=
    Text.takeBytes_of_le (Nat.min_le_left _ _)
      (Nat.le_min.mpr ⟨Text.bytes_takeBytes_le _ _, (Text.isBoundary_takeBytes _ _).le⟩)
  have hboundary := Text.isBoundary_takeBytes byte line
  rw [byteToColumn, floorBoundary_eq, hmin, pure_bind, cut_zero hboundary, pure_bind,
    Text.takeBytes_of_le (Text.bytes_takeBytes_le _ _) (Nat.le_refl _)]
  rfl

/-- Every byte is on a line, which starts at or before it. -/
theorem exists_line_of_byte (b : Buffer) (byte : Nat) :
    ∃ init line rest k, b.lines = init ++ line :: rest ∧ k ≤ Text.bytes line ∧
      min byte b.text.bytes = Text.feedBytes init + k := by
  obtain ⟨init, l, hinit⟩ := Text.exists_lines_eq_concat (Text.takeBytes byte b.text)
  obtain ⟨m, rest, hrest⟩ := Text.exists_lines_eq_cons (Text.dropBytes byte b.text)
  obtain ⟨k, hmin, hle, hnil⟩ := Text.exists_left_over byte b.text
  obtain ⟨hshort, -⟩ := Text.left_over_of_lines hrest hle hnil
  refine ⟨init, l ++ m, rest, l.bytes + k, ?_, ?_, ?_⟩
  · rw [Buffer.lines, ← Text.takeBytes_append_dropBytes byte b.text]
    exact Text.lines_append hinit hrest
  · rw [Text.bytes_append]
    omega
  · rw [hmin, Text.bytes_eq_of_lines hinit, Nat.add_assoc]

theorem ofByte_eq (b : Buffer) (byte : Nat) : ofByte b byte = pure (b.ofByte byte) := by
  obtain ⟨init, line, rest, k, hlines, hk, hbyte⟩ := exists_line_of_byte b byte
  have hcount : b.indexed.lineStarts.countP (· ≤ Text.feedBytes init + k) = init.length + 1 := by
    rw [Buffer.lineStarts_indexed, Buffer.lineStarts, hlines]
    exact Text.countP_startsOf (by omega) (by omega)
  have hindex : b.lineOfByte (Text.feedBytes init + k) = init.length := by
    rw [Buffer.lineOfByte, ← Buffer.lineStarts_indexed, hcount, Nat.add_sub_cancel]
  have hinside : init.length < b.lineCount := by
    rw [Buffer.lineCount, hlines]
    simp
  rw [ofByte, Buffer.text_indexed, hbyte, hcount, minus_of_le (Nat.le_add_left 1 _),
    Nat.add_sub_cancel, pure_bind, line?_eq, pure_bind, entry_lineStarts hinside, pure_bind,
    Buffer.lineStart_of_lines hlines, minus_of_le (Nat.le_add_right _ k), pure_bind,
    byteToColumn_eq, pure_bind, Buffer.ofByte,
    hbyte, hindex, Buffer.lineStart_of_lines hlines]
  rfl

/-! ### Ranges -/

/-- The byte offsets of the ends of a range, the smaller first. -/
def byteRange (d : IndexedBuffer) (r : Range) : Guarded (Nat × Nat) := do
  let start ← toByte d r.start
  let stop ← toByte d r.stop
  pure (min start stop, max start stop)

/-- The text that a range covers. -/
def slice (d : IndexedBuffer) (r : Range) : Guarded Text := do
  let (start, stop) ← byteRange d r
  cut d.text start stop

/-- Replace the text that a range covers, index the lines of what comes out, and give the place
behind what was written. -/
def replace (d : IndexedBuffer) (r : Range) (text : Text) : Guarded (IndexedBuffer × Position) := do
  let (start, stop) ← byteRange d r
  let place ← ofByte d start
  let head ← cut d.text 0 start
  let tail ← cut d.text stop d.text.bytes
  let after ← advance place text
  pure (.ofText (head ++ text ++ tail), after)

theorem byteRange_eq (b : Buffer) (r : Range) : byteRange b r = pure (b.byteRange r) := by
  rw [byteRange, toByte_eq, pure_bind, toByte_eq, pure_bind]
  rfl

/-- Positions lead to boundaries of characters, wherever they are. -/
theorem isBoundary_toByte (b : Buffer) (p : Position) : b.text.IsBoundary (b.toByte p) :=
  b.exists_cut_toByte p

/-- The ends of a range are in order and at boundaries, wherever its positions are. -/
theorem byteRange_spec (b : Buffer) (r : Range) :
    (b.byteRange r).1 ≤ (b.byteRange r).2 ∧ b.text.IsBoundary (b.byteRange r).1 ∧
      b.text.IsBoundary (b.byteRange r).2 := by
  have hstart := isBoundary_toByte b r.start
  have hstop := isBoundary_toByte b r.stop
  rw [Buffer.byteRange]
  dsimp only
  rcases Nat.le_total (b.toByte r.start) (b.toByte r.stop) with hle | hle
  · rw [Nat.min_eq_left hle, Nat.max_eq_right hle]
    exact ⟨hle, hstart, hstop⟩
  · rw [Nat.min_eq_right hle, Nat.max_eq_left hle]
    exact ⟨hle, hstop, hstart⟩

theorem slice_eq (b : Buffer) (r : Range) : slice b r = pure (b.slice r) := by
  obtain ⟨hle, hstart, hstop⟩ := byteRange_spec b r
  rw [slice, byteRange_eq, pure_bind]
  exact cut_of_isBoundary hle hstart hstop

/-- A document can be edited in every range, whatever is written there. -/
theorem replace_eq (b : Buffer) (r : Range) (text : Text) :
    replace b r text = pure ((b.replace r text).indexed, b.afterReplace r text) := by
  obtain ⟨-, hstart, hstop⟩ := byteRange_spec b r
  rw [replace, byteRange_eq, pure_bind]
  dsimp only
  rw [ofByte_eq, pure_bind, Buffer.text_indexed, cut_zero hstart, pure_bind, cut_bytes hstop,
    pure_bind, advance_eq, pure_bind]
  rfl

end Guarded

end MathTyping
