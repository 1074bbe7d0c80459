import MathTyping.Snippet.Expand
import MathTyping.Proofs.Query.Extent
import MathTyping.Proofs.Buffer.Cuts
import MathTyping.Proofs.Text.Occurrences

/-!
# The text and the caret of an expansion

Executing a snippet writes a template over a query, without the marker that says where the caret
goes.  The caret is not looked up in the edited document: it is counted in lines and code units
from the start of the query, over what stands before the marker.

The two agree, whatever stands around the query, however many lines the template has and however
wide its characters are, as long as the count starts where the text is written.  A start between
the halves of a surrogate pair is the one place where it does not: the text goes behind the pair,
and a caret that is counted on the same line ends one unit before the marker.
-/

namespace MathTyping

open Position (origin Names)

namespace Position

/-- Behind a line feed the column on which a text started is forgotten. -/
theorem advance_eq_of_feed {p q : Position} {t : Text} (hline : p.line = q.line) (h : '\n' ∈ t) :
    p.advance t = q.advance t := by
  induction t generalizing p q with
  | nil => contradiction
  | cons c t ih =>
      by_cases hc : c = '\n'
      · rw [advance, if_pos hc, advance, if_pos hc, hline]
      · rw [advance, if_neg hc, advance, if_neg hc]
        exact ih hline ((List.mem_cons.mp h).resolve_left (Ne.symm hc))

end Position

namespace Buffer

variable {b : Buffer} {p : Position} {pre post text : Text}

/-- A column that lacks one unit of a text is read as its end only where the unit is the half of
a pair. -/
theorem columnToByte_lacking (s : Text) (c : Char) :
    (s ++ [c]).columnToByte (s.units + (charUnits c - 1)) = (s ++ [c]).bytes ↔ charUnits c = 2 := by
  have hpos := c.utf8Size_pos
  rw [Text.columnToByte_append_units, Text.bytes_append, Nat.add_left_cancel_iff]
  rcases (show charUnits c = 1 ∨ charUnits c = 2 by unfold charUnits; split <;> simp) with h | h
  · rw [h, Nat.sub_self, Text.columnToByte_zero]
    simp
    omega
  · rw [h, Text.columnToByte_cons _ _ Nat.one_pos, h]
    simp

/-- A text that is counted from inside a pair ends where it stands behind the pair, unless its
last character is on the line of the pair and has a single unit. -/
theorem toByte_right_advance {init : Text} {c : Char}
    (htext : b.text = init ++ [c] ++ text ++ post) (hwide : charUnits c = 2)
    (hline : '\n' ∉ text) :
    b.toByte (((origin.advance init).right 1).advance text) = (init ++ [c] ++ text).bytes ↔
      ¬ Query.EndsNarrow text := by
  have hsegment : '\n' ∉ [c] ++ text := by
    rw [List.mem_append, not_or]
    exact ⟨Position.feed_notMem_of_wide hwide, hline⟩
  have htext' : b.text = init ++ ([c] ++ text) ++ post := by simp [htext]
  rw [Position.advance_of_notMem _ hline, Position.right_right,
    toByte_right htext' hsegment (by simp [hwide]), List.append_assoc init, Text.bytes_append init,
    Nat.add_left_cancel_iff]
  -- The count lacks one unit of the pair and the text.
  rcases List.eq_nil_or_concat text with rfl | ⟨front, d, rfl⟩
  · have hlack := columnToByte_lacking [] c
    have hend : ¬ Query.EndsNarrow [] := by
      rintro ⟨d, hlast, -⟩
      contradiction
    simp [hwide] at hlack ⊢
    tauto
  · rw [List.concat_eq_append]
    have hlack := columnToByte_lacking ([c] ++ front) d
    have hend : Query.EndsNarrow (front ++ [d]) ↔ charUnits d = 1 := by
      rw [Query.EndsNarrow, List.getLast?_concat]
      simp
    have hpos := Text.charUnits_pos d
    have hle := Text.charUnits_le_two d
    have hcolumn : 1 + Text.units (front ++ [d]) =
        Text.units ([c] ++ front) + (charUnits d - 1) := by
      simp [hwide]
      omega
    rw [hcolumn, ← List.append_assoc, hlack, hend]
    omega

/-- A text that is written behind a cut, and counted from a name of the cut, ends where the count
leads, unless the name is inside a pair and the text goes on there and ends with a single
unit. -/
theorem toByte_advance_of_names (htext : b.text = pre ++ text ++ post) (h : Names origin p pre) :
    b.toByte (p.advance text) = (pre ++ text).bytes ↔
      ¬ (p ≠ origin.advance pre ∧ '\n' ∉ text ∧ Query.EndsNarrow text) := by
  have hexact : b.toByte ((origin.advance pre).advance text) = (pre ++ text).bytes := by
    rw [← Position.advance_append]
    exact toByte_advance htext
  cases h with
  | behind h =>
      rw [h]
      exact iff_of_true hexact fun hne => hne.1 rfl
  | inside init c hpre hwide h =>
      have hne : p ≠ origin.advance pre := by
        have hpair := Position.feed_notMem_of_wide hwide
        rw [h, hpre, Position.advance_append, Position.advance_of_notMem _ hpair]
        simp [Position.right, hwide]
      by_cases hline : '\n' ∈ text
      · have hsame : p.line = (origin.advance pre).line :=
          (Names.inside init c hpre hwide h).line_eq
        rw [Position.advance_eq_of_feed hsame hline]
        exact iff_of_true hexact fun hout => hout.2.1 hline
      · rw [and_iff_right hne, and_iff_right hline]
        subst hpre
        rw [h]
        exact toByte_right_advance htext hwide hline

/-- The text around a range whose ends are in order, and the cut that its start names. -/
theorem exists_range_parts (b : Buffer) {r : Range} (h : r.start ≤ r.stop) :
    ∃ pre post, b.text = pre ++ b.slice r ++ post ∧ Names origin (b.clamp r.start) pre ∧
      ∀ text, b.replace r text = ⟨pre ++ text ++ post⟩ := by
  obtain ⟨pre, after, htext, hnames⟩ := b.exists_names r.start
  obtain ⟨whole, post, hwhole, hstop⟩ := b.exists_cut_toByte r.stop
  have hstart : b.toByte r.start = pre.bytes := by
    rw [← toByte_clamp, toByte_of_names htext hnames]
  have hle : pre.bytes ≤ whole.bytes := by
    rw [← hstart, ← hstop]
    exact toByte_mono b h
  obtain ⟨mid, rfl⟩ := Text.prefix_of_bytes_le ⟨after, htext.symm⟩ ⟨post, hwhole.symm⟩ hle
  have hrange : b.byteRange r = (pre.bytes, (pre ++ mid).bytes) := by
    rw [byteRange, hstart, hstop, Nat.min_eq_left hle, Nat.max_eq_right hle]
  refine ⟨pre, post, ?_, hnames, replace_of_cuts hwhole hrange⟩
  rw [slice_of_cuts hwhole hrange, hwhole]

end Buffer

namespace Snippet

open Text (FirstAt)

variable {s : Snippet} {q : Query} {evaluate : Evaluator} {e upto behind : Text}

/-- A text is what a snippet expands to: its content, or what its script gives. -/
def Expands (s : Snippet) (q : Query) (evaluate : Evaluator) (e : Text) : Prop :=
  s.script = false ∧ e = s.content ∨ s.script = true ∧ evaluate s.content q.argumentInput? = .ok e

/-- An expansion is written as two parts with the caret between them: without the first marker,
or as a whole with a space behind it. -/
def Written (e upto behind : Text) : Prop :=
  FirstAt cursorMarker e upto behind ∨
    ¬ cursorMarker <:+: e ∧ upto = e ++ [' '] ∧ behind = []

theorem execute_of_expands (h : s.Expands q evaluate e) :
    s.execute q evaluate = .ok (expand q e) := by
  rcases h with ⟨hscript, rfl⟩ | ⟨hscript, hvalue⟩
  · rw [execute, template, hscript]
    rfl
  · rw [execute, template, hscript, if_pos rfl, hvalue]
    rfl

/-- The parts are written over the query, and the caret is counted over the first. -/
theorem exists_written (q : Query) (e : Text) :
    ∃ upto behind, Written e upto behind ∧
      expand q e = ⟨some ⟨q.range, upto ++ behind⟩, q.start.advance upto⟩ := by
  cases hcut : Text.cut? cursorMarker e with
  | none =>
      refine ⟨e ++ [' '], [], .inr ⟨Text.cut?_eq_none_iff.mp hcut, rfl, rfl⟩, ?_⟩
      rw [expand, hcut, List.append_nil]
      rfl
  | some parts =>
      obtain ⟨upto, behind⟩ := parts
      exact ⟨upto, behind, .inl (Text.cut?_eq_some_iff.mp hcut), by rw [expand, hcut]⟩

/-- **An expansion stands where its query stood, with the caret where its marker was.** The text
around the query is kept.  The caret is short of the marker only where the query starts between
the halves of a surrogate pair and what stands before the marker is on that line and ends with a
single unit. -/
theorem expansion_and_caret (b : Buffer) (q : Query) (hline : q.start.line < b.lineCount)
    (hcolumn : q.start.column + q.length ≤ b.lineUnits q.start.line) (s : Snippet)
    (evaluate : Evaluator) (e : Text) (hexpands : s.Expands q evaluate e) :
    ∃ splice pre post upto behind, s.execute q evaluate = .ok splice ∧ Written e upto behind ∧
      b.text = pre ++ b.slice q.range ++ post ∧ b.toByte q.start = pre.bytes ∧
      (splice.apply b).1.text = pre ++ (upto ++ behind) ++ post ∧
      ((splice.apply b).1.toByte (splice.apply b).2 = b.toByte q.start + upto.bytes ↔
        ¬ (b.SplitsPair q.start ∧ '\n' ∉ upto ∧ Query.EndsNarrow upto)) := by
  obtain ⟨upto, behind, hwritten, hexpand⟩ := exists_written q e
  obtain ⟨pre, post, htext, hnames, hreplace⟩ :=
    Buffer.exists_range_parts b (show q.range.start ≤ q.range.stop from Position.le_right _ _)
  have hstart : b.clamp q.start = q.start := Buffer.clamp_eq_self_iff.mpr ⟨hline, by omega⟩
  have hcut : b.text = pre ++ (b.slice q.range ++ post) := by
    rw [← List.append_assoc]
    exact htext
  rw [Query.range, Range.onLine, hstart] at hnames
  have hbyte := Buffer.toByte_of_names hcut hnames
  refine ⟨expand q e, pre, post, upto, behind, execute_of_expands hexpands, hwritten, htext,
    hbyte, ?_, ?_⟩
  · rw [hexpand, Splice.apply, Splice.edited]
    dsimp only
    rw [Edit.apply, hreplace]
  · have hedited : Buffer.text ⟨pre ++ (upto ++ behind) ++ post⟩ =
        pre ++ upto ++ (behind ++ post) := by simp
    rw [hexpand, Splice.apply, Splice.edited]
    dsimp only
    rw [Edit.apply, hreplace, Buffer.toByte_clamp, hbyte, ← Text.bytes_append,
      Buffer.toByte_advance_of_names hedited hnames, Buffer.splitsPair_iff_of_names hcut hnames]

/-- The expansion has two lines, wide characters and two markers, and stands between others. -/
theorem expansion_on_two_lines :
    let b : Buffer := ⟨"𝔸+rows(2)@+𝔸\n".toList⟩
    let q : Query := ⟨.snippet, "rows".toList, some "(2)".toList, ⟨0, 3⟩⟩
    let s : Snippet := { Snippet.standard with content := "row".toList, script := true }
    let evaluate : Evaluator := fun body _ => .ok (body ++ "(𝔸,\n é#CURSOR, #CURSOR)".toList)
    let e : Text := "row(𝔸,\n é#CURSOR, #CURSOR)".toList
    q.start.line < b.lineCount ∧ q.start.column + q.length ≤ b.lineUnits q.start.line ∧
      s.Expands q evaluate e ∧
      ∃ splice, s.execute q evaluate = .ok splice ∧
        (splice.apply b).1.text = "𝔸+row(𝔸,\n é, #CURSOR)+𝔸\n".toList ∧
        (splice.apply b).1.toByte (splice.apply b).2 =
          b.toByte q.start + Text.bytes "row(𝔸,\n é".toList := by
  intro b q s evaluate e
  have hline : q.start.line < b.lineCount := by decide
  have hcolumn : q.start.column + q.length ≤ b.lineUnits q.start.line := by decide
  have hresult : s.content ++ "(𝔸,\n é#CURSOR, #CURSOR)".toList = e := by decide +kernel
  have hexpands : s.Expands q evaluate e := .inr ⟨rfl, congrArg Except.ok hresult⟩
  obtain ⟨splice, -, -, upto, behind, hexecute, hwritten, -, -, -, hcaret⟩ :=
    expansion_and_caret b q hline hcolumn s evaluate e hexpands
  have hfirst : FirstAt cursorMarker e "row(𝔸,\n é".toList ", #CURSOR)".toList :=
    Text.cut?_eq_some_iff.mp (by decide)
  obtain ⟨rfl, rfl⟩ : upto = "row(𝔸,\n é".toList ∧ behind = ", #CURSOR)".toList := by
    rcases hwritten with h | ⟨h, -⟩
    · exact h.unique hfirst
    · exact absurd ⟨_, _, hfirst.1.symm⟩ h
  refine ⟨hline, hcolumn, hexpands, splice, hexecute, ?_, hcaret.mpr ?_⟩
  · obtain rfl := Except.ok.inj (hexecute.symm.trans (execute_of_expands hexpands))
    decide +kernel
  · rintro ⟨-, hfeed, -⟩
    exact hfeed (by decide)

/-- Behind the first half of a pair the caret ends up before the last character that was written:
`b`, and not behind it. -/
theorem caret_short_of_marker :
    let b : Buffer := ⟨"𝔸a@".toList⟩
    let q : Query := ⟨.snippet, "a".toList, none, ⟨0, 1⟩⟩
    let s : Snippet := { Snippet.standard with name := "a".toList, content := "ab#CURSOR".toList }
    let evaluate : Evaluator := fun _ _ => .ok []
    q.start.line < b.lineCount ∧ q.start.column + q.length ≤ b.lineUnits q.start.line ∧
      s.Expands q evaluate s.content ∧ FirstAt cursorMarker s.content "ab".toList [] ∧
      ∃ splice, s.execute q evaluate = .ok splice ∧
        (splice.apply b).1.text = "𝔸ab@".toList ∧
        (splice.apply b).1.toByte (splice.apply b).2 = 5 ∧
        b.toByte q.start + Text.bytes "ab".toList = 6 := by
  intro b q s evaluate
  refine ⟨by decide, by decide, .inl ⟨rfl, rfl⟩, Text.cut?_eq_some_iff.mp (by decide), _, rfl, ?_⟩
  decide +kernel

end Snippet

end MathTyping
