import Mathlib.Data.List.Induction
import MathTyping.Buffer

/-!
# Places in a document

A place is best given by the text before it: `Position.origin.advance pre` is where
a document `pre ++ rest` goes on after `pre`.  Every line, column and byte offset
is read off such a cut.  Along a segment without line feeds a place is named by its
column alone, and a column inside a surrogate pair means the end of the pair.

The main statements say which byte a column of a segment is (`toByte_right`), and
that replacing an end of a segment leaves the text around the segment as it was
(`replace_right`).
-/

namespace MathTyping

namespace Text

/-! ### Columns and cuts -/

theorem charUnits_le_two (c : Char) : charUnits c ≤ 2 := by
  unfold charUnits
  split <;> omega

@[simp] theorem columnToByte_zero (line : Text) : columnToByte line 0 = 0 := by
  rw [columnToByte, columnToByte?_zero]
  rfl

theorem columnToByte_cons (c : Char) (t : Text) {column : Nat} (hpos : 0 < column) :
    columnToByte (c :: t) column = c.utf8Size + columnToByte t (column - charUnits c) := by
  obtain ⟨n, rfl⟩ := Nat.exists_eq_add_of_lt hpos
  rw [Nat.zero_add]
  simp only [columnToByte, columnToByte?]
  cases columnToByte? t (n + 1 - charUnits c) <;> rfl

/-- A column behind a whole text is a column of the text that follows. -/
theorem columnToByte_append_units (s t : Text) (column : Nat) :
    columnToByte (s ++ t) (s.units + column) = s.bytes + columnToByte t column := by
  induction s with
  | nil => simp
  | cons c s ih =>
      have hpos := charUnits_pos c
      rw [List.cons_append, units_cons, columnToByte_cons _ _ (by omega),
        show charUnits c + units s + column - charUnits c = units s + column by omega, ih,
        bytes_cons, Nat.add_assoc]

/-- A column within a text does not depend on what follows. -/
theorem columnToByte_append_of_le {s : Text} {column : Nat} (t : Text)
    (h : column ≤ s.units) : columnToByte (s ++ t) column = columnToByte s column := by
  induction s generalizing column with
  | nil =>
      obtain rfl : column = 0 := Nat.le_zero.mp h
      simp
  | cons c s ih =>
      rcases Nat.eq_zero_or_pos column with rfl | hpos
      · simp
      · rw [units_cons] at h
        rw [List.cons_append, columnToByte_cons _ _ hpos, columnToByte_cons _ _ hpos,
          ih (by omega)]

@[simp] theorem columnToByte_units (s : Text) : columnToByte s s.units = s.bytes := by
  simpa using columnToByte_append_units s [] 0

@[simp] theorem takeBytes_zero (t : Text) : takeBytes 0 t = [] :=
  takeBytes_bytes_append [] t

theorem takeBytes_bytes_add (s t : Text) (n : Nat) :
    takeBytes (s.bytes + n) (s ++ t) = s ++ takeBytes n t := by
  induction s with
  | nil => simp
  | cons c s ih =>
      rw [List.cons_append, bytes_cons, takeBytes, if_pos (by omega),
        show c.utf8Size + bytes s + n - c.utf8Size = bytes s + n by omega, ih, List.cons_append]

/-- The text between two parts is what is between the byte offsets of its ends. -/
theorem slice_append (pre mid post : Text) :
    slice (pre ++ mid ++ post) pre.bytes (bytes (pre ++ mid)) = mid := by
  rw [slice, List.append_assoc, dropBytes_bytes_append, bytes_append, Nat.add_sub_cancel_left,
    takeBytes_bytes_append]

theorem takeBytes_append_of_le {s : Text} {n : Nat} (t : Text) (h : n ≤ s.bytes) :
    takeBytes n (s ++ t) = takeBytes n s := by
  induction s generalizing n with
  | nil =>
      obtain rfl : n = 0 := Nat.le_zero.mp h
      simp
  | cons c s ih =>
      rw [bytes_cons] at h
      rw [List.cons_append, takeBytes, takeBytes, ih (by omega)]

/-- The text before a column. -/
def before (line : Text) (column : Nat) : Text := takeBytes (columnToByte line column) line

@[simp] theorem before_zero (line : Text) : before line 0 = [] := by
  rw [before, columnToByte_zero, takeBytes_zero]

@[simp] theorem before_units (s : Text) : before s (units s) = s := by
  have h := takeBytes_bytes_append s []
  rwa [List.append_nil, ← columnToByte_units, ← before] at h

theorem before_cons (c : Char) (t : Text) {column : Nat} (hpos : 0 < column) :
    before (c :: t) column = c :: before t (column - charUnits c) := by
  rw [before, columnToByte_cons c t hpos, takeBytes, if_pos (Nat.le_add_right _ _),
    Nat.add_sub_cancel_left, before]

@[simp] theorem bytes_before (line : Text) (column : Nat) :
    (before line column).bytes = columnToByte line column := by
  induction line generalizing column with
  | nil => cases column <;> rfl
  | cons c t ih =>
      rcases Nat.eq_zero_or_pos column with rfl | hpos
      · simp
      · rw [before_cons c t hpos, columnToByte_cons c t hpos, bytes_cons, ih]

/-- The text before a column takes up as many units, unless the column is inside the surrogate
pair of its last character. -/
theorem units_before {line : Text} {column : Nat} (h : column ≤ line.units) :
    (before line column).units = column ∨
      (before line column).units = column + 1 ∧
        ∃ c, (before line column).getLast? = some c ∧ charUnits c = 2 := by
  induction line generalizing column with
  | nil =>
      obtain rfl : column = 0 := Nat.le_zero.mp h
      exact Or.inl rfl
  | cons c t ih =>
      rcases Nat.eq_zero_or_pos column with rfl | hpos
      · exact Or.inl (by rw [before_zero, units_nil])
      · rw [units_cons] at h
        rw [before_cons c t hpos]
        rcases Nat.lt_or_ge column (charUnits c) with hinside | hbehind
        · have htwo := charUnits_le_two c
          rw [show column - charUnits c = 0 by omega, before_zero]
          refine Or.inr ⟨?_, c, rfl, by omega⟩
          rw [units_cons, units_nil]
          omega
        · have hrest : column - charUnits c ≤ units t := by omega
          rcases ih hrest with hunits | ⟨hunits, last, hlast, hwide⟩
          · refine Or.inl ?_
            rw [units_cons, hunits]
            omega
          · refine Or.inr ⟨?_, last, ?_, hwide⟩
            · rw [units_cons, hunits]
              omega
            · rw [List.getLast?_cons, hlast]
              rfl

/-- The text before a column of a line is never shorter than the column says. -/
theorem le_units_before {line : Text} {column : Nat} (h : column ≤ line.units) :
    column ≤ (before line column).units := by
  rcases units_before h with hunits | ⟨hunits, -⟩ <;> omega

/-! ### Lines -/

theorem lines_nil : lines [] = [[]] := rfl

theorem lines_feed (t : Text) : lines ('\n' :: t) = [] :: lines t := rfl

theorem lines_cons {c : Char} {t l : Text} {rest : List Text} (hc : c ≠ '\n')
    (h : lines t = l :: rest) : lines (c :: t) = (c :: l) :: rest :=
  splitOn_cons hc h

theorem exists_lines_eq_cons (t : Text) : ∃ l rest, lines t = l :: rest :=
  List.exists_cons_of_ne_nil (splitOn_ne_nil '\n' t)

theorem exists_lines_eq_concat (t : Text) : ∃ init l, lines t = init ++ [l] :=
  ⟨_, _, (List.dropLast_concat_getLast (splitOn_ne_nil '\n' t)).symm⟩

theorem lines_of_notMem {t : Text} (h : '\n' ∉ t) : lines t = [t] :=
  splitOn_of_notMem h

/-- The last line of a text goes on in the first line of the text that follows. -/
theorem lines_append {s t l m : Text} {init rest : List Text} (hs : lines s = init ++ [l])
    (ht : lines t = m :: rest) : lines (s ++ t) = init ++ (l ++ m) :: rest := by
  induction s generalizing init l with
  | nil =>
      rw [lines_nil, List.singleton_eq_append_iff] at hs
      rcases hs with ⟨rfl, hl⟩ | ⟨rfl, hl⟩
      · obtain rfl : l = [] := List.singleton_inj.mp hl
        exact ht
      · contradiction
  | cons c s ih =>
      obtain ⟨first, others, hfirst⟩ := exists_lines_eq_cons s
      by_cases hc : c = '\n'
      · subst hc
        rw [lines_feed, List.cons_eq_append_iff] at hs
        rcases hs with ⟨rfl, hl⟩ | ⟨init, rfl, hs⟩
        · rw [hfirst] at hl
          exact absurd (congrArg List.length hl) (by simp)
        · rw [List.cons_append, lines_feed, ih hs, List.cons_append]
      · rw [lines_cons hc hfirst, List.cons_eq_append_iff] at hs
        rcases hs with ⟨rfl, hl⟩ | ⟨init, rfl, rfl⟩
        · obtain ⟨rfl, rfl⟩ := List.cons_eq_cons.mp hl
          have happend := ih (List.nil_append [first] ▸ hfirst)
          exact lines_cons hc happend
        · rw [← List.cons_append] at hfirst
          exact lines_cons hc (ih hfirst)

/-- A text is its first line, or goes on after a line feed. -/
theorem eq_of_lines_eq_cons {t l : Text} {rest : List Text} (h : lines t = l :: rest) :
    '\n' ∉ l ∧ (rest = [] ∧ t = l ∨ ∃ u, t = l ++ '\n' :: u ∧ lines u = rest) := by
  induction t generalizing l with
  | nil =>
      obtain ⟨rfl, rfl⟩ := List.cons_eq_cons.mp h
      exact ⟨List.not_mem_nil, Or.inl ⟨rfl, rfl⟩⟩
  | cons c t ih =>
      by_cases hc : c = '\n'
      · subst hc
        obtain ⟨rfl, rfl⟩ := List.cons_eq_cons.mp h
        exact ⟨List.not_mem_nil, Or.inr ⟨t, rfl, rfl⟩⟩
      · obtain ⟨first, others, hfirst⟩ := exists_lines_eq_cons t
        rw [lines_cons hc hfirst] at h
        obtain ⟨rfl, rfl⟩ := List.cons_eq_cons.mp h
        obtain ⟨hnotMem, hrest⟩ := ih hfirst
        refine ⟨List.not_mem_cons_of_ne_of_not_mem (Ne.symm hc) hnotMem, ?_⟩
        rcases hrest with ⟨hnil, rfl⟩ | ⟨u, rfl, hu⟩
        · exact Or.inl ⟨hnil, rfl⟩
        · exact Or.inr ⟨u, rfl, hu⟩

/-- The bytes of some whole lines with their line feeds. -/
def feedBytes : List Text → Nat
  | [] => 0
  | l :: ls => l.bytes + 1 + feedBytes ls

@[simp] theorem feedBytes_nil : feedBytes [] = 0 := rfl

@[simp] theorem feedBytes_cons (l : Text) (ls : List Text) :
    feedBytes (l :: ls) = l.bytes + 1 + feedBytes ls := rfl

theorem feedBytes_append (ls ms : List Text) :
    feedBytes (ls ++ ms) = feedBytes ls + feedBytes ms := by
  induction ls with
  | nil => simp
  | cons l ls ih => simp [ih, Nat.add_assoc]

theorem startsOf_getElem? (offset : Nat) (init : List Text) (l : Text) (rest : List Text) :
    (startsOf offset (init ++ l :: rest))[init.length]? = some (offset + feedBytes init) := by
  induction init generalizing offset with
  | nil => rfl
  | cons first init ih =>
      rw [List.cons_append, startsOf, List.length_cons, List.getElem?_cons_succ, ih]
      simp [Nat.add_assoc]

/-- A text is built character by character at its end, a line feed opening a new last line. -/
theorem lines_induction {motive : Text → List Text → Text → Prop} (nil : motive [] [] [])
    (feed : ∀ s init l, motive s init l → motive (s ++ ['\n']) (init ++ [l]) [])
    (char : ∀ s init l c, c ≠ '\n' → motive s init l → motive (s ++ [c]) init (l ++ [c]))
    {s l : Text} {init : List Text} (h : lines s = init ++ [l]) : motive s init l := by
  induction s using List.reverseRecOn generalizing init l with
  | nil =>
      obtain ⟨rfl, hl⟩ := List.append_inj' (show [] ++ [[]] = init ++ [l] from h) rfl
      rw [← List.singleton_inj.mp hl]
      exact nil
  | append_singleton s c ih =>
      obtain ⟨earlier, last, hs⟩ := exists_lines_eq_concat s
      by_cases hc : c = '\n'
      · subst hc
        have hfeed : (earlier ++ [last]) ++ [[]] = init ++ [l] := by
          rw [← h, lines_append hs (lines_feed []), List.append_nil, lines_nil,
            List.append_assoc, List.singleton_append]
        obtain ⟨rfl, hl⟩ := List.append_inj' hfeed rfl
        rw [← List.singleton_inj.mp hl]
        exact feed s earlier last (ih hs)
      · have hone : lines [c] = [[c]] := lines_of_notMem (by simpa using Ne.symm hc)
        rw [lines_append hs hone] at h
        obtain ⟨rfl, hl⟩ := List.append_inj' h rfl
        rw [← List.singleton_inj.mp hl]
        exact char s earlier last c hc (ih hs)

/-- The bytes of a text are those of its whole lines and of its last line. -/
theorem bytes_eq_of_lines {s l : Text} {init : List Text} (h : lines s = init ++ [l]) :
    s.bytes = feedBytes init + l.bytes := by
  refine lines_induction (motive := fun s init l => bytes s = feedBytes init + bytes l)
    rfl ?_ ?_ h
  · intro s init l ih
    rw [bytes_append, ih, feedBytes_append]
    rfl
  · intro s init l c _ ih
    rw [bytes_append, bytes_append, ih, Nat.add_assoc]

end Text

namespace Position

@[simp] theorem right_zero (p : Position) : p.right 0 = p := rfl

theorem right_right (p : Position) (delta more : Nat) :
    (p.right delta).right more = p.right (delta + more) := by
  rw [right, right, right, Nat.add_assoc]

/-! ### Writing a text -/

theorem advance_of_notMem {t : Text} (p : Position) (h : '\n' ∉ t) :
    p.advance t = p.right t.units := by
  induction t generalizing p with
  | nil => rfl
  | cons c t ih =>
      obtain ⟨hc, ht⟩ := not_or.mp (List.mem_cons.not.mp h)
      rw [advance, if_neg (Ne.symm hc), ih _ ht, right_right, Text.units_cons]

/-- A text with a line feed leads to a later line, and one without along the line. -/
theorem advance_cases (p : Position) (t : Text) :
    p.line < (p.advance t).line ∨ p.advance t = p.right t.units := by
  induction t generalizing p with
  | nil => exact Or.inr rfl
  | cons c t ih =>
      by_cases hc : c = '\n'
      · rw [advance, if_pos hc]
        rcases ih ⟨p.line + 1, 0⟩ with hline | hsame
        · exact Or.inl (Nat.lt_of_succ_lt hline)
        · rw [hsame]
          exact Or.inl (Nat.lt_succ_self p.line)
      · rw [advance, if_neg hc]
        rcases ih (p.right (charUnits c)) with hline | hsame
        · exact Or.inl hline
        · refine Or.inr ?_
          rw [hsame, right_right, Text.units_cons]

/-- A column that a text reaches lies before its end. -/
theorem right_le_advance {t : Text} {delta : Nat} (p : Position) (h : delta ≤ t.units) :
    p.right delta ≤ p.advance t := by
  rcases advance_cases p t with hline | hsame
  · exact Or.inl hline
  · rw [hsame]
    exact Or.inr ⟨rfl, Nat.add_le_add_left h _⟩

theorem le_advance (p : Position) (t : Text) : p ≤ p.advance t :=
  right_le_advance p (Nat.zero_le _)

theorem le_right (p : Position) (delta : Nat) : p ≤ p.right delta :=
  Or.inr ⟨rfl, Nat.le_add_right _ _⟩

theorem left_right (p : Position) {delta more : Nat} (h : delta ≤ more) :
    (p.right more).left delta = p.right (more - delta) := by
  rw [left, right, right, Nat.add_sub_assoc h]

/-- The line and the column behind a text are those of the end of its last line. -/
theorem origin_advance {s l : Text} {init : List Text} (h : s.lines = init ++ [l]) :
    origin.advance s = ⟨init.length, l.units⟩ := by
  refine Text.lines_induction
    (motive := fun s init l => origin.advance s = ⟨init.length, Text.units l⟩) rfl ?_ ?_ h
  · intro s init l ih
    rw [advance_append, ih, List.length_append]
    rfl
  · intro s init l c hc ih
    rw [advance_append, ih, advance, if_neg hc, Text.units_append]
    rfl

/-- Every line of a text follows a part of the text that ends where the line starts. -/
theorem exists_of_lines_getElem? {t line : Text} {index : Nat}
    (hline : t.lines[index]? = some line) :
    '\n' ∉ line ∧ ∃ head tail, t = head ++ line ++ tail ∧
      ∀ start, (Position.mk start 0).advance head = ⟨start + index, 0⟩ := by
  induction index generalizing t with
  | zero =>
      obtain ⟨l, rest, hlines⟩ := Text.exists_lines_eq_cons t
      obtain ⟨hnotMem, hrest⟩ := Text.eq_of_lines_eq_cons hlines
      rw [hlines] at hline
      obtain rfl : l = line := Option.some.inj hline
      refine ⟨hnotMem, [], ?_⟩
      rcases hrest with ⟨-, rfl⟩ | ⟨u, rfl, -⟩
      · exact ⟨[], by simp, fun start => rfl⟩
      · exact ⟨'\n' :: u, rfl, fun start => rfl⟩
  | succ index ih =>
      obtain ⟨l, rest, hlines⟩ := Text.exists_lines_eq_cons t
      obtain ⟨hnotMem, hrest⟩ := Text.eq_of_lines_eq_cons hlines
      rw [hlines, List.getElem?_cons_succ] at hline
      rcases hrest with ⟨rfl, -⟩ | ⟨u, rfl, rfl⟩
      · contradiction
      · obtain ⟨hwithin, head, tail, rfl, hadvance⟩ := ih hline
        refine ⟨hwithin, l ++ '\n' :: head, tail, by simp, fun start => ?_⟩
        rw [advance_append, advance_of_notMem _ hnotMem, advance, if_pos rfl]
        dsimp only [right]
        rw [hadvance, Nat.add_assoc, Nat.add_comm 1]

end Position

namespace Buffer

open Position (origin)

variable {b : Buffer} {pre seg post : Text}

theorem lineCount_pos (b : Buffer) : 0 < b.lineCount :=
  List.length_pos_iff.mpr (Text.splitOn_ne_nil '\n' b.text)

/-- The places that a document has are those that need not be brought into it. -/
theorem clamp_eq_self_iff {p : Position} :
    b.clamp p = p ↔ p.line < b.lineCount ∧ p.column ≤ b.lineUnits p.line := by
  have hpos := b.lineCount_pos
  obtain ⟨line, column⟩ := p
  unfold clamp
  split
  · rename_i hbehind
    rw [endPosition, Position.mk.injEq]
    dsimp only at *
    omega
  · rename_i hinside
    rw [Position.mk.injEq]
    dsimp only at *
    omega

theorem clamp_clamp (b : Buffer) (p : Position) : b.clamp (b.clamp p) = b.clamp p := by
  have hpos := b.lineCount_pos
  rw [clamp_eq_self_iff]
  unfold clamp
  split
  · exact ⟨Nat.sub_lt hpos Nat.one_pos, Nat.le_refl _⟩
  · rename_i hinside
    exact ⟨Nat.lt_of_not_le hinside, Nat.min_le_right _ _⟩

theorem clamp_mono (b : Buffer) {p q : Position} (h : p ≤ q) : b.clamp p ≤ b.clamp q := by
  have hpos := b.lineCount_pos
  obtain ⟨line, column⟩ := p
  obtain ⟨line', column'⟩ := q
  rw [Position.le_def] at *
  unfold clamp endPosition
  dsimp only at *
  split <;> split
  · omega
  · omega
  · rcases Nat.lt_or_ge line (b.lineCount - 1) with hline | hline
    · exact Or.inl hline
    · obtain rfl : line = b.lineCount - 1 := by omega
      exact Or.inr ⟨rfl, Nat.min_le_right _ _⟩
  · rcases h with hline | ⟨rfl, hcolumn⟩
    · exact Or.inl hline
    · exact Or.inr ⟨rfl, by dsimp only; omega⟩

/-- A line of the document is where the lines before it end. -/
theorem line_of_lines {init rest : List Text} {l : Text} (h : b.lines = init ++ l :: rest) :
    b.line init.length = l := by
  rw [line, line?, h]
  simp

theorem lineStart_of_lines {init rest : List Text} {l : Text} (h : b.lines = init ++ l :: rest) :
    b.lineStart init.length = Text.feedBytes init := by
  rw [lineStart, lineStart?, lineStarts, h, Text.startsOf_getElem?]
  simp

/-- What a document looks like around a segment of one line. -/
theorem line_segment (htext : b.text = pre ++ seg ++ post) (hseg : '\n' ∉ seg) :
    ∃ init l m rest, pre.lines = init ++ [l] ∧
      b.lines = init ++ (l ++ (seg ++ m)) :: rest := by
  obtain ⟨init, l, hpre⟩ := Text.exists_lines_eq_concat pre
  obtain ⟨m, rest, hpost⟩ := Text.exists_lines_eq_cons post
  refine ⟨init, l, m, rest, hpre, ?_⟩
  have hsegment : (seg ++ post).lines = (seg ++ m) :: rest :=
    Text.lines_append (List.nil_append [seg] ▸ Text.lines_of_notMem hseg) hpost
  rw [lines, htext, List.append_assoc]
  exact Text.lines_append hpre hsegment

variable {column : Nat}

/-- A column of a segment is a place of the document. -/
theorem clamp_right (htext : b.text = pre ++ seg ++ post) (hseg : '\n' ∉ seg)
    (hcolumn : column ≤ seg.units) :
    b.clamp ((origin.advance pre).right column) = (origin.advance pre).right column := by
  obtain ⟨init, l, m, rest, hpre, hlines⟩ := line_segment htext hseg
  rw [clamp_eq_self_iff, Position.origin_advance hpre, Position.right, lineCount, lineUnits, line,
    line?, hlines]
  simp
  omega

/-- A column of a segment is the byte that it is in the segment, behind the text before. -/
theorem toByte_right (htext : b.text = pre ++ seg ++ post) (hseg : '\n' ∉ seg)
    (hcolumn : column ≤ seg.units) :
    b.toByte ((origin.advance pre).right column) = pre.bytes + seg.columnToByte column := by
  obtain ⟨init, l, m, rest, hpre, hlines⟩ := line_segment htext hseg
  rw [toByte, clamp_right htext hseg hcolumn, Position.origin_advance hpre]
  dsimp only [Position.right]
  rw [lineStart_of_lines hlines, line_of_lines hlines, Text.columnToByte_append_units,
    Text.columnToByte_append_of_le m hcolumn, Text.bytes_eq_of_lines hpre, Nat.add_assoc]

/-- The place behind a beginning of the document is in the document. -/
theorem clamp_advance (htext : b.text = pre ++ post) :
    b.clamp (origin.advance pre) = origin.advance pre := by
  have hsegment : b.text = pre ++ [] ++ post := by rw [List.append_nil, htext]
  exact clamp_right hsegment List.not_mem_nil (Nat.zero_le _)

theorem toByte_advance (htext : b.text = pre ++ post) :
    b.toByte (origin.advance pre) = pre.bytes := by
  have hsegment : b.text = pre ++ [] ++ post := by rw [List.append_nil, htext]
  have hbyte := toByte_right hsegment List.not_mem_nil (Nat.zero_le _)
  rwa [Text.columnToByte_zero, Position.right_zero, Nat.add_zero] at hbyte

/-- Every line stands in the document behind what ends where the line starts. -/
theorem exists_line {index : Nat} (h : index < b.lineCount) :
    '\n' ∉ b.line index ∧ ∃ head tail, b.text = head ++ b.line index ++ tail ∧
      origin.advance head = ⟨index, 0⟩ := by
  have hline : b.text.lines[index]? = some (b.line index) := by
    show b.lines[index]? = some (b.lines[index]?.getD [])
    rw [List.getElem?_eq_getElem h]
    rfl
  obtain ⟨hnotMem, head, tail, htext, hhead⟩ := Position.exists_of_lines_getElem? hline
  refine ⟨hnotMem, head, tail, htext, ?_⟩
  rw [origin, hhead, Nat.zero_add]

/-- The text before a column of a line stands in the document, behind what ends where the line
starts. -/
theorem exists_of_clamp_eq_self {p : Position} (hp : b.clamp p = p) :
    '\n' ∉ (b.line p.line).before p.column ∧
      ∃ head tail, b.text = head ++ (b.line p.line).before p.column ++ tail ∧
        origin.advance head = ⟨p.line, 0⟩ := by
  obtain ⟨hline, -⟩ := clamp_eq_self_iff.mp hp
  obtain ⟨hnotMem, head, tail, htext, hhead⟩ := exists_line hline
  let after := Text.dropBytes ((b.line p.line).columnToByte p.column) (b.line p.line)
  have hcut : b.line p.line = (b.line p.line).before p.column ++ after :=
    (Text.takeBytes_append_dropBytes _ _).symm
  refine ⟨fun hmem => hnotMem ?_, head, after ++ tail, ?_, hhead⟩
  · rw [hcut]
    exact List.mem_append_left _ hmem
  · rw [htext]
    nth_rewrite 1 [hcut]
    simp only [List.append_assoc]

/-! ### Ranges -/

variable {r : Range} {mid : Text}

/-- Between the places behind two beginnings is what the second has more. -/
theorem byteRange_advance (htext : b.text = pre ++ mid ++ post) :
    b.byteRange ⟨origin.advance pre, origin.advance (pre ++ mid)⟩ =
      (pre.bytes, (pre ++ mid).bytes) := by
  have hstart : b.toByte (origin.advance pre) = pre.bytes :=
    toByte_advance (by rw [htext, List.append_assoc])
  have hle : pre.bytes ≤ (pre ++ mid).bytes := by
    rw [Text.bytes_append]
    exact Nat.le_add_right _ _
  rw [byteRange, hstart, toByte_advance htext, Nat.min_eq_left hle, Nat.max_eq_right hle]

/-- A range covers what stands between its cuts. -/
theorem slice_of_cuts (htext : b.text = pre ++ mid ++ post)
    (hrange : b.byteRange r = (pre.bytes, (pre ++ mid).bytes)) : b.slice r = mid := by
  rw [slice, hrange, htext]
  exact Text.slice_append pre mid post

/-- Replacing a range exchanges what stands between its cuts. -/
theorem replace_of_cuts (htext : b.text = pre ++ mid ++ post)
    (hrange : b.byteRange r = (pre.bytes, (pre ++ mid).bytes)) (text : Text) :
    b.replace r text = ⟨pre ++ text ++ post⟩ := by
  rw [replace, hrange, htext]
  dsimp only
  rw [Text.dropBytes_bytes_append, List.append_assoc pre, Text.takeBytes_bytes_append]

/-- Replacing an end of a segment leaves the text around the segment. -/
theorem replace_right (htext : b.text = pre ++ seg ++ post) (hseg : '\n' ∉ seg)
    (hcolumn : column ≤ seg.units) (text : Text) :
    b.replace ⟨(origin.advance pre).right column, (origin.advance pre).right seg.units⟩ text =
      ⟨pre ++ (seg.before column ++ text) ++ post⟩ := by
  have hle := Text.columnToByte_le seg column
  have hstop : b.toByte ((origin.advance pre).right seg.units) = (pre ++ seg).bytes := by
    rw [toByte_right htext hseg (Nat.le_refl _), Text.columnToByte_units, Text.bytes_append]
  have hrange : b.byteRange
      ⟨(origin.advance pre).right column, (origin.advance pre).right seg.units⟩ =
        (pre.bytes + seg.columnToByte column, (pre ++ seg).bytes) := by
    rw [byteRange, toByte_right htext hseg hcolumn, hstop, Text.bytes_append]
    rw [Nat.min_eq_left (by omega), Nat.max_eq_right (by omega)]
  rw [replace, hrange, htext]
  dsimp only
  rw [Text.dropBytes_bytes_append, List.append_assoc pre seg post, Text.takeBytes_bytes_add,
    Text.takeBytes_append_of_le post hle, List.append_assoc pre, Text.before]

end Buffer

end MathTyping
