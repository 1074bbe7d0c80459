import MathTyping.Offset
import MathTyping.Proofs.Buffer.Cuts

/-!
# Offsets in a source and in a document

The bytes before a line and column of a source are counted by walking over its lines, and the
bytes before a position of a document are looked up in the index of its lines.  The walk is a
lookup as well, of the line and then of the column (`offsetIn?_eq`), so the two agree on the
places that the source has.

On a missing line, and past the end of a line, they differ.  The source takes the place for its
own end, and the document brings it to the nearest end of a line.
-/

namespace MathTyping

open Position (origin Names)

namespace Text

/-- The walk over some lines finds the line, counts the whole lines before it, and the bytes
before the column. -/
theorem offsetIn?_eq (ls : List Text) (line column : Nat) :
    offsetIn? ls line column =
      ls[line]?.bind fun l => (columnToByte? l column).map (feedBytes (ls.take line) + ·) := by
  induction ls generalizing line with
  | nil => rfl
  | cons first ls ih =>
      cases line with
      | zero => simp [offsetIn?]
      | succ line =>
          rw [offsetIn?, ih, List.getElem?_cons_succ, List.take_succ_cons, feedBytes_cons]
          cases ls[line]? with
          | none => rfl
          | some l => simp [Function.comp_def, Nat.add_assoc]

/-- A source has a place: there is the line, and the column is at most its end. -/
def HasPlace (t : Text) (p : Position) : Prop :=
  ∃ l, t.lines[p.line]? = some l ∧ p.column ≤ l.units

variable {t : Text} {p q : Position}

theorem hasPlace_iff : t.HasPlace p ↔ (Buffer.mk t).clamp p = p := by
  rw [Buffer.clamp_eq_self_iff]
  show _ ↔ p.line < t.lines.length ∧ p.column ≤ (t.lines[p.line]?.getD []).units
  constructor
  · rintro ⟨l, hline, hcolumn⟩
    obtain ⟨hindex, -⟩ := List.getElem?_eq_some_iff.mp hline
    exact ⟨hindex, by rwa [hline, Option.getD_some]⟩
  · rintro ⟨hindex, hcolumn⟩
    rw [List.getElem?_eq_getElem hindex, Option.getD_some] at hcolumn
    exact ⟨_, List.getElem?_eq_getElem hindex, hcolumn⟩

/-- A place that the source does not have is taken for the end of the source. -/
theorem offsetOf_of_not_hasPlace (h : ¬ t.HasPlace p) : t.offsetOf p = t.bytes := by
  rw [offsetOf, offsetIn?_eq]
  cases hline : t.lines[p.line]? with
  | none => rfl
  | some l =>
      have hpast : l.units < p.column := Nat.lt_of_not_le fun hle => h ⟨l, hline, hle⟩
      rw [Option.bind_some, (columnToByte?_eq_none_iff l p.column).mpr hpast]
      rfl

theorem offsetOf_eq_toByte (h : t.HasPlace p) : t.offsetOf p = (Buffer.mk t).toByte p := by
  have hclamp := hasPlace_iff.mp h
  obtain ⟨l, hline, hcolumn⟩ := h
  obtain ⟨hindex, hl⟩ := List.getElem?_eq_some_iff.mp hline
  have hlines : (Buffer.mk t).lines = t.lines.take p.line ++ l :: t.lines.drop (p.line + 1) := by
    rw [← hl, ← List.drop_eq_getElem_cons hindex, List.take_append_drop]
    rfl
  have hlength : (t.lines.take p.line).length = p.line :=
    List.length_take_of_le (Nat.le_of_lt hindex)
  have hstart := Buffer.lineStart_of_lines hlines
  have hwhole := Buffer.line_of_lines hlines
  rw [hlength] at hstart hwhole
  obtain ⟨n, hn⟩ : ∃ n, columnToByte? l p.column = some n := by
    rw [← Option.ne_none_iff_exists', Ne, columnToByte?_eq_none_iff]
    exact Nat.not_lt_of_le hcolumn
  rw [offsetOf, offsetIn?_eq, hline, Option.bind_some, hn, Buffer.toByte, hclamp, hstart, hwhole,
    columnToByte, hn]
  rfl

/-- A place of the source has the bytes of a beginning that it names before it. -/
theorem exists_names_offsetOf (h : t.HasPlace p) :
    ∃ pre post, t = pre ++ post ∧ Names origin p pre ∧ t.offsetOf p = pre.bytes := by
  obtain ⟨pre, post, htext, hnames⟩ := (Buffer.mk t).exists_names p
  rw [hasPlace_iff.mp h] at hnames
  exact ⟨pre, post, htext, hnames, by rw [offsetOf_eq_toByte h, Buffer.toByte_of_names htext hnames]⟩

theorem isBoundary_offsetOf (t : Text) (p : Position) : t.IsBoundary (t.offsetOf p) := by
  by_cases h : t.HasPlace p
  · obtain ⟨pre, post, htext, -, hbytes⟩ := exists_names_offsetOf h
    exact ⟨pre, post, htext, hbytes⟩
  · exact ⟨t, [], (List.append_nil t).symm, offsetOf_of_not_hasPlace h⟩

/-- **Both ways of counting the bytes before a place agree wherever the source has the place**,
inside a surrogate pair as well, and every other place is taken for the end.  On the places of
the source the count keeps the order, and it never splits a character.  Places that may be
negative are counted in the same way, and those that are negative are taken for the start. -/
theorem offset_agrees_with_document (t : Text) :
    (∀ p, t.HasPlace p → t.offsetOf p = (Buffer.mk t).toByte p) ∧
      (∀ p, ¬ t.HasPlace p → t.offsetOf p = t.bytes) ∧
      (∀ p, t.HasPlace p →
        ∃ pre post, t = pre ++ post ∧ Names origin p pre ∧ t.offsetOf p = pre.bytes) ∧
      (∀ p q, t.HasPlace p → t.HasPlace q → p ≤ q → t.offsetOf p ≤ t.offsetOf q) ∧
      (∀ p, t.IsBoundary (t.offsetOf p)) ∧
      (∀ line column : Nat, t.offsetOfInt line column = t.offsetOf ⟨line, column⟩) ∧
      (∀ line column : Int, line < 0 ∨ column < 0 → t.offsetOfInt line column = 0) := by
  refine ⟨fun _ => offsetOf_eq_toByte, fun _ => offsetOf_of_not_hasPlace,
    fun _ => exists_names_offsetOf, fun p q hp hq hle => ?_, t.isBoundary_offsetOf,
    fun line column => ?_, fun line column hnegative => if_pos hnegative⟩
  · rw [offsetOf_eq_toByte hp, offsetOf_eq_toByte hq]
    exact Buffer.toByte_mono _ hle
  · rw [offsetOfInt, if_neg (by omega), Int.toNat_natCast, Int.toNat_natCast]

/-- The two halves of a pair on the second line, and a column behind the end of the first. -/
theorem offsets_in_two_lines :
    let t : Text := "é\n𝔸x".toList
    (t.HasPlace ⟨1, 1⟩ ∧ t.offsetOf ⟨1, 1⟩ = (Buffer.mk t).toByte ⟨1, 1⟩ ∧
        t.offsetOf ⟨1, 1⟩ = 7) ∧
      (t.HasPlace ⟨1, 2⟩ ∧ t.offsetOf ⟨1, 1⟩ ≤ t.offsetOf ⟨1, 2⟩) ∧
      (¬ t.HasPlace ⟨0, 2⟩ ∧ t.offsetOf ⟨0, 2⟩ = t.bytes ∧ (Buffer.mk t).toByte ⟨0, 2⟩ = 2) ∧
      t.offsetOfInt 1 (-1) = 0 := by
  intro t
  obtain ⟨hinside, houtside, -, hmono, -, -, hnegative⟩ := t.offset_agrees_with_document
  have hpair : t.HasPlace ⟨1, 1⟩ := ⟨['𝔸', 'x'], rfl, by decide⟩
  have hbehind : t.HasPlace ⟨1, 2⟩ := ⟨['𝔸', 'x'], rfl, by decide⟩
  have hpast : ¬ t.HasPlace ⟨0, 2⟩ := by
    rw [hasPlace_iff]
    decide
  exact ⟨⟨hpair, hinside _ hpair, by decide⟩, ⟨hbehind, hmono _ _ hpair hbehind (by decide)⟩,
    ⟨hpast, houtside _ hpast, by decide⟩, hnegative 1 (-1) (Or.inr (by decide))⟩

end Text

end MathTyping
