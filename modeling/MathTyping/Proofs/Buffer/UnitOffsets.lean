import MathTyping.Proofs.Buffer.Cuts

/-!
# Positions and code unit offsets

A code unit offset counts from the start of the document, with one unit for each line feed.
Every offset up to the end is the column of some stretch of a line, behind the units of the text
before the stretch.  Both conversions are read off such a stretch (`toOffset_right`,
`ofOffset_right`), so each undoes the other.

The units before a position and the bytes before it are counted over one text, with one
exception: a position inside a surrogate pair has the whole pair in its bytes and half of it in
its units.
-/

namespace MathTyping

open Position (origin Names)

namespace Text

theorem lines_ne_nil (t : Text) : lines t ≠ [] := splitOn_ne_nil '\n' t

/-- A text is a line, or a line before a line feed and another text. -/
theorem line_induction {motive : Text → Prop} (line : ∀ l, '\n' ∉ l → motive l)
    (feed : ∀ l u, '\n' ∉ l → motive u → motive (l ++ '\n' :: u)) (t : Text) : motive t := by
  obtain ⟨l, rest, hlines⟩ := exists_lines_eq_cons t
  induction rest generalizing t l with
  | nil =>
      obtain ⟨hl, ⟨-, rfl⟩ | ⟨u, rfl, hu⟩⟩ := eq_of_lines_eq_cons hlines
      · exact line t hl
      · exact absurd hu (lines_ne_nil u)
  | cons m rest ih =>
      obtain ⟨hl, ⟨hnil, -⟩ | ⟨u, rfl, hu⟩⟩ := eq_of_lines_eq_cons hlines
      · contradiction
      · exact feed l u hl (ih u m hu)

theorem lines_line_feed {l : Text} (hl : '\n' ∉ l) (u : Text) :
    lines (l ++ '\n' :: u) = l :: lines u := by
  have hline : lines l = [] ++ [l] := lines_of_notMem hl
  rw [lines_append hline (lines_feed u), List.append_nil, List.nil_append]

/-- The units of a text are those of its whole lines with their line feeds, and of its last
line. -/
theorem units_eq_of_lines {s l : Text} {init : List Text} (h : lines s = init ++ [l]) :
    init.foldl (fun n l => n + (l.units + 1)) 0 + l.units = s.units := by
  refine lines_induction (motive := fun s init l =>
    init.foldl (fun n l => n + (units l + 1)) 0 + units l = units s) rfl ?_ ?_ h
  · intro s init l ih
    rw [List.foldl_append, units_append, ← ih]
    rfl
  · intro s init l c _ ih
    rw [units_append, units_append, ← ih, Nat.add_assoc]

end Text

namespace Buffer

variable {b : Buffer} {p q : Position} {pre seg post l : Text} {ls : List Text}
  {index column m n : Nat}

/-! ### Walking over lines -/

theorem positionIn_first (h : n ≤ l.units) : positionIn (l :: ls) index n = ⟨index, n⟩ := by
  cases ls with
  | nil => rw [positionIn, Nat.min_eq_left h]
  | cons m ls =>
      rw [positionIn, if_pos h]
      exact List.cons_ne_nil m ls

theorem positionIn_later (hne : ls ≠ []) (h : l.units < n) :
    positionIn (l :: ls) index n = positionIn ls (index + 1) (n - (l.units + 1)) := by
  obtain ⟨m, rest, rfl⟩ := List.exists_cons_of_ne_nil hne
  rw [positionIn, if_neg (Nat.not_le_of_lt h)]
  exact hne

theorem le_line_positionIn (ls : List Text) (index n : Nat) :
    index ≤ (positionIn ls index n).line := by
  induction ls generalizing index n with
  | nil => exact Nat.le_refl index
  | cons l ls ih =>
      rcases Nat.lt_or_ge l.units n with hlater | hfirst
      · by_cases hne : ls = []
        · rw [hne]
          exact Nat.le_refl index
        · rw [positionIn_later hne hlater]
          exact Nat.le_of_succ_le (ih (index + 1) _)
      · exact Nat.le_of_eq (congrArg Position.line (positionIn_first hfirst)).symm

theorem positionIn_mono (ls : List Text) (index : Nat) (h : m ≤ n) :
    positionIn ls index m ≤ positionIn ls index n := by
  induction ls generalizing index m n with
  | nil => exact le_rfl
  | cons l ls ih =>
      by_cases hne : ls = []
      · rw [hne]
        exact Or.inr ⟨rfl, by show min m _ ≤ min n _; omega⟩
      · rcases Nat.lt_or_ge l.units n with hlater | hfirst
        · rw [positionIn_later hne hlater]
          rcases Nat.lt_or_ge l.units m with hboth | hfirst
          · rw [positionIn_later hne hboth]
            exact ih (index + 1) (Nat.sub_le_sub_right h _)
          · rw [positionIn_first hfirst]
            exact Or.inl (le_line_positionIn ls (index + 1) _)
        · rw [positionIn_first hfirst, positionIn_first (Nat.le_trans h hfirst)]
          exact Or.inr ⟨rfl, h⟩

/-- The units before a stretch of a line and a column of the stretch lead to the column. -/
theorem positionIn_lines (post : Text) (hseg : '\n' ∉ seg) (hcolumn : column ≤ seg.units)
    (pre : Text) (index : Nat) :
    positionIn (pre ++ seg ++ post).lines index (pre.units + column) =
      ((Position.mk index 0).advance pre).right column := by
  -- The walk drops the lines before the stretch one by one, and stops on the line that holds it.
  induction pre using Text.line_induction generalizing index with
  | line l hl =>
      obtain ⟨m, rest, hpost⟩ := Text.exists_lines_eq_cons post
      have hline : Text.lines (l ++ seg) = [] ++ [l ++ seg] :=
        Text.lines_of_notMem (by simp [hl, hseg])
      have hshort : l.units + column ≤ Text.units (l ++ seg ++ m) := by
        simp only [Text.units_append]
        omega
      rw [Text.lines_append hline hpost, List.nil_append, positionIn_first hshort,
        Position.advance_of_notMem _ hl, Position.right_right, Position.right, Nat.zero_add]
  | feed l u hl ih =>
      have hafter : Text.units (l ++ '\n' :: u) + column =
          l.units + 1 + (Text.units u + column) := by
        rw [Text.units_append, Text.units_cons, show charUnits '\n' = 1 from rfl]
        omega
      have hpast : l.units < l.units + 1 + (Text.units u + column) := by omega
      rw [List.append_assoc, List.append_assoc, List.cons_append, ← List.append_assoc u,
        Text.lines_line_feed hl, hafter,
        positionIn_later (Text.lines_ne_nil (u ++ seg ++ post)) hpast,
        Nat.add_sub_cancel_left, ih, Position.advance_append, Position.advance_of_notMem _ hl,
        Position.advance, if_pos rfl]
      rfl

/-- All units of a text, and any more, lead to its end. -/
theorem positionIn_of_le (t : Text) (index : Nat) (h : t.units ≤ n) :
    positionIn t.lines index n = (Position.mk index 0).advance t := by
  induction t using Text.line_induction generalizing index n with
  | line l hl =>
      rw [Text.lines_of_notMem hl, positionIn, Nat.min_eq_right h,
        Position.advance_of_notMem _ hl, Position.right, Nat.zero_add]
  | feed l u hl ih =>
      rw [Text.units_append, Text.units_cons, show charUnits '\n' = 1 from rfl] at h
      have hpast : l.units < n := by omega
      have hrest : Text.units u ≤ n - (l.units + 1) := by omega
      rw [Text.lines_line_feed hl,
        positionIn_later (Text.lines_ne_nil u) hpast, ih (index + 1) hrest,
        Position.advance_append, Position.advance_of_notMem _ hl, Position.advance, if_pos rfl]
      rfl

/-! ### The two conversions on a stretch of a line -/

theorem toOffset_right (htext : b.text = pre ++ seg ++ post) (hseg : '\n' ∉ seg)
    (hcolumn : column ≤ seg.units) :
    b.toOffset ((origin.advance pre).right column) = pre.units + column := by
  obtain ⟨init, l, m, rest, hpre, hlines⟩ := line_segment htext hseg
  rw [toOffset, clamp_right htext hseg hcolumn, Position.origin_advance hpre]
  dsimp only [Position.right]
  rw [hlines, List.take_left, ← Nat.add_assoc, Text.units_eq_of_lines hpre]

theorem ofOffset_right (htext : b.text = pre ++ seg ++ post) (hseg : '\n' ∉ seg)
    (hcolumn : column ≤ seg.units) :
    b.ofOffset (pre.units + column) = (origin.advance pre).right column := by
  rw [ofOffset, lines, htext]
  exact positionIn_lines post hseg hcolumn pre 0

/-- An offset past the end leads to the end. -/
theorem ofOffset_min (b : Buffer) (n : Nat) : b.ofOffset (min n b.text.units) = b.ofOffset n := by
  rcases Nat.le_total n b.text.units with hle | hge
  · rw [Nat.min_eq_left hle]
  · rw [Nat.min_eq_right hge, ofOffset, ofOffset, lines, positionIn_of_le b.text 0 hge,
      positionIn_of_le b.text 0 (Nat.le_refl _)]

/-- Every position, brought into the document, is a column of a stretch of a line. -/
theorem exists_stretch (b : Buffer) (p : Position) :
    ∃ pre seg post column, b.text = pre ++ seg ++ post ∧ '\n' ∉ seg ∧ column ≤ seg.units ∧
      b.clamp p = (origin.advance pre).right column := by
  obtain ⟨hindex, hcolumn⟩ := clamp_eq_self_iff.mp (b.clamp_clamp p)
  obtain ⟨hline, head, tail, htext, hhead⟩ := exists_line hindex
  refine ⟨head, b.line (b.clamp p).line, tail, (b.clamp p).column, htext, hline, hcolumn, ?_⟩
  rw [hhead, Position.right, Nat.zero_add]

/-- Every offset of a text is the place behind a character, or inside a surrogate pair. -/
theorem exists_stretch_of_le (b : Buffer) (h : n ≤ b.text.units) :
    ∃ pre seg post column, b.text = pre ++ seg ++ post ∧ '\n' ∉ seg ∧ column ≤ seg.units ∧
      n = pre.units + column := by
  obtain ⟨rest, hcut⟩ : ∃ rest, b.text = b.text.before n ++ rest :=
    ⟨_, (Text.takeBytes_append_dropBytes (b.text.columnToByte n) b.text).symm⟩
  -- The text before the offset has its units, or one more where a pair is cut in half.
  rcases Text.units_before h with hunits | ⟨hunits, c, hlast, hwide⟩
  · refine ⟨b.text.before n, [], rest, 0, ?_, List.not_mem_nil, Nat.zero_le _, hunits.symm⟩
    rwa [List.append_nil]
  · obtain ⟨init, hinit⟩ := List.getLast?_eq_some_iff.mp hlast
    rw [hinit] at hcut hunits
    refine ⟨init, [c], rest, 1, hcut, Position.feed_notMem_of_wide hwide, ?_, ?_⟩
    · simp [hwide]
    · simp [hwide] at hunits
      omega

theorem toOffset_clamp (b : Buffer) (p : Position) : b.toOffset (b.clamp p) = b.toOffset p := by
  rw [toOffset, toOffset, clamp_clamp]

theorem ofOffset_toOffset (b : Buffer) (p : Position) : b.ofOffset (b.toOffset p) = b.clamp p := by
  obtain ⟨pre, seg, post, column, htext, hseg, hcolumn, hp⟩ := b.exists_stretch p
  rw [← toOffset_clamp, hp, toOffset_right htext hseg hcolumn, ofOffset_right htext hseg hcolumn]

theorem toOffset_ofOffset (b : Buffer) (n : Nat) :
    b.toOffset (b.ofOffset n) = min n b.text.units := by
  obtain ⟨pre, seg, post, column, htext, hseg, hcolumn, hn⟩ :=
    b.exists_stretch_of_le (Nat.min_le_right n b.text.units)
  rw [← ofOffset_min, hn, ofOffset_right htext hseg hcolumn, toOffset_right htext hseg hcolumn]

/-! ### Order -/

theorem ofOffset_mono (b : Buffer) (h : m ≤ n) : b.ofOffset m ≤ b.ofOffset n :=
  positionIn_mono b.lines 0 h

theorem toOffset_mono (b : Buffer) (h : p ≤ q) : b.toOffset p ≤ b.toOffset q := by
  -- Were the offsets the other way round, their positions would be so too, hence equal.
  by_contra hlt
  have hback := b.ofOffset_mono (Nat.le_of_not_le hlt)
  rw [ofOffset_toOffset, ofOffset_toOffset] at hback
  have hsame : b.clamp p = b.clamp q := le_antisymm (b.clamp_mono h) hback
  rw [← toOffset_clamp, hsame, toOffset_clamp] at hlt
  exact hlt (Nat.le_refl _)

/-! ### Units and bytes -/

/-- A position that splits a pair is before the end of its line. -/
theorem lt_of_splitsPair (h : b.SplitsPair p) :
    p.line < b.lineCount ∧ p.column < b.lineUnits p.line := by
  obtain ⟨before, c, after, hline, hwide, hcolumn⟩ := h
  constructor
  · by_contra hmissing
    have hnone : b.lines[p.line]? = none := List.getElem?_eq_none (Nat.le_of_not_lt hmissing)
    rw [line, line?, hnone, Option.getD_none] at hline
    exact List.append_ne_nil_of_right_ne_nil _ (List.cons_ne_nil _ _) hline.symm
  · rw [lineUnits, hline, Text.units_append, Text.units_cons, hwide, hcolumn]
    omega

theorem splitsPair_clamp (b : Buffer) (p : Position) :
    b.SplitsPair (b.clamp p) ↔ b.SplitsPair p := by
  by_cases hp : b.clamp p = p
  · rw [hp]
  · refine iff_of_false (fun hsplit => ?_) (fun hsplit => ?_)
    · -- Outside the document a position means an end of a line.
      have hless := (lt_of_splitsPair hsplit).2
      rw [clamp_eq_self_iff, not_and_or] at hp
      rw [clamp] at hless
      split at hless
      · exact Nat.lt_irrefl _ hless
      · dsimp only at hless
        omega
    · obtain ⟨hline, hcolumn⟩ := lt_of_splitsPair hsplit
      exact hp (clamp_eq_self_iff.mpr ⟨hline, Nat.le_of_lt hcolumn⟩)

/-- The units before a position are those of the text before its bytes, but for half of a pair
that it splits. -/
theorem units_takeBytes_toByte (b : Buffer) (p : Position) :
    (¬ b.SplitsPair p ∧ b.toOffset p = (Text.takeBytes (b.toByte p) b.text).units) ∨
      (b.SplitsPair p ∧ b.toOffset p + 1 = (Text.takeBytes (b.toByte p) b.text).units) := by
  obtain ⟨pre, post, htext, hnames⟩ := b.exists_names p
  have hbefore : Text.takeBytes (b.toByte p) b.text = pre := by
    rw [← toByte_clamp, toByte_of_names htext hnames, htext, Text.takeBytes_bytes_append]
  rw [hbefore, ← splitsPair_clamp, ← toOffset_clamp, splitsPair_iff_of_names htext hnames, not_not]
  cases hnames with
  | behind h =>
      have hsegment : b.text = pre ++ [] ++ post := by rw [List.append_nil, htext]
      have hoffset := toOffset_right hsegment List.not_mem_nil (Nat.zero_le _)
      rw [Position.right_zero] at hoffset
      exact Or.inl ⟨h, by rw [h, hoffset, Nat.add_zero]⟩
  | inside init c hpre hwide h =>
      subst hpre
      have hunits : Text.units [c] = 2 := by rw [Text.units_cons, hwide, Text.units_nil]
      have hone : 1 ≤ Text.units [c] := by omega
      have hoffset := toOffset_right htext (Position.feed_notMem_of_wide hwide) hone
      refine Or.inr ⟨?_, by rw [h, hoffset, Text.units_append, hunits]⟩
      rw [← splitsPair_iff_of_names htext (Names.inside init c rfl hwide h), h]
      exact splitsPair_right htext hwide

/-- **Offsets and positions are inverse**: a position leads back to its place in the document, and
an offset to itself or to the end.  Both conversions keep the order.  The offset of a position is
the number of units in the text before its bytes, less one half of a surrogate pair that it
splits, so it does not matter whether a place of a character is passed on by offset or by byte. -/
theorem offsets_and_positions_inverse (b : Buffer) :
    (∀ p, b.ofOffset (b.toOffset p) = b.clamp p) ∧
      (∀ n, b.toOffset (b.ofOffset n) = min n b.text.units) ∧
      (∀ p q, p ≤ q → b.toOffset p ≤ b.toOffset q) ∧
      (∀ m n, m ≤ n → b.ofOffset m ≤ b.ofOffset n) ∧
      (∀ p, ¬ b.SplitsPair p →
        b.toOffset p = (Text.takeBytes (b.toByte p) b.text).units ∧
          b.ofOffset (b.toOffset p) = b.ofByte (b.toByte p)) ∧
      (∀ p, b.SplitsPair p →
        b.toOffset p + 1 = (Text.takeBytes (b.toByte p) b.text).units) := by
  refine ⟨b.ofOffset_toOffset, b.toOffset_ofOffset, fun _ _ => b.toOffset_mono,
    fun _ _ => b.ofOffset_mono, fun p hsplit => ⟨?_, ?_⟩, fun p hsplit => ?_⟩
  · exact (b.units_takeBytes_toByte p).elim And.right fun h => absurd h.1 hsplit
  · rw [ofOffset_toOffset, ← toByte_clamp,
      ofByte_toByte (b.clamp_clamp p) ((b.splitsPair_clamp p).not.mpr hsplit)]
  · exact (b.units_takeBytes_toByte p).elim (fun h => absurd hsplit h.1) And.right

/-- A pair at the start of the second line, and an offset behind the last line feed. -/
theorem offsets_around_pair :
    let b : Buffer := ⟨"é\n𝔸x\n".toList⟩
    (b.toOffset ⟨0, 9⟩ = 1 ∧ b.toOffset ⟨0, 9⟩ ≤ b.toOffset ⟨1, 1⟩) ∧
      b.ofOffset 5 ≤ b.ofOffset 99 ∧ b.ofOffset 99 = ⟨2, 0⟩ ∧
      (¬ b.SplitsPair ⟨1, 2⟩ ∧ b.toOffset ⟨1, 2⟩ = 4 ∧ b.toByte ⟨1, 2⟩ = 7 ∧
        b.ofOffset 4 = b.ofByte 7) ∧
      b.SplitsPair ⟨1, 1⟩ ∧ b.toOffset ⟨1, 1⟩ + 1 = Text.units (Text.takeBytes 7 b.text) := by
  intro b
  obtain ⟨-, -, hoffset, hposition, hwhole, hhalf⟩ := b.offsets_and_positions_inverse
  have hsplit : b.SplitsPair ⟨1, 1⟩ := ⟨[], '𝔸', ['x'], rfl, rfl, rfl⟩
  have hnot : ¬ b.SplitsPair ⟨1, 2⟩ := by
    rintro ⟨before, c, after, hline, hwide, hcolumn⟩
    rw [show b.line 1 = ['𝔸', 'x'] from rfl] at hline
    rcases before with _ | ⟨first, _ | ⟨second, rest⟩⟩
    · contradiction
    · obtain ⟨rfl, -⟩ := List.cons_eq_cons.mp hline
      exact absurd hcolumn (by decide)
    · simp at hline
  exact ⟨⟨by decide, hoffset ⟨0, 9⟩ ⟨1, 1⟩ (by decide)⟩, hposition 5 99 (by decide), by decide,
    ⟨hnot, by decide, by decide, (hwhole ⟨1, 2⟩ hnot).2⟩, hsplit, hhalf ⟨1, 1⟩ hsplit⟩

end Buffer

end MathTyping
