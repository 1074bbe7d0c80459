import MathTyping.Proofs.Buffer.CursorLine
import MathTyping.Region.Locate

/-!
# Where the delimiters of math stand

The two searches for a region list byte offsets: the unescaped dollars of a line, and the
display markers of a document.  Here is where these stand in the text.  A dollar is a dollar of
the text, a marker two of them, and no two markers overlap.

Both searches then look at the cursor once, at which the list falls apart into the delimiters
passed and those ahead.  `inlineAt?_eq` and `displayAt?_eq` are the searches written on the two
parts.
-/

namespace MathTyping

namespace Text

variable {seen t : Text} {offset lone m : Nat}

theorem escapedAfter_of_notMem (h : '\\' ∉ seen) : escapedAfter seen = false := by
  cases seen with
  | nil => rfl
  | cons c seen => exact escapedAfter_of_ne c seen (List.ne_of_not_mem_cons h).symm

/-! ### Dollars -/

theorem dollarsFrom_append (seen : Text) (offset : Nat) (s t : Text) :
    dollarsFrom seen offset (s ++ t) =
      dollarsFrom seen offset s ++ dollarsFrom (s.reverse ++ seen) (offset + s.bytes) t := by
  induction s generalizing seen offset with
  | nil => simp [dollarsFrom]
  | cons c s ih =>
      by_cases hdollar : c = '$' ∧ escapedAfter seen = false
      · simp [dollarsFrom, hdollar, ih, Nat.add_assoc]
      · simp [dollarsFrom, hdollar, ih, Nat.add_assoc]

/-- The dollars that count are those of the text that no backslash escapes. -/
theorem mem_dollarsFrom_iff :
    m ∈ dollarsFrom seen offset t ↔
      ∃ before after, t = before ++ '$' :: after ∧ m = offset + before.bytes ∧
        escapedAfter (before.reverse ++ seen) = false := by
  constructor
  · intro h
    induction t generalizing seen offset with
    | nil => contradiction
    | cons c t ih =>
        have hlater (hmem : m ∈ dollarsFrom (c :: seen) (offset + c.utf8Size) t) :
            ∃ (before after : Text), c :: t = before ++ '$' :: after ∧
              m = offset + before.bytes ∧ escapedAfter (before.reverse ++ seen) = false := by
          obtain ⟨before, after, rfl, rfl, hescaped⟩ := ih hmem
          exact ⟨c :: before, after, rfl, Nat.add_assoc _ _ _, by simpa using hescaped⟩
        by_cases hdollar : c = '$' ∧ escapedAfter seen = false
        · rw [dollarsFrom, if_pos hdollar] at h
          rcases List.mem_cons.mp h with rfl | hmem
          · exact ⟨[], t, by rw [hdollar.1]; rfl, rfl, hdollar.2⟩
          · exact hlater hmem
        · rw [dollarsFrom, if_neg hdollar] at h
          exact hlater h
  · rintro ⟨before, after, rfl, rfl, hescaped⟩
    rw [dollarsFrom_append, dollarsFrom, if_pos ⟨rfl, hescaped⟩]
    exact List.mem_append_right _ List.mem_cons_self

/-- The dollars of a line before a cut are those of the text before it. -/
theorem filter_dollars (before after : Text) :
    (dollars (before ++ after)).filter (· < before.bytes) = dollars before := by
  have hbefore : (dollars before).filter (· < before.bytes) = dollars before := by
    rw [List.filter_eq_self]
    intro m hm
    obtain ⟨s, u, rfl, rfl, -⟩ := mem_dollarsFrom_iff.mp hm
    have := '$'.utf8Size_pos
    simp
    omega
  have hafter : (dollarsFrom before.reverse before.bytes after).filter (· < before.bytes) = [] := by
    rw [List.filter_eq_nil_iff]
    intro m hm
    obtain ⟨s, u, -, rfl, -⟩ := mem_dollarsFrom_iff.mp hm
    simp
  rw [dollars, dollarsFrom_append, List.append_nil, Nat.zero_add, List.filter_append, hafter,
    List.append_nil, ← dollars, hbefore]

/-- The first dollar of a line behind a cut is the first of the text behind it. -/
theorem find?_dollars (before after : Text) :
    (dollars (before ++ after)).find? (before.bytes ≤ ·) =
      (dollarsFrom before.reverse before.bytes after).head? := by
  have hbefore : (dollars before).find? (before.bytes ≤ ·) = none := by
    rw [List.find?_eq_none]
    intro m hm
    obtain ⟨s, u, rfl, rfl, -⟩ := mem_dollarsFrom_iff.mp hm
    have := '$'.utf8Size_pos
    simp
    omega
  rw [dollars, dollarsFrom_append, List.append_nil, Nat.zero_add, List.find?_append, ← dollars,
    hbefore, Option.none_or]
  cases hafter : dollarsFrom before.reverse before.bytes after with
  | nil => rfl
  | cons m ms =>
      have hm : m ∈ dollarsFrom before.reverse before.bytes after := by simp [hafter]
      obtain ⟨s, u, -, rfl, -⟩ := mem_dollarsFrom_iff.mp hm
      simp

/-! ### Display markers -/

/-- A display marker is a double dollar of the text that no backslash escapes. -/
theorem exists_of_mem_displayMarkersFrom (h : m ∈ displayMarkersFrom seen offset lone t) :
    ∃ before after, t = before ++ '$' :: '$' :: after ∧ m = offset + before.bytes ∧
      escapedAfter (before.reverse ++ seen) = false := by
  have hlater {c : Char} {s seen : Text} {n k : Nat} (hk : k = n + c.utf8Size)
      (h : ∃ before after, s = before ++ '$' :: '$' :: after ∧ m = k + bytes before ∧
        escapedAfter (before.reverse ++ (c :: seen)) = false) :
      ∃ before after, c :: s = before ++ '$' :: '$' :: after ∧ m = n + bytes before ∧
        escapedAfter (before.reverse ++ seen) = false := by
    obtain ⟨before, after, rfl, rfl, hescaped⟩ := h
    exact ⟨c :: before, after, rfl, by rw [hk, bytes_cons, Nat.add_assoc], by simpa using hescaped⟩
  fun_induction displayMarkersFrom seen offset lone t with
  | case1 => contradiction
  | case2 seen offset lone t ih => exact hlater rfl (ih h)
  | case3 => contradiction
  | case4 seen offset lone c _ hc u later _ ih =>
      obtain ⟨rfl, -⟩ := hc
      exact hlater rfl (hlater rfl (ih h))
  | case5 seen offset lone c _ hc u later _ ih =>
      obtain ⟨rfl, hescaped⟩ := hc
      rcases List.mem_cons.mp h with rfl | hmem
      · exact ⟨[], u, rfl, rfl, hescaped⟩
      · exact hlater rfl (hlater rfl (ih hmem))
  | case6 seen offset lone c _ hc d u hd ih =>
      obtain ⟨rfl, -⟩ := hc
      exact hlater rfl (ih h)
  | case7 seen offset lone c t _ _ ih => exact hlater rfl (ih h)

theorem exists_of_mem_displayMarkers (h : m ∈ displayMarkers t) :
    ∃ (before : Text) (after : Text), t = before ++ '$' :: '$' :: after ∧ m = before.bytes := by
  obtain ⟨before, after, rfl, rfl, -⟩ := exists_of_mem_displayMarkersFrom h
  exact ⟨before, after, rfl, Nat.zero_add _⟩

theorem le_of_mem_displayMarkersFrom (h : m ∈ displayMarkersFrom seen offset lone t) :
    offset ≤ m := by
  obtain ⟨before, after, -, rfl, -⟩ := exists_of_mem_displayMarkersFrom h
  exact Nat.le_add_right _ _

/-- Display markers come in order and do not overlap. -/
theorem pairwise_displayMarkersFrom :
    (displayMarkersFrom seen offset lone t).Pairwise fun m n => m + 2 ≤ n := by
  fun_induction displayMarkersFrom seen offset lone t with
  | case1 => exact List.Pairwise.nil
  | case2 seen offset lone t ih => exact ih
  | case3 => exact List.Pairwise.nil
  | case4 seen offset lone c _ hc u later _ ih => exact ih
  | case5 seen offset lone c _ hc u later _ ih =>
      exact List.pairwise_cons.mpr ⟨fun n hn => le_of_mem_displayMarkersFrom hn, ih⟩
  | case6 seen offset lone c _ hc d u hd ih => exact ih
  | case7 seen offset lone c t _ _ ih => exact ih

/-- Numbers in order fall apart into those up to a limit and those above it. -/
theorem exists_passed_ahead {ms : List Nat} (h : ms.Pairwise fun m n => m + 2 ≤ n) (limit : Nat) :
    ∃ passed ahead, ms = passed ++ ahead ∧ (∀ m ∈ passed, m + 2 ≤ limit) ∧
      ∀ m ∈ ahead, limit < m + 2 := by
  induction ms with
  | nil => exact ⟨[], [], rfl, by simp, by simp⟩
  | cons m ms ih =>
      obtain ⟨hfirst, hrest⟩ := List.pairwise_cons.mp h
      by_cases hm : m + 2 ≤ limit
      · obtain ⟨passed, ahead, rfl, hpassed, hahead⟩ := ih hrest
        refine ⟨m :: passed, ahead, rfl, ?_, hahead⟩
        simpa [hm] using hpassed
      · refine ⟨[], m :: ms, rfl, by simp, ?_⟩
        intro n hn
        rcases List.mem_cons.mp hn with rfl | hmem
        · omega
        · have := hfirst n hmem
          omega

section PassedAhead

variable {passed ahead : List Nat} {limit : Nat}

theorem countP_passed (hpassed : ∀ m ∈ passed, m + 2 ≤ limit) (hahead : ∀ m ∈ ahead, limit < m + 2) :
    (passed ++ ahead).countP (· + 2 ≤ limit) = passed.length := by
  have hall : passed.countP (· + 2 ≤ limit) = passed.length := by
    rw [List.countP_eq_length]
    simpa using hpassed
  have hnone : ahead.countP (· + 2 ≤ limit) = 0 := by
    rw [List.countP_eq_zero]
    simpa using hahead
  rw [List.countP_append, hall, hnone, Nat.add_zero]

/-- The entry before the number of those passed is the last one passed. -/
theorem getElem?_last_passed (hpassed : 0 < passed.length) :
    (passed ++ ahead)[passed.length - 1]? = passed.getLast? := by
  rw [List.getElem?_append_left (Nat.sub_lt hpassed Nat.one_pos), List.getLast?_eq_getElem?]

/-- The entry at the number of those passed is the first one ahead. -/
theorem getElem?_first_ahead : (passed ++ ahead)[passed.length]? = ahead.head? := by
  rw [List.getElem?_append_right (Nat.le_refl _), Nat.sub_self, List.head?_eq_getElem?]

end PassedAhead

end Text

namespace Region

variable {b : Buffer} {cursor : Position}

/-- The padding of the search is a dollar and a space beside the cursor. -/
theorem isPadding_iff {before behind : Option Char} :
    isPadding before behind = true ↔
      before = some '$' ∧ behind = some ' ' ∨ before = some ' ' ∧ behind = some '$' := by
  simp [isPadding]

/-- The inline search at a cursor, on the two parts of the line that meet there. -/
theorem inlineAt?_eq (b : Buffer) (cursor : Position) :
    inlineAt? b cursor =
      if isPadding (b.lineBefore cursor).getLast? (b.lineBehind cursor).head? then none
      else (do
        let opening ← (b.lineBefore cursor).dollars.getLast?
        let closing ← (Text.dollarsFrom (b.lineBefore cursor).reverse (b.lineBefore cursor).bytes
          (b.lineBehind cursor)).head?
        let line := b.lineBefore cursor ++ b.lineBehind cursor
        let content := line.slice (opening + 1) closing
        let start : Position := ⟨(b.clamp cursor).line, line.byteToColumn (opening + 1)⟩
        pure ⟨.inline, content, start, start.advance content⟩) := by
  rw [inlineAt?]
  dsimp only
  rw [b.line_eq_parts cursor, b.columnToByte_parts cursor, Text.takeBytes_bytes_append,
    Text.dropBytes_bytes_append, Text.filter_dollars, Text.find?_dollars]

/-- Between two dollars of a line the inline search gives the gap. -/
theorem inlineAt?_eq_gap {x y z w : Text} (hbefore : b.lineBefore cursor = x ++ '$' :: y)
    (hbehind : b.lineBehind cursor = z ++ '$' :: w)
    (hopening : (Text.dollars (x ++ '$' :: y)).getLast? = some x.bytes)
    (hclosing : (Text.dollarsFrom (x ++ '$' :: y).reverse (Text.bytes (x ++ '$' :: y))
      (z ++ '$' :: w)).head? = some (Text.bytes (x ++ '$' :: y) + z.bytes)) :
    inlineAt? b cursor =
      if isPadding (b.lineBefore cursor).getLast? (b.lineBehind cursor).head? then none
      else
        let start : Position := ⟨(b.clamp cursor).line, Text.units (x ++ ['$'])⟩
        some ⟨.inline, y ++ z, start, start.advance (y ++ z)⟩ := by
  have hcut : (x ++ '$' :: y) ++ (z ++ '$' :: w) = (x ++ ['$']) ++ (y ++ z) ++ '$' :: w := by simp
  have hstart : x.bytes + 1 = Text.bytes (x ++ ['$']) := by
    rw [Text.bytes_append]
    rfl
  have hstop : Text.bytes (x ++ '$' :: y) + z.bytes = Text.bytes ((x ++ ['$']) ++ (y ++ z)) := by
    simp [Nat.add_assoc]
  have hcolumn : Text.byteToColumn ((x ++ ['$']) ++ (y ++ z) ++ '$' :: w)
      (Text.bytes (x ++ ['$'])) = Text.units (x ++ ['$']) := by
    rw [Text.byteToColumn, List.append_assoc, Text.takeBytes_bytes_append]
  rw [inlineAt?_eq, hbefore, hbehind, hopening, hclosing]
  simp only [Option.bind_eq_bind, Option.bind_some, Option.pure_def]
  rw [hstart, hstop, hcut, Text.slice_append, hcolumn]

/-- The display search at a cursor, on the markers passed and the markers ahead. -/
theorem displayAt?_eq {passed ahead : List Nat} (hmarkers : b.text.displayMarkers = passed ++ ahead)
    (hpassed : ∀ m ∈ passed, m + 2 ≤ b.toByte cursor)
    (hahead : ∀ m ∈ ahead, b.toByte cursor < m + 2) :
    displayAt? b cursor =
      if (Text.takeBytes (b.toByte cursor) b.text).getLast? = some '$' ∧
          (Text.dropBytes (b.toByte cursor) b.text).head? = some '$' ∨ passed.length % 2 = 0 then
        none
      else (do
        let opening ← passed.getLast?
        let closing ← ahead.head?
        if closing < b.toByte cursor then none
        else
          let content := b.text.slice (opening + 2) closing
          let start := b.ofByte (opening + 2)
          pure ⟨.display, content, start, start.advance content⟩) := by
  rw [displayAt?]
  dsimp only
  rw [hmarkers, Text.countP_passed hpassed hahead, Text.getElem?_first_ahead]
  by_cases hsplit : (Text.takeBytes (b.toByte cursor) b.text).getLast? = some '$' ∧
      (Text.dropBytes (b.toByte cursor) b.text).head? = some '$'
  · rw [if_pos hsplit, if_pos (Or.inl hsplit)]
  · by_cases heven : passed.length % 2 = 0
    · rw [if_neg hsplit, if_pos heven, if_pos (Or.inr heven)]
    · rw [if_neg hsplit, if_neg heven, if_neg (not_or.mpr ⟨hsplit, heven⟩),
        Text.getElem?_last_passed (by omega)]

end Region

end MathTyping
