import MathTyping.Proofs.Region.Extent

/-!
# Where no region is located

At a place that is known by the text before it and the text behind it, both searches can be read
off the two texts.  No region is located there in one of two cases (`locate?_eq_none_iff`): the
place is in no block, and it has no gap around it or is padding; or the place is between two
dollars, where the display search gives up, and no dollar of the line counts before it, where the
inline search gives up too.

Seen from a region that was located, less can go wrong: its opening dollar counts before every
place of a gap (`IsGap.locate?_eq_none_iff`), and every place of a block is in that block
(`InBlock.locate?_eq_none_iff`).
-/

namespace MathTyping

open Position (origin Names)

namespace Text

variable {s s' t : Text} {c : Char}

/-- The text before the first line feed. -/
def firstLine (t : Text) : Text := t.takeWhile (· ≠ '\n')

theorem firstLine_of_lines {m : Text} {rest : List Text} (h : t.lines = m :: rest) :
    t.firstLine = m := by
  induction t generalizing m rest with
  | nil =>
      obtain ⟨rfl, -⟩ := List.cons_eq_cons.mp h
      rfl
  | cons c t ih =>
      by_cases hc : c = '\n'
      · subst hc
        obtain ⟨rfl, -⟩ := List.cons_eq_cons.mp h
        rfl
      · obtain ⟨l, more, hl⟩ := exists_lines_eq_cons t
        rw [lines_cons hc hl] at h
        obtain ⟨rfl, -⟩ := List.cons_eq_cons.mp h
        rw [firstLine, List.takeWhile_cons_of_pos (by simpa using hc)]
        exact congrArg (c :: ·) (ih hl)

theorem firstLine_append (h : '\n' ∉ s) (t : Text) : (s ++ t).firstLine = s ++ t.firstLine := by
  refine List.takeWhile_append_of_pos fun c hc => ?_
  rw [decide_eq_true_eq]
  rintro rfl
  exact h hc

theorem head?_firstLine (hc : c ≠ '\n') : t.firstLine.head? = some c ↔ t.head? = some c := by
  cases t with
  | nil => rfl
  | cons d t =>
      by_cases hd : d = '\n'
      · subst hd
        simp [firstLine, Ne.symm hc]
      · simp [firstLine, List.takeWhile_cons_of_pos, hd]

theorem lastLine_feed (s : Text) : (s ++ ['\n']).lastLine = [] := by
  obtain ⟨init, hs⟩ := lines_eq_concat_lastLine s
  have hfeed : lines ['\n'] = [] :: [[]] := rfl
  have hlines : (s ++ ['\n']).lines = (init ++ [s.lastLine ++ []]) ++ [[]] := by
    rw [lines_append hs hfeed]
    simp
  exact lastLine_of_lines hlines

theorem getLast?_lastLine (hc : c ≠ '\n') :
    t.lastLine.getLast? = some c ↔ t.getLast? = some c := by
  rcases List.eq_nil_or_concat t with rfl | ⟨init, d, rfl⟩
  · rfl
  · rw [List.concat_eq_append, List.getLast?_concat]
    by_cases hd : d = '\n'
    · subst hd
      rw [lastLine_feed]
      simp [Ne.symm hc]
    · have hline : '\n' ∉ [d] := by simpa using Ne.symm hd
      rw [lastLine_append init hline, List.getLast?_concat]

/-- Whether a character is escaped depends on what is before it only by whether that ends
escaping. -/
theorem unescaped_append_congr (h : Unescaped s ↔ Unescaped s') (t : Text) :
    Unescaped (s ++ t) ↔ Unescaped (s' ++ t) := by
  induction t using List.reverseRecOn with
  | nil => simpa using h
  | append_singleton t c ih =>
      rw [← List.append_assoc, ← List.append_assoc, unescaped_concat, unescaped_concat, ih]

/-- Behind a text that escapes nothing, a text ends escaping if it does so by itself. -/
theorem Unescaped.append_iff (h : Unescaped s) (t : Text) : Unescaped (s ++ t) ↔ Unescaped t :=
  unescaped_append_congr (iff_of_true h unescaped_nil) t

/-- Behind a text that escapes nothing, the dollars of a text count as they do by themselves. -/
theorem Unescaped.bare_iff (h : Unescaped s) (t : Text) : Bare s t ↔ Bare [] t :=
  forall_congr' fun x => forall_congr' fun _ => imp_congr_right fun _ => not_congr (h.append_iff x)

/-- Nothing is escaped at the start of a line. -/
theorem unescaped_of_column_zero (h : (origin.advance t).column = 0) : Unescaped t := by
  rw [Position.column_advance] at h
  rw [← unescaped_lastLine]
  cases hline : t.lastLine with
  | nil => exact unescaped_nil
  | cons c rest =>
      have hpos := charUnits_pos c
      rw [hline, units_cons] at h
      omega

end Text

namespace Buffer

variable {b : Buffer} {before behind : Text}

/-- The text before a position. -/
def textBefore (b : Buffer) (p : Position) : Text := Text.takeBytes (b.toByte p) b.text

/-- The text behind a position. -/
def textBehind (b : Buffer) (p : Position) : Text := Text.dropBytes (b.toByte p) b.text

theorem textBefore_advance (htext : b.text = before ++ behind) :
    b.textBefore (origin.advance before) = before := by
  rw [textBefore, toByte_advance htext, htext, Text.takeBytes_bytes_append]

theorem textBehind_advance (htext : b.text = before ++ behind) :
    b.textBehind (origin.advance before) = behind := by
  rw [textBehind, toByte_advance htext, htext, Text.dropBytes_bytes_append]

theorem lineBefore_advance (htext : b.text = before ++ behind) :
    b.lineBefore (origin.advance before) = before.lastLine := by
  rw [lineBefore, clamp_advance htext, before_advance htext]

theorem lineBehind_advance (htext : b.text = before ++ behind) :
    b.lineBehind (origin.advance before) = behind.firstLine := by
  obtain ⟨init, l, hbefore⟩ := Text.exists_lines_eq_concat before
  obtain ⟨m, rest, hbehind⟩ := Text.exists_lines_eq_cons behind
  have hlines : b.lines = init ++ (l ++ m) :: rest := by
    rw [lines, htext]
    exact Text.lines_append hbefore hbehind
  rw [lineBehind, clamp_advance htext, Position.origin_advance hbefore, line_of_lines hlines,
    Text.firstLine_of_lines hbehind]
  have hcolumn := Text.columnToByte_append_units l m 0
  rw [Nat.add_zero, Text.columnToByte_zero, Nat.add_zero] at hcolumn
  rw [hcolumn, Text.dropBytes_bytes_append]

end Buffer

namespace Region

open Text (Unescaped Bare)

variable {b : Buffer} {r : Region} {cursor p : Position} {opening closing : Nat}
  {before behind pre post u v : Text}

/-- A dollar and a space meet at a place. -/
def MeetsPadding (before behind : Text) : Prop :=
  before.getLast? = some '$' ∧ behind.head? = some ' ' ∨
    before.getLast? = some ' ' ∧ behind.head? = some '$'

instance (before behind : Text) : Decidable (MeetsPadding before behind) :=
  inferInstanceAs (Decidable (_ ∨ _))

theorem betweenDollars_advance_iff (htext : b.text = before ++ behind) :
    BetweenDollars b (origin.advance before) ↔
      before.getLast? = some '$' ∧ behind.head? = some '$' := by
  rw [BetweenDollars, Buffer.toByte_advance htext, htext, Text.takeBytes_bytes_append,
    Text.dropBytes_bytes_append]

theorem isPadding_advance_iff (htext : b.text = before ++ behind) :
    isPadding (b.lineBefore (origin.advance before)).getLast?
        (b.lineBehind (origin.advance before)).head? = true ↔ MeetsPadding before behind := by
  rw [isPadding_iff, Buffer.lineBefore_advance htext, Buffer.lineBehind_advance htext]
  simp only [Text.getLast?_lastLine (by decide : '$' ≠ '\n'),
    Text.getLast?_lastLine (by decide : ' ' ≠ '\n'), Text.head?_firstLine (by decide : '$' ≠ '\n'),
    Text.head?_firstLine (by decide : ' ' ≠ '\n'), MeetsPadding]

theorem displayAt?_eq_none_iff :
    displayAt? b cursor = none ↔
      (¬ ∃ opening closing, InBlock b cursor opening closing) ∨ BetweenDollars b cursor := by
  by_cases hblock : ∃ opening closing, InBlock b cursor opening closing
  · obtain ⟨opening, closing, h⟩ := hblock
    rw [h.displayAt?_eq, or_iff_right (not_not_intro ⟨opening, closing, h⟩)]
    simp
  · refine iff_of_true (Option.eq_none_iff_forall_ne_some.mpr fun r hr => hblock ?_) (.inl hblock)
    obtain ⟨opening, closing, h, -⟩ := exists_inBlock hr
    exact ⟨opening, closing, h⟩

/-- A dollar behind a dollar counts, if it is on the line. -/
theorem not_bare_of_dollars (hbefore : before.getLast? = some '$')
    (hbehind : behind.head? = some '$') : ¬ Bare before.lastLine behind.firstLine := by
  obtain ⟨init, rfl⟩ := List.getLast?_eq_some_iff.mp hbefore
  obtain ⟨rest, rfl⟩ := List.head?_eq_some_iff.mp hbehind
  have hcounts : Unescaped (Text.lastLine (init ++ ['$'])) := by
    rw [Text.unescaped_lastLine, Text.unescaped_concat]
    simp
  intro hbare
  refine hbare [] (Text.firstLine rest) ?_ (by simpa using hcounts)
  exact Text.firstLine_append (by decide : '\n' ∉ ['$']) rest

/-- **Where no region is located**: outside all blocks where there is no gap of the line or
padding, and between two dollars if no dollar of the line before them counts. -/
theorem locate?_eq_none_iff (htext : b.text = before ++ behind) :
    locate? b (origin.advance before) = none ↔
      (¬ ∃ opening closing, InBlock b (origin.advance before) opening closing) ∧
          (MeetsPadding before behind ∨ Bare [] before.lastLine ∨
            Bare before.lastLine behind.firstLine) ∨
        (before.getLast? = some '$' ∧ behind.head? = some '$') ∧ Bare [] before.lastLine := by
  rw [locate?, Option.or_eq_none_iff, displayAt?_eq_none_iff, inlineAt?_eq_none_iff,
    isPadding_advance_iff htext, betweenDollars_advance_iff htext, Buffer.lineBefore_advance htext,
    Buffer.lineBehind_advance htext]
  have hdollars : before.getLast? = some '$' ∧ behind.head? = some '$' →
      ¬ MeetsPadding before behind ∧ ¬ Bare before.lastLine behind.firstLine := by
    rintro ⟨hbefore, hbehind⟩
    refine ⟨?_, not_bare_of_dollars hbefore hbehind⟩
    rw [MeetsPadding, hbefore, hbehind]
    simp
  by_cases hbetween : before.getLast? = some '$' ∧ behind.head? = some '$'
  · obtain ⟨hpadding, hbehind⟩ := hdollars hbetween
    simp only [hbetween, hpadding, hbehind]
    tauto
  · rw [or_iff_left hbetween]
    exact (or_iff_left fun h => hbetween h.1).symm

/-! ### What stands around a region -/

/-- A content of one line is between two dollars that count. -/
structure IsGap (pre content post : Text) : Prop where
  opening : ∃ x, pre = x ++ ['$'] ∧ Unescaped x
  closing : ∃ w, post = '$' :: w
  closes : Unescaped (pre ++ content)
  line : '\n' ∉ content

theorem isGap_of_inlineAt? (h : inlineAt? b cursor = some r) (hstands : r.Stands b pre post) :
    IsGap pre r.content post := by
  obtain ⟨x, y, z, w, ⟨hbefore, hbehind, hopens, hcloses, -⟩, rfl⟩ := exists_inGap h
  obtain ⟨head, tail, htext, hline, hhead, -⟩ := b.exists_cursor_line cursor
  rw [hbefore, hbehind] at htext hline
  have hx : '\n' ∉ x ++ ['$'] := by
    simp at hline ⊢
    exact hline.1
  have hstart : (gapRegion (b.clamp cursor).line x (y ++ z)).start =
      origin.advance (head ++ (x ++ ['$'])) := by
    show (⟨(b.clamp cursor).line, Text.units (x ++ ['$'])⟩ : Position) = _
    rw [Position.advance_append, hhead, Position.advance_of_notMem _ hx, Position.right,
      Nat.zero_add]
  have hsplit : b.text = (head ++ (x ++ ['$'])) ++ ((y ++ z) ++ '$' :: (w ++ tail)) := by
    simp [htext]
  obtain rfl : pre = head ++ (x ++ ['$']) := by
    refine Text.eq_of_prefix_of_bytes_eq ⟨_, hstands.text_eq.symm⟩ ⟨_, hsplit.symm⟩ ?_
    rw [← hstands.toByte_start, hstart, Buffer.toByte_advance hsplit]
  have hpost : post = '$' :: (w ++ tail) := by
    have heq := hstands.text_eq.symm.trans hsplit
    exact List.append_cancel_left (List.append_cancel_left heq)
  have hfree : Unescaped head := Text.unescaped_of_column_zero (by rw [hhead])
  refine ⟨⟨head ++ x, by simp, ?_⟩, ⟨w ++ tail, hpost⟩, ?_, ?_⟩
  · exact (hfree.append_iff x).mpr hopens
  · rw [hbefore] at hcloses
    have hclosesText := (hfree.append_iff _).mpr hcloses
    simpa [gapRegion] using hclosesText
  · simp [gapRegion] at hline ⊢
    tauto

namespace IsGap

variable {content : Text}

/-- The opening dollar counts before every place of the line. -/
theorem not_bare_before (h : IsGap pre content post) (hu : '\n' ∉ u) :
    ¬ Bare [] (pre ++ u).lastLine := by
  obtain ⟨x, rfl, hopens⟩ := h.opening
  have hline : '\n' ∉ '$' :: u := by simpa using hu
  rw [List.append_assoc, List.singleton_append, Text.lastLine_append x hline]
  exact fun hbare => hbare _ _ rfl ((Text.unescaped_lastLine x).mpr hopens)

/-- The closing dollar counts behind a place, unless it is escaped there. -/
theorem not_bare_behind (h : IsGap pre content post) (hv : '\n' ∉ v)
    (hcloses : Unescaped (pre ++ u ++ v)) :
    ¬ Bare (pre ++ u).lastLine (v ++ post).firstLine := by
  obtain ⟨w, rfl⟩ := h.closing
  have hdollar : '\n' ∉ ['$'] := by decide
  have hfirst : Text.firstLine (v ++ '$' :: w) = v ++ '$' :: Text.firstLine w := by
    rw [Text.firstLine_append hv]
    exact congrArg (v ++ ·) (Text.firstLine_append hdollar w)
  rw [hfirst]
  intro hbare
  refine hbare v _ rfl ?_
  exact (Text.unescaped_append_congr (Text.unescaped_lastLine (pre ++ u)) v).mpr hcloses

/-- At a place behind the opening dollar of a gap, the inline search fails only at padding and where
no dollar counts behind the place. -/
theorem locate?_eq_none_iff (h : IsGap pre content post) (hu : '\n' ∉ u)
    (htext : b.text = (pre ++ u) ++ (v ++ post)) :
    locate? b (origin.advance (pre ++ u)) = none ↔
      (¬ ∃ opening closing, InBlock b (origin.advance (pre ++ u)) opening closing) ∧
        (MeetsPadding (pre ++ u) (v ++ post) ∨
          Bare (pre ++ u).lastLine (v ++ post).firstLine) := by
  have hbefore := h.not_bare_before hu
  rw [Region.locate?_eq_none_iff htext]
  tauto

end IsGap

/-- A block is between two markers that follow each other, an even number of markers before
them. -/
theorem inBlock_iff_between : InBlock b p opening closing ↔
    ∃ init later, b.text.displayMarkers = init ++ opening :: closing :: later ∧
      init.length % 2 = 0 ∧ opening + 2 ≤ b.toByte p ∧ b.toByte p ≤ closing := by
  constructor
  · intro h
    obtain ⟨before, ahead, hmarkers, hbefore, hahead⟩ :=
      Text.exists_passed_ahead (pairwise_displayMarkers b.text) (b.toByte p)
    obtain ⟨hodd, hopening, hclosing, hle⟩ := (inBlock_iff hmarkers hbefore hahead).mp h
    obtain ⟨init, rfl⟩ := List.getLast?_eq_some_iff.mp hopening
    obtain ⟨later, rfl⟩ := List.head?_eq_some_iff.mp hclosing
    rw [List.length_append, List.length_singleton] at hodd
    exact ⟨init, later, by rw [hmarkers, List.append_assoc]; rfl, by omega,
      hbefore opening (by simp), hle⟩
  · rintro ⟨init, later, hmarkers, heven, hopening, hclosing⟩
    rw [List.append_cons] at hmarkers
    have hpairwise := pairwise_displayMarkers b.text
    rw [hmarkers] at hpairwise
    obtain ⟨hfront, hbehind, -⟩ := List.pairwise_append.mp hpairwise
    refine (inBlock_iff hmarkers ?_ ?_).mpr ⟨?_, by simp, rfl, hclosing⟩
    · intro m hm
      rcases List.mem_append.mp hm with hinit | hlast
      · have := (List.pairwise_append.mp hfront).2.2 m hinit opening (by simp)
        omega
      · rw [List.mem_singleton.mp hlast]
        exact hopening
    · intro m hm
      rcases List.mem_cons.mp hm with rfl | hlater
      · omega
      · have := (List.pairwise_cons.mp hbehind).1 m hlater
        omega
    · rw [List.length_append, List.length_singleton]
      omega

/-- A block is located from every place in it. -/
theorem InBlock.moved (h : InBlock b cursor opening closing) (hle : opening + 2 ≤ b.toByte p)
    (hle' : b.toByte p ≤ closing) : InBlock b p opening closing := by
  obtain ⟨init, later, hmarkers, heven, -⟩ := inBlock_iff_between.mp h
  exact inBlock_iff_between.mpr ⟨init, later, hmarkers, heven, hle, hle'⟩

/-- In a block a region is located, except between two dollars that are not of the line. -/
theorem InBlock.locate?_eq_none_iff (h : InBlock b (origin.advance before) opening closing)
    (htext : b.text = before ++ behind) :
    locate? b (origin.advance before) = none ↔
      (before.getLast? = some '$' ∧ behind.head? = some '$') ∧ Bare [] before.lastLine := by
  rw [Region.locate?_eq_none_iff htext, or_iff_right fun hnone => hnone.1 ⟨opening, closing, h⟩]

/-- The second dollar of an opening marker counts on its line. -/
theorem not_bare_behind_marker (x : Text) : ¬ Bare [] (x ++ ['$', '$']).lastLine := by
  have hline : '\n' ∉ ['$', '$'] := by decide
  rw [Text.lastLine_append x hline]
  intro hbare
  refine hbare (x.lastLine ++ ['$']) [] (by simp) ?_
  rw [List.nil_append, Text.unescaped_concat]
  simp

theorem exists_block_of_displayAt? (h : displayAt? b cursor = some r)
    (hstands : r.Stands b pre post) :
    ∃ x w : Text, pre = x ++ ['$', '$'] ∧ post = '$' :: '$' :: w ∧
      InBlock b cursor x.bytes (pre ++ r.content).bytes := by
  obtain ⟨opening, closing, hblock, rfl⟩ := exists_inBlock h
  obtain ⟨x, y, z, w, htext, hopening, -, hclosing⟩ := hblock.exists_cut
  have hcontent : (blockRegion b opening closing).content = y ++ z := by
    rw [blockRegion, htext, hopening, hclosing, Text.slice_append]
  have hsplit : b.text = (x ++ ['$', '$']) ++ ((y ++ z) ++ '$' :: '$' :: w) := by simp [htext]
  obtain rfl : pre = x ++ ['$', '$'] := by
    refine Text.eq_of_prefix_of_bytes_eq ⟨_, hstands.text_eq.symm⟩ ⟨_, hsplit.symm⟩ ?_
    rw [← hstands.toByte_start]
    show b.toByte (b.ofByte (opening + 2)) = _
    rw [hopening, Buffer.toByte_ofByte ⟨_, _, hsplit, rfl⟩]
  refine ⟨x, w, rfl, ?_, ?_⟩
  · have heq := hstands.text_eq.symm.trans hsplit
    rw [hcontent] at heq
    exact List.append_cancel_left (List.append_cancel_left heq)
  · have hx : opening = x.bytes := by
      simp only [Text.bytes_append] at hopening
      exact Nat.add_right_cancel hopening
    rw [hcontent, ← hclosing, ← hx]
    exact hblock

end Region

end MathTyping
