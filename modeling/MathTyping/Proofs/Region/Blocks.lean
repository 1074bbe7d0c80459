import MathTyping.Proofs.Buffer.Cuts
import MathTyping.Proofs.Region.Gaps

/-!
# Blocks of display math

The display markers of a document pair up in order, and a block is what stands between the two
of a pair.  The markers alone say whether a cursor is in a block: it splits no marker, an odd
number of them is passed, and another one is ahead (`InBlock`).

The display search asks one thing more.  It gives up between any two dollars, to leave out a
cursor inside a marker.  Such a cursor is always between two dollars, but so is one in an empty
block, behind an escaped dollar at the end of a block, and in a double dollar of the content
that is no marker (`display_by_markers_iff`).

Where the display search gives up the inline search is asked, and it knows no markers: inside
a marker it finds the empty text between the two dollars (`inlineAt?_of_split`).
-/

namespace MathTyping

namespace Region

open Position (origin Names)
open Text (Unescaped Bare)

variable {b : Buffer} {cursor : Position} {r : Region} {opening closing m : Nat}

/-! ### In a block -/

/-- The number of display markers that a cursor has passed. -/
def passed (b : Buffer) (cursor : Position) : Nat :=
  b.text.displayMarkers.countP (· + 2 ≤ b.toByte cursor)

/-- By the markers alone, a cursor is in the block between two of them. -/
structure InBlock (b : Buffer) (cursor : Position) (opening closing : Nat) : Prop where
  whole : ∀ m ∈ b.text.displayMarkers, ¬ (m < b.toByte cursor ∧ b.toByte cursor < m + 2)
  odd : passed b cursor % 2 = 1
  opening : b.text.displayMarkers[passed b cursor - 1]? = some opening
  closing : b.text.displayMarkers[passed b cursor]? = some closing

/-- A cursor has a dollar on both sides. -/
def BetweenDollars (b : Buffer) (cursor : Position) : Prop :=
  (Text.takeBytes (b.toByte cursor) b.text).getLast? = some '$' ∧
    (Text.dropBytes (b.toByte cursor) b.text).head? = some '$'

instance (b : Buffer) (cursor : Position) : Decidable (BetweenDollars b cursor) :=
  inferInstanceAs (Decidable (_ ∧ _))

/-- The region between two markers. -/
def blockRegion (b : Buffer) (opening closing : Nat) : Region :=
  let content := b.text.slice (opening + 2) closing
  let start := b.ofByte (opening + 2)
  ⟨.display, content, start, start.advance content⟩

theorem InBlock.unique {opening' closing' : Nat} (h : InBlock b cursor opening closing)
    (h' : InBlock b cursor opening' closing') : opening = opening' ∧ closing = closing' :=
  ⟨Option.some.inj (h.opening.symm.trans h'.opening),
    Option.some.inj (h.closing.symm.trans h'.closing)⟩

theorem pairwise_displayMarkers (t : Text) : t.displayMarkers.Pairwise fun m n => m + 2 ≤ n :=
  Text.pairwise_displayMarkersFrom

/-- The markers are those passed and those ahead, and a cursor in a block is between them. -/
theorem inBlock_iff {before ahead : List Nat} (hmarkers : b.text.displayMarkers = before ++ ahead)
    (hbefore : ∀ m ∈ before, m + 2 ≤ b.toByte cursor)
    (hahead : ∀ m ∈ ahead, b.toByte cursor < m + 2) :
    InBlock b cursor opening closing ↔
      before.length % 2 = 1 ∧ before.getLast? = some opening ∧ ahead.head? = some closing ∧
        b.toByte cursor ≤ closing := by
  have hcount : passed b cursor = before.length := by
    rw [passed, hmarkers, Text.countP_passed hbefore hahead]
  have hclosing : b.text.displayMarkers[passed b cursor]? = ahead.head? := by
    rw [hmarkers, hcount, Text.getElem?_first_ahead]
  have hopening (hodd : before.length % 2 = 1) :
      b.text.displayMarkers[passed b cursor - 1]? = before.getLast? := by
    rw [hmarkers, hcount, Text.getElem?_last_passed (by omega)]
  constructor
  · rintro ⟨hwhole, hodd, hlast, hfirst⟩
    rw [hcount] at hodd
    rw [hopening hodd] at hlast
    rw [hclosing] at hfirst
    refine ⟨hodd, hlast, hfirst, ?_⟩
    have hmem := List.mem_of_head? hfirst
    have hsplit := hwhole closing (hmarkers ▸ List.mem_append_right _ hmem)
    have hbehind := hahead closing hmem
    omega
  · rintro ⟨hodd, hlast, hfirst, hle⟩
    refine ⟨fun m hm => ?_, hcount ▸ hodd, (hopening hodd).trans hlast, hclosing.trans hfirst⟩
    rw [hmarkers] at hm
    rcases List.mem_append.mp hm with hpassed | hnext
    · have := hbefore m hpassed
      omega
    · obtain ⟨rest, rfl⟩ := List.head?_eq_some_iff.mp hfirst
      have hpairwise := (List.pairwise_append.mp (hmarkers ▸ pairwise_displayMarkers b.text)).2.1
      rcases List.mem_cons.mp hnext with rfl | hlater
      · omega
      · have := (List.pairwise_cons.mp hpairwise).1 m hlater
        omega

/-- In a block the display search gives the block, except between two dollars. -/
theorem InBlock.displayAt?_eq (h : InBlock b cursor opening closing) :
    displayAt? b cursor =
      if BetweenDollars b cursor then none else some (blockRegion b opening closing) := by
  obtain ⟨before, ahead, hmarkers, hbefore, hahead⟩ :=
    Text.exists_passed_ahead (pairwise_displayMarkers b.text) (b.toByte cursor)
  obtain ⟨hodd, hopening, hclosing, hle⟩ := (inBlock_iff hmarkers hbefore hahead).mp h
  rw [Region.displayAt?_eq hmarkers hbefore hahead, hopening, hclosing]
  simp only [Option.bind_eq_bind, Option.bind_some, Option.pure_def]
  have heven : ¬ before.length % 2 = 0 := by omega
  exact if_congr (or_iff_left heven) rfl (if_neg (Nat.not_lt.mpr hle))

/-- What the display search finds is a block around the cursor. -/
theorem exists_inBlock (h : displayAt? b cursor = some r) :
    ∃ opening closing, InBlock b cursor opening closing ∧ r = blockRegion b opening closing := by
  obtain ⟨before, ahead, hmarkers, hbefore, hahead⟩ :=
    Text.exists_passed_ahead (pairwise_displayMarkers b.text) (b.toByte cursor)
  rw [Region.displayAt?_eq hmarkers hbefore hahead] at h
  split at h
  · contradiction
  · rename_i hcut
    simp only [Option.bind_eq_bind, Option.bind_eq_some_iff] at h
    obtain ⟨opening, hopening, closing, hclosing, hr⟩ := h
    split at hr
    · contradiction
    · rename_i hinside
      refine ⟨opening, closing, (inBlock_iff hmarkers hbefore hahead).mpr
        ⟨?_, hopening, hclosing, Nat.le_of_not_lt hinside⟩, (Option.some.inj hr).symm⟩
      have heven := (not_or.mp hcut).2
      omega

theorem kind_of_displayAt? (h : displayAt? b cursor = some r) : r.kind = .display := by
  obtain ⟨opening, closing, -, rfl⟩ := exists_inBlock h
  rfl

/-- A block stands in the document between its two markers, and the cursor cuts its content. -/
theorem InBlock.exists_cut (h : InBlock b cursor opening closing) :
    ∃ x y z w : Text, b.text = (x ++ ['$', '$']) ++ (y ++ z) ++ '$' :: '$' :: w ∧
      opening + 2 = (x ++ ['$', '$']).bytes ∧ b.toByte cursor = (x ++ ['$', '$'] ++ y).bytes ∧
      closing = (x ++ ['$', '$'] ++ (y ++ z)).bytes := by
  obtain ⟨before, ahead, hmarkers, hbefore, hahead⟩ :=
    Text.exists_passed_ahead (pairwise_displayMarkers b.text) (b.toByte cursor)
  obtain ⟨-, hopening, hclosing, hle⟩ := (inBlock_iff hmarkers hbefore hahead).mp h
  have hopeningMem := List.mem_of_getLast? hopening
  have hpassed := hbefore opening hopeningMem
  obtain ⟨x, v, hx, hopen⟩ := Text.exists_of_mem_displayMarkers
    (hmarkers ▸ List.mem_append_left _ hopeningMem)
  obtain ⟨u, w, hu, rfl⟩ := Text.exists_of_mem_displayMarkers
    (hmarkers ▸ List.mem_append_right _ (List.mem_of_head? hclosing))
  obtain ⟨pre, post, hpre, hbyte⟩ := b.exists_cut_toByte cursor
  have hstart : opening + 2 = Text.bytes (x ++ ['$', '$']) := by
    rw [hopen, Text.bytes_append]
    rfl
  -- The opening marker ends at or before the cursor, and the closing one starts at or behind it.
  rw [hstart, hbyte] at hpassed
  rw [hbyte] at hle
  have hxs : x ++ ['$', '$'] <+: b.text := ⟨v, by simp [hx]⟩
  obtain ⟨y, rfl⟩ := Text.prefix_of_bytes_le hxs ⟨post, hpre.symm⟩ hpassed
  obtain ⟨z, rfl⟩ := Text.prefix_of_bytes_le ⟨post, hpre.symm⟩ ⟨_, hu.symm⟩ hle
  exact ⟨x, y, z, w, by simpa using hu, hstart, hbyte, by simp⟩

/-! ### What the markers say, and what the search answers -/

/-- The display search answers what the markers say: it finds something exactly in a block, and
then the content of the block. -/
def AnsweredByMarkers (b : Buffer) (cursor : Position) : Prop :=
  ((displayAt? b cursor).isSome ↔ ∃ opening closing, InBlock b cursor opening closing) ∧
    ∀ r opening closing, displayAt? b cursor = some r → InBlock b cursor opening closing →
      r.content = b.text.slice (opening + 2) closing

/-- A cursor in a block looks like one inside a marker: the content before it is empty or ends
with a dollar, and the content behind it is empty or begins with one. -/
def LooksSplit (b : Buffer) (cursor : Position) : Prop :=
  ∃ opening closing, InBlock b cursor opening closing ∧
    (b.text.slice (opening + 2) (b.toByte cursor) = [] ∨
      (b.text.slice (opening + 2) (b.toByte cursor)).getLast? = some '$') ∧
    (b.text.slice (b.toByte cursor) closing = [] ∨
      (b.text.slice (b.toByte cursor) closing).head? = some '$')

theorem InBlock.betweenDollars_iff (h : InBlock b cursor opening closing) :
    BetweenDollars b cursor ↔
      (b.text.slice (opening + 2) (b.toByte cursor) = [] ∨
        (b.text.slice (opening + 2) (b.toByte cursor)).getLast? = some '$') ∧
      (b.text.slice (b.toByte cursor) closing = [] ∨
        (b.text.slice (b.toByte cursor) closing).head? = some '$') := by
  obtain ⟨x, y, z, w, htext, hopening, hcursor, hclosing⟩ := h.exists_cut
  have hbefore : b.text = (x ++ ['$', '$']) ++ y ++ (z ++ '$' :: '$' :: w) := by simp [htext]
  have hbehind : b.text = (x ++ ['$', '$'] ++ y) ++ z ++ '$' :: '$' :: w := by simp [htext]
  have hy : b.text.slice (opening + 2) (b.toByte cursor) = y := by
    rw [hbefore, hopening, hcursor, Text.slice_append]
  have hz : b.text.slice (b.toByte cursor) closing = z := by
    rw [hbehind, hcursor, hclosing, ← List.append_assoc, Text.slice_append]
  have hlast : ((x ++ ['$', '$']) ++ y).getLast? = some '$' ↔ y = [] ∨ y.getLast? = some '$' := by
    rcases List.eq_nil_or_concat y with rfl | ⟨init, c, rfl⟩
    · simp
    · rw [List.concat_eq_append, ← List.append_assoc, List.getLast?_concat, List.getLast?_concat]
      simp
  have hfirst : (z ++ '$' :: '$' :: w).head? = some '$' ↔ z = [] ∨ z.head? = some '$' := by
    cases z <;> simp
  rw [hy, hz, BetweenDollars, hcursor, hbefore, Text.takeBytes_bytes_append,
    Text.dropBytes_bytes_append, hlast, hfirst]

/-- A cursor between two dollars inside a block is missed, and nothing else is. -/
theorem looksSplit_iff :
    LooksSplit b cursor ↔
      (∃ opening closing, InBlock b cursor opening closing) ∧ BetweenDollars b cursor := by
  constructor
  · rintro ⟨opening, closing, hblock, hlooks⟩
    exact ⟨⟨opening, closing, hblock⟩, hblock.betweenDollars_iff.mpr hlooks⟩
  · rintro ⟨⟨opening, closing, hblock⟩, hdollars⟩
    exact ⟨opening, closing, hblock, hblock.betweenDollars_iff.mp hdollars⟩

/-- **The markers alone decide about display math, except between two dollars of a block.**
There nothing is found, although the markers say that the cursor is in the block. -/
theorem display_by_markers_iff (b : Buffer) (cursor : Position) :
    (AnsweredByMarkers b cursor ↔ ¬ LooksSplit b cursor) ∧
      (LooksSplit b cursor → displayAt? b cursor = none) := by
  have hmissed : LooksSplit b cursor → displayAt? b cursor = none := by
    intro hlooks
    obtain ⟨⟨opening, closing, hblock⟩, hdollars⟩ := looksSplit_iff.mp hlooks
    rw [hblock.displayAt?_eq, if_pos hdollars]
  refine ⟨⟨?_, ?_⟩, hmissed⟩
  · rintro ⟨hfound, -⟩ hlooks
    have hsome := hfound.mpr (looksSplit_iff.mp hlooks).1
    rw [hmissed hlooks] at hsome
    contradiction
  · intro hclear
    refine ⟨⟨?_, ?_⟩, ?_⟩
    · intro hsome
      obtain ⟨r, hr⟩ := Option.isSome_iff_exists.mp hsome
      obtain ⟨opening, closing, hblock, -⟩ := exists_inBlock hr
      exact ⟨opening, closing, hblock⟩
    · rintro ⟨opening, closing, hblock⟩
      have hfree : ¬ BetweenDollars b cursor := fun hdollars =>
        hclear (looksSplit_iff.mpr ⟨⟨opening, closing, hblock⟩, hdollars⟩)
      rw [hblock.displayAt?_eq, if_neg hfree]
      rfl
    · intro r opening closing hr hblock
      obtain ⟨opening', closing', hblock', rfl⟩ := exists_inBlock hr
      obtain ⟨rfl, rfl⟩ := hblock.unique hblock'
      rfl

/-- Behind an escaped dollar at the end of a block, and in an empty block, the markers say that
the cursor is in the block, but nothing is found. -/
theorem block_missed_between_dollars :
    let b : Buffer := ⟨"$$a\\$$$\n$$$$".toList⟩
    ¬ AnsweredByMarkers b ⟨0, 5⟩ ∧ ¬ AnsweredByMarkers b ⟨1, 2⟩ := by
  intro b
  have hescaped : InBlock b ⟨0, 5⟩ 0 5 :=
    ⟨by decide +kernel, by decide +kernel, by decide +kernel, by decide +kernel⟩
  have hempty : InBlock b ⟨1, 2⟩ 8 10 :=
    ⟨by decide +kernel, by decide +kernel, by decide +kernel, by decide +kernel⟩
  have hmissed : displayAt? b ⟨0, 5⟩ = none ∧ displayAt? b ⟨1, 2⟩ = none := by decide +kernel
  constructor
  · rintro ⟨hfound, -⟩
    have hsome := hfound.mpr ⟨0, 5, hescaped⟩
    rw [hmissed.1] at hsome
    contradiction
  · rintro ⟨hfound, -⟩
    have hsome := hfound.mpr ⟨8, 10, hempty⟩
    rw [hmissed.2] at hsome
    contradiction

/-! ### In a delimiter -/

/-- A cursor is in the middle of a marker of a whole block: the markers pair up in order. -/
def InDelimiter (b : Buffer) (cursor : Position) : Prop :=
  ∃ j opening closing, b.text.displayMarkers[2 * j]? = some opening ∧
    b.text.displayMarkers[2 * j + 1]? = some closing ∧
    (b.toByte cursor = opening + 1 ∨ b.toByte cursor = closing + 1)

theorem InDelimiter.exists_split (h : InDelimiter b cursor) :
    ∃ m ∈ b.text.displayMarkers, b.toByte cursor = m + 1 := by
  obtain ⟨j, opening, closing, hopening, hclosing, hcursor | hcursor⟩ := h
  · exact ⟨opening, List.mem_of_getElem? hopening, hcursor⟩
  · exact ⟨closing, List.mem_of_getElem? hclosing, hcursor⟩

/-- In the middle of a marker the document falls apart between its two dollars, the first of
which is not escaped. -/
theorem exists_parts_of_split (hm : m ∈ b.text.displayMarkers) (hcursor : b.toByte cursor = m + 1) :
    ∃ x w, b.text = x ++ (['$'] ++ ['$']) ++ w ∧ Unescaped x ∧
      b.toByte cursor = (x ++ ['$']).bytes ∧ Names origin (b.clamp cursor) (x ++ ['$']) := by
  obtain ⟨x, w, htext, hx, hescaped⟩ := Text.exists_of_mem_displayMarkersFrom hm
  have hbytes : b.toByte cursor = Text.bytes (x ++ ['$']) := by
    rw [hcursor, hx, Text.bytes_append, Nat.zero_add]
    rfl
  obtain ⟨pre, post, hpre, hnames⟩ := b.exists_names cursor
  have hprefix : x ++ ['$'] <+: b.text := ⟨'$' :: w, by simp [htext]⟩
  have hbyte := Buffer.toByte_of_names hpre hnames
  rw [Buffer.toByte_clamp, hbytes] at hbyte
  obtain rfl : pre = x ++ ['$'] :=
    Text.eq_of_prefix_of_bytes_eq ⟨post, hpre.symm⟩ hprefix hbyte.symm
  exact ⟨x, w, by simp [htext], Text.unescaped_iff.mpr (by simpa using hescaped), hbytes, hnames⟩

theorem displayAt?_of_split (hm : m ∈ b.text.displayMarkers) (hcursor : b.toByte cursor = m + 1) :
    displayAt? b cursor = none := by
  obtain ⟨x, w, htext, -, hbytes, -⟩ := exists_parts_of_split hm hcursor
  have hcut : b.text = (x ++ ['$']) ++ '$' :: w := by simp [htext]
  rw [displayAt?, if_pos]
  rw [hbytes, hcut, Text.takeBytes_bytes_append, Text.dropBytes_bytes_append]
  simp

/-- In the middle of a marker the two dollars count as an empty expression. -/
theorem inlineAt?_of_split (hm : m ∈ b.text.displayMarkers) (hcursor : b.toByte cursor = m + 1) :
    inlineAt? b cursor = some ⟨.inline, [], b.clamp cursor, b.clamp cursor⟩ := by
  obtain ⟨x, w, htext, hcounts, -, hnames⟩ := exists_parts_of_split hm hcursor
  obtain ⟨rest, hbefore, hbehind, hplace⟩ :=
    Buffer.exists_parts_of_names htext (by decide) hnames
  have hgap : InGap (b.lineBefore cursor) (b.lineBehind cursor) x.lastLine [] [] rest := by
    refine ⟨hbefore, hbehind, (Text.unescaped_lastLine x).mpr hcounts, ?_, Text.bare_nil _⟩
    rw [List.append_nil, hbefore, Text.unescaped_concat]
    simp
  have hstart : (⟨(b.clamp cursor).line, Text.units (x.lastLine ++ ['$'])⟩ : Position) =
      b.clamp cursor := by
    rw [hnames.eq_advance (by decide), Position.advance_append, hplace, Text.units_append]
    rfl
  rw [hgap.inlineAt?_eq, hbefore, hbehind, gapRegion, hstart]
  simp [isPadding]

/-- A whole block has a cursor inside its first marker. -/
theorem exists_inDelimiter (h : 2 ≤ b.text.displayMarkers.length) :
    ∃ cursor, InDelimiter b cursor := by
  have hfirst := List.getElem?_eq_getElem (show 0 < b.text.displayMarkers.length by omega)
  have hsecond := List.getElem?_eq_getElem (show 1 < b.text.displayMarkers.length by omega)
  obtain ⟨x, w, htext, hx⟩ := Text.exists_of_mem_displayMarkers (List.mem_of_getElem? hfirst)
  have hboundary : b.text.IsBoundary (b.text.displayMarkers[0] + 1) :=
    ⟨x ++ ['$'], '$' :: w, by simp [htext], by rw [hx, Text.bytes_append]; rfl⟩
  exact ⟨b.ofByte (b.text.displayMarkers[0] + 1), 0, _, _, hfirst, hsecond,
    Or.inl (Buffer.toByte_ofByte hboundary)⟩

/-- **Inside every delimiter of a block the cursor is in an inline region**, the empty one
between the two dollars of the delimiter.  So the cursors inside delimiters are outside math
only where there is no whole block. -/
theorem delimiter_taken_for_inline (b : Buffer) :
    (∀ cursor, InDelimiter b cursor → displayAt? b cursor = none ∧
      locate? b cursor = some ⟨.inline, [], b.clamp cursor, b.clamp cursor⟩) ∧
    ((∀ cursor, InDelimiter b cursor → locate? b cursor = none) ↔
      b.text.displayMarkers.length < 2) := by
  have hinline : ∀ cursor, InDelimiter b cursor → displayAt? b cursor = none ∧
      locate? b cursor = some ⟨.inline, [], b.clamp cursor, b.clamp cursor⟩ := by
    intro cursor hcursor
    obtain ⟨m, hm, hsplit⟩ := hcursor.exists_split
    have hnone := displayAt?_of_split hm hsplit
    rw [locate?, hnone, Option.none_or]
    exact ⟨rfl, inlineAt?_of_split hm hsplit⟩
  refine ⟨hinline, ?_, ?_⟩
  · intro houtside
    by_contra hblock
    obtain ⟨cursor, hcursor⟩ := exists_inDelimiter (Nat.le_of_not_lt hblock)
    have hfound := (hinline cursor hcursor).2
    rw [houtside cursor hcursor] at hfound
    contradiction
  · rintro hfew cursor ⟨j, opening, closing, -, hclosing, -⟩
    have := (List.getElem?_eq_some_iff.mp hclosing).1
    omega

/-- Before the second dollar of `$$x$$` the cursor is inside the opening delimiter, and not
outside math. -/
theorem delimiter_in_empty_region :
    let b : Buffer := ⟨"$$x$$".toList⟩
    InDelimiter b ⟨0, 1⟩ ∧ locate? b ⟨0, 1⟩ = some ⟨.inline, [], ⟨0, 1⟩, ⟨0, 1⟩⟩ := by
  intro b
  exact ⟨⟨0, 0, 3, by decide +kernel, by decide +kernel, by decide +kernel⟩, by decide +kernel⟩

end Region

end MathTyping
