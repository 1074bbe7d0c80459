import MathTyping.Proofs.Region.Blocks

/-!
# Where a region stands

A located region keeps its kind, its content and two positions.  `Region.Stands` says what these
mean: the content is a part of the document, the delimiter of the kind stands right before it
and right behind it, and the positions are those of its ends.

Both searches only find regions that stand in the document, around the cursor
(`stands_of_inlineAt?`, `stands_of_displayAt?`).  All that is read off a region, its bytes and
whether it contains a position, then follows from where it stands.
-/

namespace MathTyping

namespace Region

open Position (origin Names)

variable {r : Region} {b : Buffer} {cursor : Position} {pre post : Text}

theorem contains_iff {p : Position} : r.contains p = true ↔ r.start ≤ p ∧ p ≤ r.stop := by
  rw [contains, Bool.and_eq_true, decide_eq_true_eq, decide_eq_true_eq]

/-- A region stands in a document between two parts of the text, which meet it with its
delimiters. -/
structure Stands (r : Region) (b : Buffer) (pre post : Text) : Prop where
  text : b.text = pre ++ r.content ++ post
  opening : r.kind.delimiter <:+ pre
  closing : r.kind.delimiter <+: post
  start : r.start = origin.advance pre
  stop : r.stop = r.start.advance r.content

namespace Stands

theorem text_eq (h : r.Stands b pre post) : b.text = pre ++ (r.content ++ post) := by
  rw [h.text, List.append_assoc]

theorem stop_eq (h : r.Stands b pre post) : r.stop = origin.advance (pre ++ r.content) := by
  rw [h.stop, h.start, Position.advance_append]

theorem toByte_start (h : r.Stands b pre post) : b.toByte r.start = pre.bytes := by
  rw [h.start, Buffer.toByte_advance h.text_eq]

theorem toByte_stop (h : r.Stands b pre post) : b.toByte r.stop = (pre ++ r.content).bytes := by
  rw [h.stop_eq, Buffer.toByte_advance h.text]

/-- No pair is split where a region starts: a dollar stands before it. -/
theorem getLast?_pre (h : r.Stands b pre post) : pre.getLast? = some '$' := by
  obtain ⟨before, rfl⟩ := h.opening
  cases r.kind <;> simp [MathKind.delimiter]

/-- A position is between the delimiters exactly if its bytes are. -/
theorem contains_clamp_iff (h : r.Stands b pre post) (p : Position) :
    r.contains (b.clamp p) = true ↔
      pre.bytes ≤ b.toByte p ∧ b.toByte p ≤ (pre ++ r.content).bytes := by
  obtain ⟨named, rest, hnamed, hnames⟩ := b.exists_names p
  have hnarrow : ∀ c, pre.getLast? = some c → charUnits c = 1 := by
    intro c hc
    rw [h.getLast?_pre] at hc
    obtain rfl := Option.some.inj hc
    rfl
  have hstart : r.start ≤ b.clamp p ↔ pre.bytes ≤ b.toByte p := by
    rw [h.start, ← Buffer.toByte_clamp, Buffer.toByte_of_names hnamed hnames]
    exact hnames.advance_le_iff ⟨rest, hnamed.symm⟩ ⟨_, h.text_eq.symm⟩ hnarrow
  have hstop : b.clamp p ≤ r.stop ↔ b.toByte p ≤ (pre ++ r.content).bytes := by
    rw [h.stop_eq, Buffer.toByte_le_bytes_iff h.text]
  rw [contains_iff, hstart, hstop]

/-- A position between the delimiters names a cut of the content. -/
theorem exists_cut (h : r.Stands b pre post) {p : Position} (hp : r.contains p = true) :
    ∃ y z, r.content = y ++ z ∧ Names origin (b.clamp p) (pre ++ y) := by
  rw [contains_iff] at hp
  have hstart : b.clamp r.start = r.start := by
    rw [h.start, Buffer.clamp_advance h.text_eq]
  have hstop : b.clamp r.stop = r.stop := by
    rw [h.stop_eq, Buffer.clamp_advance h.text]
  have hinside : r.contains (b.clamp p) = true := by
    exact contains_iff.mpr ⟨hstart ▸ b.clamp_mono hp.1, hstop ▸ b.clamp_mono hp.2⟩
  obtain ⟨hbefore, hbehind⟩ := (h.contains_clamp_iff p).mp hinside
  obtain ⟨named, rest, hnamed, hnames⟩ := b.exists_names p
  rw [← Buffer.toByte_clamp, Buffer.toByte_of_names hnamed hnames] at hbefore hbehind
  obtain ⟨y, rfl⟩ := Text.prefix_of_bytes_le ⟨_, h.text_eq.symm⟩ ⟨_, hnamed.symm⟩ hbefore
  obtain ⟨z, hz⟩ := (List.prefix_append_right_inj pre).mp
    (Text.prefix_of_bytes_le ⟨_, hnamed.symm⟩ ⟨_, h.text.symm⟩ hbehind)
  exact ⟨y, z, hz.symm, hnames⟩

end Stands

/-! ### What the searches find -/

/-- A region stands in a document with a cursor between its delimiters. -/
def StandsAround (r : Region) (b : Buffer) (cursor : Position) : Prop :=
  ∃ pre post, r.Stands b pre post ∧ pre.bytes ≤ b.toByte cursor ∧
    b.toByte cursor ≤ (pre ++ r.content).bytes

theorem stands_of_inlineAt? (h : inlineAt? b cursor = some r) : r.StandsAround b cursor := by
  obtain ⟨x, y, z, w, ⟨hbefore, hbehind, -, -, -⟩, rfl⟩ := exists_inGap h
  obtain ⟨head, tail, htext, hline, hhead, hbyte⟩ := b.exists_cursor_line cursor
  rw [hbefore, hbehind] at htext hline
  rw [hbefore] at hbyte
  have hx : '\n' ∉ x ++ ['$'] := by
    simp at hline ⊢
    exact hline.1
  refine ⟨head ++ (x ++ ['$']), '$' :: (w ++ tail), ⟨?_, ?_, ?_, ?_, rfl⟩, ?_, ?_⟩
  · simp [htext, gapRegion]
  · exact ⟨head ++ x, by simp [MathKind.delimiter, gapRegion]⟩
  · exact ⟨w ++ tail, rfl⟩
  · show (⟨(b.clamp cursor).line, Text.units (x ++ ['$'])⟩ : Position) = _
    rw [Position.advance_append, hhead, Position.advance_of_notMem _ hx, Position.right,
      Nat.zero_add]
  · rw [hbyte]
    simp
  · rw [hbyte]
    simp [gapRegion]

theorem stands_of_displayAt? (h : displayAt? b cursor = some r) : r.StandsAround b cursor := by
  obtain ⟨opening, closing, hblock, rfl⟩ := exists_inBlock h
  obtain ⟨x, y, z, w, htext, hopening, hcursor, hclosing⟩ := hblock.exists_cut
  have hcontent : b.text.slice (opening + 2) closing = y ++ z := by
    rw [htext, hopening, hclosing, Text.slice_append]
  have hstart : b.ofByte (opening + 2) = origin.advance (x ++ ['$', '$']) := by
    rw [hopening, Buffer.ofByte_bytes (by rw [htext, List.append_assoc])]
  rw [blockRegion, hcontent, hstart]
  refine ⟨x ++ ['$', '$'], '$' :: '$' :: w, ⟨htext, ?_, ?_, rfl, rfl⟩, ?_, ?_⟩
  · exact List.suffix_append x ['$', '$']
  · exact ⟨w, rfl⟩
  · rw [hcursor, Text.bytes_append _ y]
    exact Nat.le_add_right _ _
  · rw [hcursor, Text.bytes_append, Text.bytes_append _ (y ++ z), Text.bytes_append y]
    omega

theorem stands_of_locate? (h : locate? b cursor = some r) : r.StandsAround b cursor := by
  rw [locate?, Option.or_eq_some_iff] at h
  rcases h with hdisplay | ⟨-, hinline⟩
  · exact stands_of_displayAt? hdisplay
  · exact stands_of_inlineAt? hinline

/-- **A located region is a delimited part of the document around the cursor**, whatever the
cursor was: its ends are places of the document, its content is the text between them, its
delimiters are around it, and the cursor, brought into the document, is in it. -/
theorem located_region_delimited (b : Buffer) (cursor : Position) (r : Region)
    (h : inlineAt? b cursor = some r ∨ displayAt? b cursor = some r ∨
      locate? b cursor = some r) :
    b.clamp r.start = r.start ∧ b.clamp r.stop = r.stop ∧
      b.toByte r.start ≤ b.toByte r.stop ∧
      b.text.slice (b.toByte r.start) (b.toByte r.stop) = r.content ∧
      b.text = Text.takeBytes (b.toByte r.start) b.text ++ r.content ++
        Text.dropBytes (b.toByte r.stop) b.text ∧
      (Text.takeBytes (b.toByte r.start) b.text).endsWith r.kind.delimiter ∧
      (Text.dropBytes (b.toByte r.stop) b.text).beginsWith r.kind.delimiter ∧
      r.contains (b.clamp cursor) := by
  obtain ⟨pre, post, hstands, hbefore, hbehind⟩ : r.StandsAround b cursor := by
    rcases h with hinline | hdisplay | hlocate
    · exact stands_of_inlineAt? hinline
    · exact stands_of_displayAt? hdisplay
    · exact stands_of_locate? hlocate
  have hpre : Text.takeBytes pre.bytes b.text = pre := by
    rw [hstands.text_eq, Text.takeBytes_bytes_append]
  have hpost : Text.dropBytes (pre ++ r.content).bytes b.text = post := by
    rw [hstands.text, Text.dropBytes_bytes_append]
  refine ⟨?_, ?_, ?_, ?_, ?_, ?_, ?_, (hstands.contains_clamp_iff cursor).mpr ⟨hbefore, hbehind⟩⟩
  · rw [hstands.start, Buffer.clamp_advance hstands.text_eq]
  · rw [hstands.stop_eq, Buffer.clamp_advance hstands.text]
  · rw [hstands.toByte_start, hstands.toByte_stop, Text.bytes_append]
    exact Nat.le_add_right _ _
  · rw [hstands.toByte_start, hstands.toByte_stop, hstands.text, Text.slice_append]
  · rw [hstands.toByte_start, hstands.toByte_stop, hpre, hpost, hstands.text]
  · rw [hstands.toByte_start, hpre]
    exact List.isSuffixOf_iff_suffix.mpr hstands.opening
  · rw [hstands.toByte_stop, hpost]
    exact List.isPrefixOf_iff_prefix.mpr hstands.closing

/-- A cursor inside the surrogate pair that display math begins with is in the region. -/
theorem display_region_around_pair :
    let b : Buffer := ⟨"𝔹$$𝔸\nx$$".toList⟩
    let r : Region := ⟨.display, "𝔸\nx".toList, ⟨0, 4⟩, ⟨1, 1⟩⟩
    locate? b ⟨0, 5⟩ = some r ∧ b.toByte r.start = 6 ∧ b.toByte r.stop = 12 ∧
      b.text.slice 6 12 = r.content ∧ r.contains ⟨0, 5⟩ := by
  intro b r
  have hlocate : locate? b ⟨0, 5⟩ = some r := by decide +kernel
  have hstart : b.toByte r.start = 6 := by decide +kernel
  have hstop : b.toByte r.stop = 12 := by decide +kernel
  have hclamp : b.clamp ⟨0, 5⟩ = ⟨0, 5⟩ := by decide +kernel
  obtain ⟨-, -, -, hcontent, -, -, -, hcontains⟩ :=
    located_region_delimited b ⟨0, 5⟩ r (Or.inr (Or.inr hlocate))
  rw [hstart, hstop] at hcontent
  rw [hclamp] at hcontains
  exact ⟨hlocate, hstart, hstop, hcontent, hcontains⟩

end Region

end MathTyping
