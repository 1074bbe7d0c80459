import MathTyping.BracketCache
import MathTyping.Highlight
import MathTyping.Proofs.Bracket.Places
import MathTyping.Proofs.Region.Local

/-!
# Brackets of a located region

The pairs of a region are found in its content, and marked in the document.  A bracket has as
many bytes before it in the document as before the region and before it in the content together,
and its decoration covers it and nothing else (`marks_bracket`).

The pair around the cursor is picked by bytes of the content; in the document the same pairs are
those with the cursor behind the opening bracket and not behind the closing one
(`encloses_iff`), wherever the cursor is in the region.
-/

namespace MathTyping

namespace Region

open Position (origin)

variable {r : Region} {b : Buffer} {pre post : Text} {kind : BracketKind} {opens : Bool}
  {token : BracketToken}

/-- A range of a document covers one character, a bracket of a kind that opens or closes. -/
def MarksBracket (b : Buffer) (range : Range) (kind : BracketKind) (opens : Bool) : Prop :=
  b.clamp range.start = range.start ∧ b.clamp range.stop = range.stop ∧
    ∃ c, b.slice range = [c] ∧ BracketKind.ofChar? c = some (kind, opens)

/-- Brackets are characters of one unit, and no line feeds. -/
theorem narrow_of_bracket {c : Char} (h : BracketKind.ofChar? c = some (kind, opens)) :
    charUnits c = 1 ∧ c ≠ '\n' := by
  have hbracket : c = '(' ∨ c = ')' ∨ c = '[' ∨ c = ']' ∨ c = '\x7b' ∨ c = '\x7d' := by
    by_contra hnone
    simp only [not_or] at hnone
    simp [BracketKind.ofChar?, hnone] at h
  rcases hbracket with rfl | rfl | rfl | rfl | rfl | rfl <;> decide

namespace Stands

/-- A token of the content is a bracket of the document. -/
theorem exists_bracket (h : r.Stands b pre post) (htoken : token.StandsIn r.content) :
    ∃ before c after, b.text = (pre ++ before) ++ [c] ++ after ∧
      r.ofLocal token.place.position = origin.advance (pre ++ before) ∧
      token.place.byte = Text.bytes before ∧
      BracketKind.ofChar? c = some (token.kind, token.opens) := by
  obtain ⟨before, c, after, hcontent, hplace, hkind⟩ := htoken
  refine ⟨before, c, after ++ post, ?_, ?_, ?_, hkind⟩
  · rw [h.text, hcontent]
    simp
  · rw [hplace, Place.position_behind, ofLocal_advance, ofLocal_origin, h.start,
      Position.advance_append]
  · rw [hplace]
    rfl

theorem toByte_bracket (h : r.Stands b pre post) (htoken : token.StandsIn r.content) :
    b.toByte (r.ofLocal token.place.position) = b.toByte r.start + token.place.byte := by
  obtain ⟨before, c, after, htext, hposition, hbyte, -⟩ := h.exists_bracket htoken
  rw [hposition, Buffer.toByte_advance (by rw [htext, List.append_assoc]), h.toByte_start, hbyte,
    Text.bytes_append]

/-- The decoration of a token covers its bracket. -/
theorem marks_bracket (h : r.Stands b pre post) (htoken : token.StandsIn r.content)
    (className : Text) :
    MarksBracket b (Highlight.bracket (r.ofLocal token.place.position) className).range token.kind
      token.opens := by
  obtain ⟨before, c, after, htext, hposition, -, hkind⟩ := h.exists_bracket htoken
  obtain ⟨hunits, hfeed⟩ := narrow_of_bracket hkind
  have hline : '\n' ∉ [c] := by simpa using hfeed.symm
  have hstop : (r.ofLocal token.place.position).right 1 =
      origin.advance ((pre ++ before) ++ [c]) := by
    rw [hposition, Position.advance_append _ (pre ++ before) [c],
      Position.advance_of_notMem _ hline]
    simp [hunits]
  have htext' : b.text = (pre ++ before) ++ ([c] ++ after) := by rw [htext, List.append_assoc]
  have hslice : b.slice ⟨origin.advance (pre ++ before), origin.advance ((pre ++ before) ++ [c])⟩ =
      [c] := Buffer.slice_of_cuts htext (Buffer.byteRange_advance htext)
  refine ⟨?_, ?_, c, ?_, hkind⟩
  · show b.clamp (r.ofLocal token.place.position) = r.ofLocal token.place.position
    rw [hposition, Buffer.clamp_advance htext']
  · show b.clamp ((r.ofLocal token.place.position).right 1) =
      (r.ofLocal token.place.position).right 1
    rw [hstop, Buffer.clamp_advance htext]
  · show b.slice ⟨r.ofLocal token.place.position, (r.ofLocal token.place.position).right 1⟩ = [c]
    rw [hstop, hposition, hslice]

/-- A bracket is before a position exactly if its bytes are. -/
theorem le_bracket_iff (h : r.Stands b pre post) (htoken : token.StandsIn r.content)
    {c : Position} (hc : b.clamp c = c) :
    c ≤ r.ofLocal token.place.position ↔ b.toByte c ≤ b.toByte r.start + token.place.byte := by
  obtain ⟨before, d, after, htext, hposition, -, -⟩ := h.exists_bracket htoken
  have htext' : b.text = (pre ++ before) ++ ([d] ++ after) := by rw [htext, List.append_assoc]
  rw [← h.toByte_bracket htoken, hposition, Buffer.toByte_advance htext',
    Buffer.toByte_le_bytes_iff htext', hc]

/-- A pair is around a position in the content exactly if it is in the document. -/
theorem encloses_iff (h : r.Stands b pre post) {pair : BracketPair}
    (hpair : pair ∈ BracketPair.ofSource r.content) {c q : Position} (hc : b.clamp c = c)
    (hbyte : b.toByte c = b.toByte r.start + r.content.offsetOf q) :
    pair.encloses (r.content.offsetOf q) = true ↔
      (Highlight.projectPair r pair).1 < c ∧ c ≤ (Highlight.projectPair r pair).2 := by
  obtain ⟨opening, closing, hjoins, hopening, hclosing⟩ := BracketPair.exists_joined hpair
  have hfrom : r.ofLocal opening.place.position < c ↔
      ¬ b.toByte c ≤ b.toByte r.start + opening.place.byte := by
    rw [← h.le_bracket_iff hopening hc, not_le]
  have hto := h.le_bracket_iff hclosing hc
  rw [Highlight.projectPair, BracketPair.encloses, hjoins.opening_place, hjoins.closing_place,
    Bool.and_eq_true, decide_eq_true_eq, decide_eq_true_eq, hfrom, hto, hbyte]
  omega

/-- The marks of a pair start where the pair is in the document, and cover its brackets. -/
theorem marks_pair (h : r.Stands b pre post) {pair : BracketPair}
    (hpair : pair ∈ BracketPair.ofSource r.content) (className : Text) :
    ∃ opening closing, Highlight.ofPair r className pair = [opening, closing] ∧
      opening.range.start = (Highlight.projectPair r pair).1 ∧
      MarksBracket b opening.range pair.kind true ∧
      closing.range.start = (Highlight.projectPair r pair).2 ∧
      MarksBracket b closing.range pair.kind false := by
  obtain ⟨opening, closing, hjoins, hopening, hclosing⟩ := BracketPair.exists_joined hpair
  refine ⟨_, _, rfl, rfl, ?_, rfl, ?_⟩
  · have hmarks := h.marks_bracket hopening className
    rwa [hjoins.opens, hjoins.opening_kind, ← hjoins.opening_place] at hmarks
  · have hmarks := h.marks_bracket hclosing className
    rwa [hjoins.closes, hjoins.closing_kind, ← hjoins.closing_place] at hmarks

theorem toByte_projectPair (h : r.Stands b pre post) {pair : BracketPair}
    (hpair : pair ∈ BracketPair.ofSource r.content) :
    b.toByte (Highlight.projectPair r pair).1 = b.toByte r.start + pair.opening.byte ∧
      b.toByte (Highlight.projectPair r pair).2 = b.toByte r.start + pair.closing.byte := by
  obtain ⟨opening, closing, hjoins, hopening, hclosing⟩ := BracketPair.exists_joined hpair
  have hfrom := h.toByte_bracket hopening
  have hto := h.toByte_bracket hclosing
  rw [← hjoins.opening_place] at hfrom
  rw [← hjoins.closing_place] at hto
  exact ⟨hfrom, hto⟩

/-- The cached pair around a position is the first of least span of those around it in the
document. -/
theorem enclosing?_eq_some_iff (h : r.Stands b pre post) {c : Position} (hc : b.clamp c = c)
    (hcontains : r.contains c = true) (p : BracketPair) :
    BracketCache.enclosing? ⟨some r, some (BracketPair.ofSource r.content)⟩ c = some p ↔
      BracketPair.FirstLeast (BracketPair.ofSource r.content)
        (fun q => (Highlight.projectPair r q).1 < c ∧ c ≤ (Highlight.projectPair r q).2) p := by
  obtain ⟨q, hlocal, hbyte⟩ := h.exists_local hc hcontains
  rw [← h.toByte_start] at hbyte
  have hfilter : (BracketPair.ofSource r.content).filter (·.encloses (r.content.offsetOf q)) =
      (BracketPair.ofSource r.content).filter (fun p =>
        decide ((Highlight.projectPair r p).1 < c ∧ c ≤ (Highlight.projectPair r p).2)) := by
    refine List.filter_congr fun p hp => ?_
    rw [Bool.eq_iff_iff, decide_eq_true_eq]
    exact h.encloses_iff hp hc hbyte
  have henclosing : BracketCache.enclosing? ⟨some r, some (BracketPair.ofSource r.content)⟩ c =
      BracketPair.leastSpan?
        ((BracketPair.ofSource r.content).filter (·.encloses (r.content.offsetOf q))) := by
    simp [BracketCache.enclosing?, hlocal, BracketPair.innermost?]
  rw [henclosing, hfilter, BracketPair.leastSpan?_filter_eq_some_iff]
  simp only [decide_eq_true_eq]

end Stands

/-- **Brackets are marked where they are.**  Each bracket of a pair of a located region has the
bytes of the region and its own before it, its decoration covers exactly that bracket, and from
any position in the region the pair around it is the first of least span of those that are
around it in the document. -/
theorem brackets_marked_in_place (b : Buffer) (cursor : Position) (r : Region)
    (h : locate? b cursor = some r) :
    let pairs := BracketPair.ofSource r.content
    (∀ p ∈ pairs,
      b.toByte (Highlight.projectPair r p).1 = b.toByte r.start + p.opening.byte ∧
      b.toByte (Highlight.projectPair r p).2 = b.toByte r.start + p.closing.byte ∧
      ∀ className, ∃ opening closing, Highlight.ofPair r className p = [opening, closing] ∧
        opening.range.start = (Highlight.projectPair r p).1 ∧
        MarksBracket b opening.range p.kind true ∧
        closing.range.start = (Highlight.projectPair r p).2 ∧
        MarksBracket b closing.range p.kind false) ∧
      ∀ c, b.clamp c = c → r.start ≤ c → c ≤ r.stop → ∀ p,
        BracketCache.enclosing? ⟨some r, some pairs⟩ c = some p ↔
          BracketPair.FirstLeast pairs
            (fun q => (Highlight.projectPair r q).1 < c ∧ c ≤ (Highlight.projectPair r q).2) p := by
  intro pairs
  obtain ⟨pre, post, hstands, -⟩ := stands_of_locate? h
  refine ⟨fun p hp => ?_, fun c hc hstart hstop p => ?_⟩
  · obtain ⟨hfrom, hto⟩ := hstands.toByte_projectPair hp
    exact ⟨hfrom, hto, fun className => hstands.marks_pair hp className⟩
  · exact hstands.enclosing?_eq_some_iff hc (contains_iff.mpr ⟨hstart, hstop⟩) p

/-- From within a surrogate pair between two brackets their pair is the one around. -/
theorem pair_around_wide_character :
    let b : Buffer := ⟨"$𝔸(𝔹)$".toList⟩
    let r : Region := ⟨.inline, "𝔸(𝔹)".toList, ⟨0, 1⟩, ⟨0, 7⟩⟩
    let p : BracketPair := ⟨.paren, 0, ⟨0, 2, 4⟩, ⟨0, 5, 9⟩⟩
    locate? b ⟨0, 2⟩ = some r ∧ BracketPair.ofSource r.content = [p] ∧
      b.toByte (Highlight.projectPair r p).1 = b.toByte r.start + 4 ∧
      b.toByte (Highlight.projectPair r p).2 = b.toByte r.start + 9 ∧
      BracketCache.enclosing? ⟨some r, some [p]⟩ ⟨0, 5⟩ = some p := by
  intro b r p
  have hlocate : locate? b ⟨0, 2⟩ = some r := by decide +kernel
  have hpairs : BracketPair.ofSource r.content = [p] := by decide +kernel
  obtain ⟨hbrackets, henclosing⟩ := brackets_marked_in_place b ⟨0, 2⟩ r hlocate
  rw [hpairs] at hbrackets henclosing
  obtain ⟨hfrom, hto, -⟩ := hbrackets p List.mem_cons_self
  refine ⟨hlocate, hpairs, hfrom, hto, ?_⟩
  refine (henclosing ⟨0, 5⟩ (by decide +kernel) (by decide) (by decide) p).mpr ?_
  exact ⟨by decide, [], [], rfl, by simp, by simp⟩

end Region

end MathTyping
