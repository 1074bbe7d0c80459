import MathTyping.Proofs.Equation.Progress
import MathTyping.Proofs.Region.Rescan

/-!
# Where a jump strands the cursor

A jump chooses its stop by the content of the region alone.  It does not ask whether a region is
located there again, and where none is, the next press does nothing: the cursor is stranded in the
middle of an equation.

A jump that only moves the cursor strands it at an end of the region: of an inline region if a
space is there, since the inline search takes it for padding, and of a display region, ahead, if
the content ends with an escaped dollar.  A bracket never strands.  Deleting a marker changes what
the searches read: the spaces and dollars that meet, and what a run of backslashes before the
marker escapes.  `jump_strands_iff` says for each of the four cases exactly when the cursor is
stranded, and that pressing ends in no other way than by leaving a region or being stranded.
-/

namespace MathTyping

open Position (origin)
open Text (Unescaped Bare)
open Region (IsGap InBlock MeetsPadding)

namespace Text

theorem bytes_append_eq_left_iff {s t : Text} : (s ++ t).bytes = s.bytes ↔ t = [] := by
  refine ⟨fun h => ?_, fun h => by rw [h, List.append_nil]⟩
  by_contra hne
  have hpos := bytes_pos hne
  rw [bytes_append] at h
  omega

end Text

namespace Equation

variable {b : Buffer} {r : Region} {cursor : Position} {d : JumpDirection}
  {pre post x y z u v w : Text}

/-- A stop that is no marker is an end of the content, or the outer side of a bracket. -/
theorem Stop.eq_nil_of_between (h : Stop y z d u [] v) {before behind : Char}
    (hbefore : (pre ++ u).getLast? = some before) (hbehind : (v ++ post).head? = some behind)
    (hcloses : BracketKind.closes before = false) (hopens : BracketKind.opens behind = false) :
    u = [] ∨ v = [] := by
  generalize hm : ([] : Text) = m at h
  cases h with
  | markerAhead => contradiction
  | markerBehind => contradiction
  | endAhead => exact .inr rfl
  | startBehind => exact .inl rfl
  | @bracketAhead front _ c _ _ hcloses' _ =>
      rw [← List.append_assoc, List.getLast?_concat] at hbefore
      obtain rfl := Option.some.inj hbefore
      rw [hcloses] at hcloses'
      contradiction
  | @bracketBehind _ back c _ _ hopens' _ =>
      obtain rfl : c = behind := Option.some.inj hbehind
      rw [hopens] at hopens'
      contradiction

/-! ### The four cases -/

/-- A move inside a region strands the cursor at a place: at padding, or behind an escaped dollar
that ends the content of a block. -/
def StrandsByMove (b : Buffer) (r : Region) (p : Position) : Prop :=
  match r.kind with
  | .inline =>
      (b.toByte p = b.toByte r.start ∨ b.toByte p = b.toByte r.stop) ∧
        MeetsPadding (b.textBefore p) (b.textBehind p) ∧
        ¬ ∃ opening closing, InBlock b p opening closing
  | .display =>
      b.toByte p = b.toByte r.stop ∧ (b.textBefore p).getLast? = some '$' ∧
        Bare [] (b.textBefore p).lastLine

/-- Deleting a marker of a region that starts at `start` strands the cursor where the marker was:
at new padding, or where backslashes before the marker now escape a dollar, or where dollars of the
content now meet others. -/
def StrandsByDeletion (edited : Buffer) (kind : MathKind) (start : Nat) (p : Position) : Prop :=
  let before := edited.textBefore p
  let behind := edited.textBehind p
  match kind with
  | .inline =>
      (¬ ∃ opening closing, InBlock edited p opening closing) ∧
        (MeetsPadding before behind ∨
          ¬ Unescaped before ∧ Bare before.lastLine behind.firstLine)
  | .display =>
      (¬ Unescaped before ∨ edited.toByte p ≠ start ∧ before.getLast? = some '$') ∧
        ((¬ ∃ opening closing, InBlock edited p opening closing) ∧
            (MeetsPadding before behind ∨ Bare [] before.lastLine ∨
              Bare before.lastLine behind.firstLine) ∨
          (before.getLast? = some '$' ∧ behind.head? = some '$') ∧ Bare [] before.lastLine)

theorem locate?_move_inline (hstands : r.Stands b pre post) (hkind : r.kind = .inline)
    (hgap : IsGap pre r.content post) (hcontent : r.content = u ++ v)
    (hstop : Stop y z d u [] v) :
    Region.locate? b (origin.advance (pre ++ u)) = none ↔
      StrandsByMove b r (origin.advance (pre ++ u)) := by
  have htext : b.text = (pre ++ u) ++ (v ++ post) := by
    rw [hstands.text, hcontent]
    simp
  have hline := hgap.line
  rw [hcontent, List.mem_append, not_or] at hline
  obtain ⟨hu, hv⟩ := hline
  have hbehind : ¬ Bare (pre ++ u).lastLine (v ++ post).firstLine := by
    refine hgap.not_bare_behind hv ?_
    have hcloses := hgap.closes
    rwa [hcontent, ← List.append_assoc] at hcloses
  -- Neither side of padding is a bracket.
  have hend : MeetsPadding (pre ++ u) (v ++ post) → u = [] ∨ v = [] := by
    rintro (⟨hbefore, hafter⟩ | ⟨hbefore, hafter⟩)
    · exact hstop.eq_nil_of_between hbefore hafter rfl rfl
    · exact hstop.eq_nil_of_between hbefore hafter rfl rfl
  have hends : b.toByte (origin.advance (pre ++ u)) = b.toByte r.start ∨
      b.toByte (origin.advance (pre ++ u)) = b.toByte r.stop ↔ u = [] ∨ v = [] := by
    rw [Buffer.toByte_advance htext, hstands.toByte_start, hstands.toByte_stop, hcontent,
      ← List.append_assoc, Text.bytes_append_eq_left_iff, eq_comm (b := Text.bytes (pre ++ u ++ v)),
      Text.bytes_append_eq_left_iff]
  rw [hgap.locate?_eq_none_iff hu htext, StrandsByMove, hkind, Buffer.textBefore_advance htext,
    Buffer.textBehind_advance htext]
  dsimp only
  rw [hends, or_iff_left hbehind]
  rw [and_comm]
  exact (and_iff_right_of_imp fun h => hend h.1).symm

theorem locate?_move_display (hstands : r.Stands b pre post) (hkind : r.kind = .display)
    (hpre : pre = x ++ ['$', '$']) (hpost : post = '$' :: '$' :: w)
    (hblock : InBlock b cursor x.bytes (pre ++ r.content).bytes)
    (hcontent : r.content = u ++ v) (hstop : Stop y z d u [] v) :
    Region.locate? b (origin.advance (pre ++ u)) = none ↔
      StrandsByMove b r (origin.advance (pre ++ u)) := by
  have htext : b.text = (pre ++ u) ++ (v ++ post) := by
    rw [hstands.text, hcontent]
    simp
  have hplace := Buffer.toByte_advance htext
  have hmoved : InBlock b (origin.advance (pre ++ u)) x.bytes (pre ++ r.content).bytes := by
    refine hblock.moved ?_ ?_
    · rw [hplace, hpre]
      simp only [Text.bytes_append]
      exact Nat.le_add_right _ _
    · rw [hplace, hcontent]
      simp only [Text.bytes_append]
      omega
  have hstart : u = [] → ¬ Bare [] (pre ++ u).lastLine := by
    rintro rfl
    rw [List.append_nil, hpre]
    exact Region.not_bare_behind_marker x
  have hatStop : b.toByte (origin.advance (pre ++ u)) = b.toByte r.stop ↔ v = [] := by
    rw [hplace, hstands.toByte_stop, hcontent, ← List.append_assoc, eq_comm,
      Text.bytes_append_eq_left_iff]
  rw [hmoved.locate?_eq_none_iff htext, StrandsByMove, hkind, Buffer.textBefore_advance htext]
  dsimp only
  rw [hatStop]
  constructor
  · rintro ⟨⟨hbefore, hbehind⟩, hbare⟩
    refine ⟨?_, hbefore, hbare⟩
    exact (hstop.eq_nil_of_between hbefore hbehind rfl rfl).resolve_left fun h => hstart h hbare
  · rintro ⟨rfl, hbefore, hbare⟩
    exact ⟨⟨hbefore, by rw [hpost]; rfl⟩, hbare⟩

theorem locate?_deletion_inline (hgap : IsGap pre r.content post) (hkind : r.kind = .inline)
    (hcontent : r.content = u ++ cursorMarker ++ v) {edited : Buffer}
    (htext : edited.text = (pre ++ u) ++ (v ++ post)) (start : Nat) :
    Region.locate? edited (origin.advance (pre ++ u)) = none ↔
      StrandsByDeletion edited r.kind start (origin.advance (pre ++ u)) := by
  have hline := hgap.line
  rw [hcontent, List.mem_append, List.mem_append, not_or, not_or] at hline
  obtain ⟨⟨hu, -⟩, hv⟩ := hline
  -- The marker escapes nothing, so behind it the closing dollar counts by what follows alone.
  have hbehind : Bare (pre ++ u).lastLine (v ++ post).firstLine → ¬ Unescaped (pre ++ u) := by
    refine fun hbare hu => hgap.not_bare_behind hv ?_ hbare
    have hmarker : Unescaped (pre ++ u ++ cursorMarker) := by
      have hsplit : pre ++ u ++ cursorMarker = (pre ++ u ++ cursorMarker.dropLast) ++ ['R'] := by
        simp [cursorMarker]
      rw [hsplit, Text.unescaped_concat]
      simp
    have hcloses := hgap.closes
    rw [hcontent, ← List.append_assoc, ← List.append_assoc] at hcloses
    exact (Text.unescaped_append_congr (iff_of_true hu hmarker) v).mpr hcloses
  rw [hgap.locate?_eq_none_iff hu htext, hkind, StrandsByDeletion,
    Buffer.textBefore_advance htext, Buffer.textBehind_advance htext]
  tauto

/-- Where the text of a block before a deleted marker ends neither with a dollar nor escaping, a
region is located. -/
theorem locate?_deletion_ne_none (hpre : pre = x ++ ['$', '$'])
    (hblock : InBlock b cursor x.bytes (pre ++ r.content).bytes)
    (hcontent : r.content = u ++ cursorMarker ++ v) (hold : b.text = pre ++ r.content ++ post)
    (hlast : u.getLast? ≠ some '$') (hescape : Unescaped u) :
    Region.locate? ⟨(pre ++ u) ++ (v ++ post)⟩ (origin.advance (pre ++ u)) ≠ none := by
  subst hpre
  rw [hcontent] at hold hblock
  have hinside : Text.bytes (x ++ ['$', '$'] ++ u) ≤
      Text.bytes (x ++ ['$', '$'] ++ (u ++ cursorMarker ++ v)) := by
    simp only [Text.bytes_append]
    omega
  obtain ⟨closing, hstill⟩ := hblock.exists_of_deleted hold hinside hlast hescape
  rw [ne_eq, hstill.locate?_eq_none_iff rfl]
  rintro ⟨⟨hdollar, -⟩, hbare⟩
  -- A dollar before the place is the one of the opening marker, which counts.
  rcases List.eq_nil_or_concat u with rfl | ⟨init, c, rfl⟩
  · rw [List.append_nil] at hbare
    exact Region.not_bare_behind_marker x hbare
  · rw [List.concat_eq_append, ← List.append_assoc, List.getLast?_concat] at hdollar
    rw [List.concat_eq_append, List.getLast?_concat] at hlast
    exact hlast hdollar

theorem locate?_deletion_display (hkind : r.kind = .display) (hpre : pre = x ++ ['$', '$'])
    (hblock : InBlock b cursor x.bytes (pre ++ r.content).bytes)
    (hcontent : r.content = u ++ cursorMarker ++ v) (hold : b.text = pre ++ r.content ++ post)
    {edited : Buffer} (hedited : edited = ⟨(pre ++ u) ++ (v ++ post)⟩) :
    Region.locate? edited (origin.advance (pre ++ u)) = none ↔
      StrandsByDeletion edited r.kind pre.bytes (origin.advance (pre ++ u)) := by
  have htext : edited.text = (pre ++ u) ++ (v ++ post) := by rw [hedited]
  have hescape : Unescaped (pre ++ u) ↔ Unescaped u := by
    rw [hpre]
    exact Region.unescaped_behind_marker x u
  have hatStart : edited.toByte (origin.advance (pre ++ u)) = pre.bytes ↔ u = [] := by
    rw [Buffer.toByte_advance htext, Text.bytes_append_eq_left_iff]
  have hreason : Region.locate? edited (origin.advance (pre ++ u)) = none →
      ¬ Unescaped (pre ++ u) ∨ u ≠ [] ∧ (pre ++ u).getLast? = some '$' := by
    intro hnone
    rw [hescape]
    by_contra hneither
    obtain ⟨hfree, hdollars⟩ := not_or.mp hneither
    have hlast : u.getLast? ≠ some '$' := by
      intro hlast
      obtain ⟨init, rfl⟩ := List.getLast?_eq_some_iff.mp hlast
      exact hdollars ⟨by simp, by simp⟩
    rw [hedited] at hnone
    exact locate?_deletion_ne_none hpre hblock hcontent hold hlast (not_not.mp hfree) hnone
  rw [hkind, StrandsByDeletion, Buffer.textBefore_advance htext, Buffer.textBehind_advance htext,
    ne_eq, hatStart, ← Region.locate?_eq_none_iff htext]
  exact ⟨fun h => ⟨hreason h, h⟩, fun h => h.2⟩

/-! ### A jump, and pressing again and again -/

/-- A jump leaves the region: it edits nothing and takes the cursor to the far side of the
delimiter. -/
def LeavesRegion (b : Buffer) (r : Region) (cursor : Position) (d : JumpDirection) : Prop :=
  let splice := jump b r cursor d
  splice.edit = none ∧
    d.Passes (b.toByte (r.endOf d)) r.kind.delimiter.bytes (b.toByte (splice.apply b).2)

/-- A jump inside a region strands the cursor. -/
def Strands (b : Buffer) (r : Region) (cursor : Position) (d : JumpDirection) : Prop :=
  let splice := jump b r cursor d
  let next := splice.apply b
  if splice.edit = none then StrandsByMove b r next.2
  else StrandsByDeletion next.1 r.kind (b.toByte r.start) next.2

theorem locate?_apply_jump_eq_none_iff (h : Region.locate? b cursor = some r)
    (hstay : ¬ LeavesRegion b r cursor d) :
    let next := (jump b r cursor d).apply b
    Region.locate? next.1 next.2 = none ↔ Strands b r cursor d := by
  obtain ⟨pre, post, y, z, hstands, hcontent, -, hcursor⟩ := exists_cut_of_locate? h
  rcases jump_cases hstands hcontent hcursor d with
    ⟨hend, before, after, htext, hleaves, hjump⟩ | ⟨u, m, v, hstop, hjump⟩
  · refine absurd ⟨by rw [hjump]; rfl, ?_⟩ hstay
    have hpasses := hleaves.passes hend hcontent
    have hcaret : ((jump b r cursor d).apply b).2 = b.clamp (origin.advance before) := by
      rw [hjump]
      rfl
    rwa [hcaret, Buffer.toByte_clamp, Buffer.toByte_advance htext,
      toByte_endOf hstands hcontent hend]
  · have hparts : r.content = u ++ m ++ v := by rw [hcontent, hstop.parts_eq]
    have htext : b.text = pre ++ (u ++ m ++ v) ++ post := by rw [hstands.text, hparts]
    unfold Strands
    rw [hjump]
    dsimp only
    rw [apply_stop htext hstop.deleted, hstands.toByte_start]
    dsimp only
    rcases hstop.deleted with rfl | rfl
    · have hsame : (⟨pre ++ (u ++ v) ++ post⟩ : Buffer) = b := by
        cases b
        simpa using htext.symm
      rw [List.append_nil] at hparts
      have hedit : deletion? (origin.advance (pre ++ u)) [] = none := rfl
      rw [hsame, if_pos hedit]
      rcases Option.or_eq_some_iff.mp h with hdisplay | ⟨-, hinline⟩
      · obtain ⟨x, w, hpre, hpost, hblock⟩ := Region.exists_block_of_displayAt? hdisplay hstands
        exact locate?_move_display hstands (Region.kind_of_displayAt? hdisplay) hpre hpost hblock
          hparts hstop
      · exact locate?_move_inline hstands (Region.kind_of_inlineAt? hinline)
          (Region.isGap_of_inlineAt? hinline hstands) hparts hstop
    · have hedited : (⟨pre ++ (u ++ v) ++ post⟩ : Buffer) = ⟨(pre ++ u) ++ (v ++ post)⟩ := by simp
      rw [if_neg (by simp [deletion?, cursorMarker])]
      rcases Option.or_eq_some_iff.mp h with hdisplay | ⟨-, hinline⟩
      · obtain ⟨x, w, hpre, -, hblock⟩ := Region.exists_block_of_displayAt? hdisplay hstands
        exact locate?_deletion_display (Region.kind_of_displayAt? hdisplay) hpre hblock hparts
          hstands.text hedited
      · exact locate?_deletion_inline (Region.isGap_of_inlineAt? hinline hstands)
          (Region.kind_of_inlineAt? hinline) hparts (congrArg Buffer.text hedited) _

theorem exists_last_press {s : Buffer × Position} (h : press? d s ≠ none) :
    ∃ n last next, presses d n s = some last ∧ press? d last = some next ∧
      press? d next = none := by
  induction hwork : work s d using Nat.strongRecOn generalizing s with
  | ind bound ih =>
      obtain ⟨next, hnext⟩ := Option.ne_none_iff_exists'.mp h
      by_cases hlast : press? d next = none
      · exact ⟨0, s, next, rfl, hnext, hlast⟩
      · obtain ⟨n, last, after, hlast, hafter, hnone⟩ :=
          ih _ (hwork ▸ work_lt_of_press? hnext) hlast rfl
        refine ⟨n + 1, last, after, ?_, hafter, hnone⟩
        rw [presses, hnext]
        exact hlast

/-- **Where a jump strands the cursor.**  After a jump that does not leave the region, no region is
located exactly where the jump strands the cursor.  From any region, pressing the key ends, and the
last press is a jump that leaves a region or one that strands. -/
theorem jump_strands_iff (d : JumpDirection) :
    (∀ (b : Buffer) (cursor : Position) (r : Region), Region.locate? b cursor = some r →
      ¬ LeavesRegion b r cursor d →
        let next := (jump b r cursor d).apply b
        Region.locate? next.1 next.2 = none ↔ Strands b r cursor d) ∧
    ∀ s : Buffer × Position, Region.locate? s.1 s.2 ≠ none →
      ∃ (n : Nat) (b : Buffer) (cursor : Position) (r : Region),
        presses d n s = some (b, cursor) ∧ Region.locate? b cursor = some r ∧
        press? d ((jump b r cursor d).apply b) = none ∧
        (LeavesRegion b r cursor d ∨ Strands b r cursor d) := by
  refine ⟨fun _ _ _ h hstay => locate?_apply_jump_eq_none_iff h hstay, fun s hs => ?_⟩
  obtain ⟨n, ⟨b, cursor⟩, next, hlast, hpress, hnone⟩ : ∃ n last next, presses d n s = some last ∧
      press? d last = some next ∧ press? d next = none :=
    exists_last_press (mt Option.map_eq_none_iff.mp hs)
  obtain ⟨r, hlocate, rfl⟩ := Option.map_eq_some_iff.mp hpress
  refine ⟨n, b, cursor, r, hlast, hlocate, hnone, ?_⟩
  by_cases hleaves : LeavesRegion b r cursor d
  · exact .inl hleaves
  · have hlost := Option.map_eq_none_iff.mp hnone
    exact .inr ((locate?_apply_jump_eq_none_iff hlocate hleaves).mp hlost)

/-- The backslash in front of a marker escapes the closing dollar once the marker is deleted. -/
theorem escaped_closing_strands :
    let b : Buffer := ⟨"$𝔸\\#CURSOR$".toList⟩
    let r : Region := ⟨.inline, "𝔸\\#CURSOR".toList, ⟨0, 1⟩, ⟨0, 11⟩⟩
    Region.locate? b ⟨0, 1⟩ = some r ∧ ¬ LeavesRegion b r ⟨0, 1⟩ .forward ∧
      Strands b r ⟨0, 1⟩ .forward ∧ presses .forward 2 (b, ⟨0, 1⟩) = none := by
  intro b r
  have hlocate : Region.locate? b ⟨0, 1⟩ = some r := by decide +kernel
  have hedit : ¬ (jump b r ⟨0, 1⟩ .forward).edit = none := by decide +kernel
  have hstay : ¬ LeavesRegion b r ⟨0, 1⟩ .forward := fun h => hedit h.1
  obtain ⟨hmoves, -⟩ := jump_strands_iff .forward
  have hiff := hmoves b ⟨0, 1⟩ r hlocate hstay
  dsimp only at hiff
  refine ⟨hlocate, hstay, ?_, by decide +kernel⟩
  rw [← hiff]
  decide +kernel

/-- At a space before the closing dollar the jump ahead stops in front of the dollar, and the next
press does nothing. -/
theorem padding_strands_jump :
    let b : Buffer := ⟨"$x $".toList⟩
    let r : Region := ⟨.inline, ['x', ' '], ⟨0, 1⟩, ⟨0, 3⟩⟩
    Region.locate? b ⟨0, 2⟩ = some r ∧ ¬ LeavesRegion b r ⟨0, 2⟩ .forward ∧
      press? .forward (b, ⟨0, 2⟩) = some (b, ⟨0, 3⟩) ∧ press? .forward (b, ⟨0, 3⟩) = none := by
  intro b r
  have hend : b.toByte (r.endOf .forward) = 3 := by decide +kernel
  have hcaret : b.toByte ((jump b r ⟨0, 2⟩ .forward).apply b).2 = 3 := by decide +kernel
  have hstay : ¬ LeavesRegion b r ⟨0, 2⟩ .forward := by
    rintro ⟨-, hpasses⟩
    have hwidth : r.kind.delimiter.bytes = 1 := rfl
    rw [hend, hcaret, hwidth] at hpasses
    have hplace : 3 = 3 + 1 := hpasses
    exact absurd hplace (by decide)
  exact ⟨by decide +kernel, hstay, by decide +kernel, by decide +kernel⟩

end Equation

end MathTyping
