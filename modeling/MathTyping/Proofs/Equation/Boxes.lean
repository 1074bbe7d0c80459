import Mathlib.Logic.Function.Iterate
import MathTyping.Equation
import MathTyping.Proofs.Region.Missed

/-!
# Boxes around boxes

The command that boxes an equation leaves the caret before the closing dollar.  What it has
written there is found again: a box around the content of a region is the content of a region
itself (`Fits.boxed`).  No dollar of it counts, since a run of backslashes starts anew behind
the parenthesis as it did behind the dollar, and it ends with a parenthesis, which neither
escapes the closing dollar nor makes padding with it.

So the region stands where it stood, and boxing goes on as often as one likes.
-/

namespace MathTyping

open Position (origin)
open Text (Unescaped Bare)

namespace Text

variable {t : Text}

theorem unescaped_dollar (x : Text) : Unescaped (x ++ ['$']) :=
  (unescaped_concat x '$').mpr (by simp)

/-- A text that can stand between two dollars of a line: none of its own dollars counts, and it
does not escape what follows. -/
structure Fits (t : Text) : Prop where
  bare : Bare [] t
  unescaped : Unescaped t
  line : '\n' ∉ t

/-- A text in a box. -/
def boxed (t : Text) : Text := "box(".toList ++ t ++ [')']

/-- A box can stand between two dollars if its content can. -/
theorem Fits.boxed (h : Fits t) : Fits (boxed t) := by
  have hopen : Unescaped "box(".toList := unescaped_of_notMem (by decide)
  refine ⟨?_, ?_, ?_⟩
  · have hinside : Bare [] ("box(".toList ++ t) :=
      bare_append.mpr ⟨bare_of_notMem _ (by decide), (hopen.bare_iff t).mpr h.bare⟩
    exact bare_append.mpr ⟨hinside, bare_of_notMem _ (by decide)⟩
  · exact (unescaped_concat ("box(".toList ++ t) ')').mpr (by simp)
  · intro hmem
    rcases List.mem_append.mp hmem with hinside | hclose
    · rcases List.mem_append.mp hinside with hopening | hcontent
      · exact absurd hopening (by decide)
      · exact h.line hcontent
    · exact absurd hclose (by decide)

theorem getLast?_append_boxed (x t : Text) : (x ++ boxed t).getLast? = some ')' := by
  have hclose : x ++ boxed t = (x ++ ("box(".toList ++ t)) ++ [')'] :=
    (List.append_assoc _ _ _).symm
  rw [hclose, List.getLast?_concat]

end Text

open Text (Fits boxed)

namespace Region

variable {b : Buffer} {cursor : Position} {r : Region} {x t u v w pre post : Text}

/-- The inline region between two dollars, by the text before the first. -/
def between (x t : Text) : Region :=
  let start := origin.advance (x ++ ['$'])
  ⟨.inline, t, start, start.advance t⟩

theorem stands_between (x t w : Text) :
    (between x t).Stands ⟨x ++ ['$'] ++ t ++ '$' :: w⟩ (x ++ ['$']) ('$' :: w) :=
  ⟨rfl, List.suffix_append x ['$'], ⟨w, rfl⟩, rfl, rfl⟩

/-- What the inline search finds fits between the dollars that it stands between. -/
theorem exists_between (h : inlineAt? b cursor = some r) :
    ∃ x w, b = ⟨x ++ ['$'] ++ r.content ++ '$' :: w⟩ ∧ Unescaped x ∧ Fits r.content ∧
      r = between x r.content := by
  obtain ⟨pre, post, hstands, -, -⟩ := stands_of_inlineAt? h
  obtain ⟨⟨x, rfl, hopens⟩, ⟨w, rfl⟩, hcloses, hline⟩ := isGap_of_inlineAt? h hstands
  -- The gap is counted on the line, and what its line has before the dollar does not matter.
  have hbare : Bare [] r.content := by
    obtain ⟨front, y, z, rest, hgap, rfl⟩ := exists_inGap h
    exact ((Text.unescaped_dollar front).bare_iff _).mp hgap.bare
  refine ⟨x, w, ?_, hopens, ⟨hbare, ?_, hline⟩, ?_⟩
  · cases b
    exact congrArg Buffer.mk hstands.text
  · exact ((Text.unescaped_dollar x).append_iff _).mp hcloses
  · have hkind := kind_of_inlineAt? h
    have hstart := hstands.start
    have hstop := hstands.stop
    obtain ⟨kind, content, start, stop⟩ := r
    dsimp only at hkind hstart hstop
    rw [between, hkind, hstop, hstart]

theorem gapRegion_eq_between (x t : Text) :
    gapRegion (origin.advance (x ++ ['$'])).line x.lastLine t = between x t := by
  have hcolumn := Position.column_advance (x ++ ['$'])
  rw [Text.lastLine_append x (by decide : '\n' ∉ ['$'])] at hcolumn
  rw [gapRegion, ← hcolumn]
  rfl

/-- At a place between two dollars that count the inline search finds what is between them, except
at padding. -/
theorem inlineAt?_between (htext : b.text = (x ++ ['$'] ++ u) ++ (v ++ '$' :: w))
    (hx : Unescaped x) (ht : Fits t) (hcut : t = u ++ v)
    (hpadding : ¬ MeetsPadding (x ++ ['$'] ++ u) (v ++ '$' :: w)) :
    inlineAt? b (origin.advance (x ++ ['$'] ++ u)) = some (between x t) := by
  subst hcut
  obtain ⟨hu, hv⟩ := not_or.mp (List.mem_append.not.mp ht.line)
  have hbefore : b.lineBefore (origin.advance (x ++ ['$'] ++ u)) = x.lastLine ++ '$' :: u := by
    have hline : '\n' ∉ '$' :: u := by simpa using hu
    rw [Buffer.lineBefore_advance htext, List.append_assoc, List.singleton_append,
      Text.lastLine_append x hline]
  have hbehind : b.lineBehind (origin.advance (x ++ ['$'] ++ u)) = v ++ '$' :: w.firstLine := by
    have hline : '\n' ∉ v ++ ['$'] := by simpa using hv
    rw [Buffer.lineBehind_advance htext, ← List.singleton_append, ← List.append_assoc,
      Text.firstLine_append hline, List.append_assoc, List.singleton_append]
  have hdollar := Text.unescaped_dollar x.lastLine
  have hgap : InGap (b.lineBefore (origin.advance (x ++ ['$'] ++ u)))
      (b.lineBehind (origin.advance (x ++ ['$'] ++ u))) x.lastLine u v w.firstLine := by
    refine ⟨hbefore, hbehind, (Text.unescaped_lastLine x).mpr hx, ?_,
      (hdollar.bare_iff _).mpr ht.bare⟩
    have hcloses := (hdollar.append_iff (u ++ v)).mpr ht.unescaped
    rw [hbefore]
    simpa using hcloses
  have hline : (b.clamp (origin.advance (x ++ ['$'] ++ u))).line =
      (origin.advance (x ++ ['$'])).line := by
    rw [Buffer.clamp_advance htext, Position.advance_append, Position.advance_of_notMem _ hu]
    rfl
  rw [hgap.inlineAt?_eq, if_neg ((isPadding_advance_iff htext).not.mpr hpadding), hline,
    gapRegion_eq_between]

end Region

namespace Equation

open Region (inlineAt? between stands_between)

variable {b : Buffer} {cursor : Position} {r : Region} {x t w : Text}

/-- Put a number of boxes around the equation at the cursor, one after the other. -/
def boxes? : Nat → Buffer × Position → Option (Buffer × Position)
  | 0, s => some s
  | n + 1, s => ((box? s.1 s.2).map (·.apply s.1)).bind (boxes? n)

/-- Boxing writes the box over the content, and leaves the caret behind it. -/
theorem box?_between (h : inlineAt? b cursor = some (between x t))
    (hb : b = ⟨x ++ ['$'] ++ t ++ '$' :: w⟩) :
    (box? b cursor).map (·.apply b) =
      some (⟨x ++ ['$'] ++ boxed t ++ '$' :: w⟩, origin.advance (x ++ ['$'] ++ boxed t)) := by
  have hstands : (between x t).Stands b (x ++ ['$']) ('$' :: w) := hb ▸ stands_between x t w
  have hrange : b.byteRange (between x t).range =
      (Text.bytes (x ++ ['$']), Text.bytes (x ++ ['$'] ++ t)) := by
    rw [Region.range, hstands.stop_eq]
    exact Buffer.byteRange_advance hstands.text
  have hedited : b.replace (between x t).range (boxed t) =
      ⟨x ++ ['$'] ++ boxed t ++ '$' :: w⟩ :=
    Buffer.replace_of_cuts hstands.text hrange (boxed t)
  have hcaret : Edit.stop ⟨(between x t).range, boxed t⟩ =
      origin.advance (x ++ ['$'] ++ boxed t) := (Position.advance_append _ _ _).symm
  have hsplice : box? b cursor = some (.replacing ⟨(between x t).range, boxed t⟩) := by
    rw [box?, h]
    rfl
  rw [hsplice, Option.map_some, Splice.replacing, Splice.apply, Splice.edited]
  dsimp only
  rw [Edit.apply, hedited, hcaret, Buffer.clamp_advance rfl]

/-- Behind the box the inline search finds the box. -/
theorem inlineAt?_boxed (w : Text) (hx : Unescaped x) (ht : Fits t) :
    inlineAt? ⟨x ++ ['$'] ++ boxed t ++ '$' :: w⟩ (origin.advance (x ++ ['$'] ++ boxed t)) =
      some (between x (boxed t)) := by
  refine Region.inlineAt?_between rfl hx ht.boxed (List.append_nil _).symm ?_
  rw [Region.MeetsPadding, Text.getLast?_append_boxed]
  simp

/-- Any number of boxes can be put around the content of a region, and the last one is found. -/
theorem boxes?_between (hx : Unescaped x) (n : Nat) (ht : Fits t)
    (h : inlineAt? b cursor = some (between x t)) (hb : b = ⟨x ++ ['$'] ++ t ++ '$' :: w⟩) :
    ∃ caret, boxes? n (b, cursor) = some (⟨x ++ ['$'] ++ boxed^[n] t ++ '$' :: w⟩, caret) ∧
      inlineAt? ⟨x ++ ['$'] ++ boxed^[n] t ++ '$' :: w⟩ caret = some (between x (boxed^[n] t)) := by
  induction n generalizing b cursor t with
  | zero => exact ⟨cursor, by rw [hb]; rfl, hb ▸ h⟩
  | succ n ih =>
      rw [boxes?, box?_between h hb, Option.bind_some, Function.iterate_succ_apply]
      exact ih ht.boxed (inlineAt?_boxed w hx ht) rfl

/-- **Boxes nest.**  Boxing the equation at a cursor exchanges its content for a box around it and
nothing else, and at the caret the equation is found again, from the same start, with the box as
its content.  So a number of boxes can be put around the original content, one around the
other. -/
theorem boxes_nest_around_content (b : Buffer) (cursor : Position) (r : Region)
    (h : inlineAt? b cursor = some r) :
    ∃ pre post, b.text = pre ++ r.content ++ post ∧
      b.toByte r.start = pre.bytes ∧ b.toByte r.stop = (pre ++ r.content).bytes ∧
      (∃ splice edited caret, box? b cursor = some splice ∧ splice.apply b = (edited, caret) ∧
        edited.text = pre ++ boxed r.content ++ post ∧
        edited.toByte caret = (pre ++ boxed r.content).bytes ∧
        inlineAt? edited caret =
          some ⟨.inline, boxed r.content, r.start, r.start.advance (boxed r.content)⟩) ∧
      ∀ n, ∃ edited caret, boxes? n (b, cursor) = some (edited, caret) ∧
        edited.text = pre ++ boxed^[n] r.content ++ post ∧
        inlineAt? edited caret =
          some ⟨.inline, boxed^[n] r.content, r.start, r.start.advance (boxed^[n] r.content)⟩ := by
  obtain ⟨x, w, hb, hx, ht, hr⟩ := Region.exists_between h
  have hbetween : inlineAt? b cursor = some (between x r.content) := hr ▸ h
  have hstands : r.Stands b (x ++ ['$']) ('$' :: w) := by
    rw [hr, hb]
    exact stands_between x r.content w
  refine ⟨x ++ ['$'], '$' :: w, hstands.text, hstands.toByte_start, hstands.toByte_stop, ?_,
    fun n => ?_⟩
  · obtain ⟨splice, hsplice, happly⟩ := Option.map_eq_some_iff.mp (box?_between hbetween hb)
    refine ⟨splice, _, _, hsplice, happly, rfl, Buffer.toByte_advance rfl, ?_⟩
    rw [inlineAt?_boxed w hx ht, hstands.start]
    rfl
  · obtain ⟨caret, hboxes, hfound⟩ := boxes?_between hx n ht hbetween hb
    refine ⟨_, caret, hboxes, rfl, ?_⟩
    rw [hfound, hstands.start]
    rfl

/-- Two boxes around an equation that starts with an escaped dollar and ends with two
backslashes. -/
theorem two_boxes_nested :
    let b : Buffer := ⟨"\\ 𝔸$\\$x\\\\$ y".toList⟩
    let r : Region := ⟨.inline, "\\$x\\\\".toList, ⟨0, 5⟩, ⟨0, 10⟩⟩
    inlineAt? b ⟨0, 8⟩ = some r ∧ ∃ edited caret, boxes? 2 (b, ⟨0, 8⟩) = some (edited, caret) ∧
      edited.text = "\\ 𝔸$box(box(\\$x\\\\))$ y".toList ∧
      inlineAt? edited caret =
        some ⟨.inline, "box(box(\\$x\\\\))".toList, ⟨0, 5⟩, ⟨0, 20⟩⟩ := by
  intro b r
  have hfound : inlineAt? b ⟨0, 8⟩ = some r := by decide +kernel
  obtain ⟨pre, post, htext, hstart, -, -, hboxes⟩ :=
    boxes_nest_around_content b ⟨0, 8⟩ r hfound
  obtain ⟨edited, caret, hrun, hedited, hagain⟩ := hboxes 2
  have hpre : pre = "\\ 𝔸$".toList := by
    have hcut := Text.takeBytes_bytes_append pre (r.content ++ post)
    rw [← hstart, ← List.append_assoc, ← htext] at hcut
    rw [← hcut]
    decide +kernel
  subst hpre
  have hcut : "\\ 𝔸$".toList ++ r.content ++ post =
      "\\ 𝔸$".toList ++ r.content ++ "$ y".toList := htext.symm.trans (by decide +kernel)
  obtain rfl := List.append_cancel_left hcut
  exact ⟨hfound, edited, caret, hrun, by rw [hedited]; rfl, hagain⟩

end Equation

end MathTyping
