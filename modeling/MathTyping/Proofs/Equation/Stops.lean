import MathTyping.Proofs.Region.Extent
import MathTyping.Proofs.Text.Occurrences

/-!
# The stops of a jump

A jump reads the content of a region on one side of the cursor and takes the first thing that it
finds there: a marker, which it deletes, or a bracket, or the end of the content.  Only from the
end it leaves the region.

`Stop` says which stop that is, on the two parts `y` and `z` into which the cursor cuts the
content: `u` is before the place of the stop, `v` is behind it, and `m` is what is deleted
there.  The offsets of the stops are counted from the cursor, from the start of the region or from
its end; `jump_cases` brings them to one form, and all else is read off the parts.
-/

namespace MathTyping

open Position (origin Names)

namespace BracketKind

theorem closes_iff {c : Char} : closes c = true ↔ c = ')' ∨ c = ']' ∨ c = '\x7d' := by
  constructor
  · intro h
    by_contra hnone
    simp only [not_or] at hnone
    by_cases hopens : c = '(' ∨ c = '[' ∨ c = '\x7b'
    · rcases hopens with rfl | rfl | rfl <;> contradiction
    · simp only [not_or] at hopens
      simp [closes, ofChar?, hnone, hopens] at h
  · rintro (rfl | rfl | rfl) <;> rfl

end BracketKind

namespace Equation

open Text (FirstAt LastAt)

variable {b : Buffer} {r : Region} {cursor : Position} {d : JumpDirection}
  {pre post y z u m v : Text}

/-- The stop of a jump from between two parts of a content: the text before its place, what is
deleted there, and the text behind. -/
inductive Stop (y z : Text) : JumpDirection → (u m v : Text) → Prop
  | markerAhead {front back : Text} (h : FirstAt cursorMarker z front back) :
      Stop y z .forward (y ++ front) cursorMarker back
  | bracketAhead {front back : Text} {c : Char} (hmarker : ¬ cursorMarker <:+: z)
      (hz : z = front ++ c :: back) (hcloses : BracketKind.closes c = true)
      (hfront : ∀ e ∈ front, BracketKind.closes e = false) :
      Stop y z .forward (y ++ front ++ [c]) [] back
  | endAhead (hmarker : ¬ cursorMarker <:+: z) (hne : z ≠ [])
      (hnone : ∀ e ∈ z, BracketKind.closes e = false) : Stop y z .forward (y ++ z) [] []
  | markerBehind {front back : Text} (h : LastAt cursorMarker y front back) :
      Stop y z .backward front cursorMarker (back ++ z)
  | bracketBehind {front back : Text} {c : Char} (hmarker : ¬ cursorMarker <:+: y)
      (hy : y = front ++ c :: back) (hopens : BracketKind.opens c = true)
      (hback : ∀ e ∈ back, BracketKind.opens e = false) :
      Stop y z .backward front [] (c :: back ++ z)
  | startBehind (hmarker : ¬ cursorMarker <:+: y) (hne : y ≠ [])
      (hnone : ∀ e ∈ y, BracketKind.opens e = false) : Stop y z .backward [] [] (y ++ z)

namespace Stop

theorem parts_eq (h : Stop y z d u m v) : y ++ z = u ++ m ++ v := by
  cases h with
  | markerAhead h => rw [h.1]; simp
  | bracketAhead _ hz => rw [hz]; simp
  | endAhead => simp
  | markerBehind h => rw [h.1]; simp
  | bracketBehind _ hy => rw [hy]; simp
  | startBehind => simp

/-- Nothing but a marker is deleted. -/
theorem deleted (h : Stop y z d u m v) : m = [] ∨ m = cursorMarker := by
  cases h <;> simp

end Stop

/-- A jump leaves the region from the end of the content on its side. -/
def AtEnd (y z : Text) : JumpDirection → Prop
  | .forward => z = []
  | .backward => y = []

/-- The edit that deletes a text at a position, if there is something to delete. -/
def deletion? (p : Position) (m : Text) : Option Edit :=
  if m = [] then none else some (.delete p m.units)

theorem jumpForward_cases (htext : b.text = pre ++ (y ++ z) ++ post) {delimiter : Text}
    (hpost : delimiter <+: post) :
    (z = [] ∧ jumpForward b (pre ++ y).bytes (pre ++ (y ++ z)).bytes delimiter.bytes =
      .moveTo (origin.advance (pre ++ (y ++ z) ++ delimiter))) ∨
    ∃ u m v, Stop y z .forward u m v ∧
      jumpForward b (pre ++ y).bytes (pre ++ (y ++ z)).bytes delimiter.bytes =
        ⟨deletion? (origin.advance (pre ++ u)) m, origin.advance (pre ++ u)⟩ := by
  obtain ⟨after, rfl⟩ := hpost
  have hslice : b.text.slice (pre ++ y).bytes (pre ++ (y ++ z)).bytes = z := by
    rw [htext, ← List.append_assoc pre y z, Text.slice_append]
  have hplace : ∀ u w, z = u ++ w →
      b.ofByte ((pre ++ y).bytes + u.bytes) = origin.advance (pre ++ (y ++ u)) := by
    rintro u w rfl
    rw [← Text.bytes_append, List.append_assoc]
    exact Buffer.ofByte_bytes (by rw [htext]; simp only [List.append_assoc]; rfl)
  rw [jumpForward, hslice]
  by_cases hz : z = []
  · refine .inl ⟨hz, ?_⟩
    rw [if_pos (by rw [hz, List.append_nil]), ← Text.bytes_append]
    rw [Buffer.ofByte_bytes (by rw [htext]; simp only [List.append_assoc]; rfl)]
  · right
    have hne : (pre ++ y).bytes ≠ (pre ++ (y ++ z)).bytes := by
      have hpos := Text.bytes_pos hz
      simp only [Text.bytes_append]
      omega
    rw [if_neg hne]
    cases hcut : Text.cut? cursorMarker z with
    | some parts =>
        obtain ⟨front, back⟩ := parts
        have hfirst := Text.cut?_eq_some_iff.mp hcut
        refine ⟨_, _, _, .markerAhead hfirst, ?_⟩
        dsimp only
        rw [removeMarker, hplace front (cursorMarker ++ back) (by rw [hfirst.1]; simp)]
        rfl
    | none =>
        have hmarker := Text.cut?_eq_none_iff.mp hcut
        dsimp only
        cases hbyte : Text.firstByte? BracketKind.closes z with
        | some n =>
            obtain ⟨front, c, back, hsplit, hcloses, rfl, hfront⟩ := Text.firstByte?_eq_some hbyte
            refine ⟨_, _, _, .bracketAhead hmarker hsplit hcloses hfront, ?_⟩
            have hone : Text.bytes [c] = 1 := by
              rcases BracketKind.closes_iff.mp hcloses with rfl | rfl | rfl <;> rfl
            have hfound := hplace (front ++ [c]) back (by rw [hsplit]; simp)
            rw [Text.bytes_append front [c], hone, ← Nat.add_assoc] at hfound
            dsimp only
            rw [hfound, List.append_assoc]
            rfl
        | none =>
            refine ⟨_, _, _, .endAhead hmarker hz (Text.firstByte?_eq_none_iff.mp hbyte), ?_⟩
            have hend := hplace z [] (List.append_nil z).symm
            rw [← Text.bytes_append, List.append_assoc] at hend
            dsimp only
            rw [hend]
            rfl

theorem jumpBackward_cases (htext : b.text = pre ++ (y ++ z) ++ post) {before delimiter : Text}
    (hpre : pre = before ++ delimiter) :
    (y = [] ∧ jumpBackward b pre.bytes (pre ++ y).bytes delimiter.bytes =
      .moveTo (origin.advance before)) ∨
    ∃ u m v, Stop y z .backward u m v ∧
      jumpBackward b pre.bytes (pre ++ y).bytes delimiter.bytes =
        ⟨deletion? (origin.advance (pre ++ u)) m, origin.advance (pre ++ u)⟩ := by
  have hslice : b.text.slice pre.bytes (pre ++ y).bytes = y := by
    rw [htext, ← List.append_assoc pre y z, List.append_assoc _ z, Text.slice_append]
  have hplace : ∀ u w, y = u ++ w →
      b.ofByte (pre.bytes + u.bytes) = origin.advance (pre ++ u) := by
    rintro u w rfl
    rw [← Text.bytes_append]
    exact Buffer.ofByte_bytes (by rw [htext]; simp only [List.append_assoc]; rfl)
  rw [jumpBackward, hslice]
  by_cases hy : y = []
  · refine .inl ⟨hy, ?_⟩
    rw [if_pos (by rw [hy, List.append_nil])]
    have hless : pre.bytes - delimiter.bytes = before.bytes := by
      rw [hpre, Text.bytes_append, Nat.add_sub_cancel]
    rw [hless]
    rw [Buffer.ofByte_bytes (by rw [htext, hpre]; simp only [List.append_assoc]; rfl)]
  · right
    have hne : (pre ++ y).bytes ≠ pre.bytes := by
      have hpos := Text.bytes_pos hy
      rw [Text.bytes_append]
      omega
    rw [if_neg hne]
    cases hcut : Text.cutLast? cursorMarker y with
    | some parts =>
        obtain ⟨front, back⟩ := parts
        have hlast := Text.cutLast?_eq_some_iff.mp hcut
        refine ⟨_, _, _, .markerBehind hlast, ?_⟩
        dsimp only
        rw [removeMarker, hplace front (cursorMarker ++ back) (by rw [hlast.1]; simp)]
        rfl
    | none =>
        have hmarker := Text.cutLast?_eq_none_iff.mp hcut
        dsimp only
        cases hbyte : Text.lastByte? BracketKind.opens y with
        | some n =>
            obtain ⟨front, c, back, hsplit, hopens, rfl, hback⟩ := Text.lastByte?_eq_some hbyte
            refine ⟨_, _, _, .bracketBehind hmarker hsplit hopens hback, ?_⟩
            dsimp only
            rw [hplace front (c :: back) hsplit]
            rfl
        | none =>
            refine ⟨_, _, _, .startBehind hmarker hy (Text.lastByte?_eq_none_iff.mp hbyte), ?_⟩
            have hstart := hplace [] y rfl
            rw [Text.bytes_nil, Nat.add_zero] at hstart
            dsimp only
            rw [hstart]
            rfl

/-- The text before the place to which a jump leaves a region that stands behind `pre`. -/
def Leaves (r : Region) (pre : Text) : JumpDirection → (before : Text) → Prop
  | .forward, before => before = pre ++ r.content ++ r.kind.delimiter
  | .backward, before => pre = before ++ r.kind.delimiter

/-- A jump from between two parts of a content leaves the region or goes to a stop. -/
theorem jump_cases (h : r.Stands b pre post) (hcontent : r.content = y ++ z)
    (hcursor : b.toByte cursor = (pre ++ y).bytes) (d : JumpDirection) :
    (AtEnd y z d ∧ ∃ before after, b.text = before ++ after ∧ Leaves r pre d before ∧
      jump b r cursor d = .moveTo (origin.advance before)) ∨
    ∃ u m v, Stop y z d u m v ∧
      jump b r cursor d = ⟨deletion? (origin.advance (pre ++ u)) m, origin.advance (pre ++ u)⟩ := by
  have htext := h.text
  rw [hcontent] at htext
  have hoffset : max pre.bytes (min (pre ++ y).bytes (pre ++ (y ++ z)).bytes) =
      (pre ++ y).bytes := by
    simp only [Text.bytes_append]
    omega
  unfold jump
  rw [h.toByte_start, h.toByte_stop, hcursor, hcontent]
  dsimp only
  rw [hoffset]
  cases d with
  | forward =>
      obtain ⟨after, hafter⟩ := h.closing
      refine (jumpForward_cases htext h.closing).imp_left fun ⟨hz, hjump⟩ =>
        ⟨hz, _, after, ?_, ?_, hjump⟩
      · rw [htext, ← hafter]
        simp
      · rw [Leaves, hcontent]
  | backward =>
      obtain ⟨before, hbefore⟩ := h.opening
      refine (jumpBackward_cases htext hbefore.symm).imp_left fun ⟨hy, hjump⟩ =>
        ⟨hy, before, r.kind.delimiter ++ ((y ++ z) ++ post), ?_, hbefore.symm, hjump⟩
      rw [htext, ← hbefore]
      simp

/-- What is deleted at a stop leaves the text before and behind it, and the cursor between. -/
theorem apply_stop (htext : b.text = pre ++ (u ++ m ++ v) ++ post)
    (hm : m = [] ∨ m = cursorMarker) :
    Splice.apply ⟨deletion? (origin.advance (pre ++ u)) m, origin.advance (pre ++ u)⟩ b =
      (⟨pre ++ (u ++ v) ++ post⟩, origin.advance (pre ++ u)) := by
  have hcaret : Buffer.clamp ⟨pre ++ (u ++ v) ++ post⟩ (origin.advance (pre ++ u)) =
      origin.advance (pre ++ u) := Buffer.clamp_advance (by simp; rfl)
  have hedited : Splice.edited ⟨deletion? (origin.advance (pre ++ u)) m,
      origin.advance (pre ++ u)⟩ b = ⟨pre ++ (u ++ v) ++ post⟩ := by
    rcases hm with rfl | rfl
    · have hsame : b = ⟨pre ++ (u ++ v) ++ post⟩ := by
        cases b
        simpa using htext
      exact hsame
    · have hmarker : b.text = (pre ++ u) ++ cursorMarker ++ (v ++ post) := by simp [htext]
      have hreplace := Buffer.replace_right hmarker (by decide) (Nat.zero_le _) []
      rw [Position.right_zero, Text.before_zero] at hreplace
      show b.replace ⟨origin.advance (pre ++ u),
        (origin.advance (pre ++ u)).right (Text.units cursorMarker)⟩ [] = _
      rw [hreplace]
      simp
  rw [Splice.apply, hedited, hcaret]

/-- The cursor cuts the content of the region around it. -/
theorem exists_cut_of_locate? (h : Region.locate? b cursor = some r) :
    ∃ pre post y z, r.Stands b pre post ∧ r.content = y ++ z ∧
      Names origin (b.clamp cursor) (pre ++ y) ∧ b.toByte cursor = (pre ++ y).bytes := by
  obtain ⟨pre, post, hstands, hinside⟩ := Region.stands_of_locate? h
  obtain ⟨y, z, hcontent, hnames⟩ :=
    hstands.exists_cut ((hstands.contains_clamp_iff cursor).mpr hinside)
  rw [Buffer.clamp_clamp] at hnames
  have htext : b.text = (pre ++ y) ++ (z ++ post) := by
    rw [hstands.text, hcontent]
    simp
  have hbyte := Buffer.toByte_of_names htext hnames
  rw [Buffer.toByte_clamp] at hbyte
  exact ⟨pre, post, y, z, hstands, hcontent, hnames, hbyte⟩

end Equation

end MathTyping
