import MathTyping.Proofs.Guarded.Region
import MathTyping.Proofs.Guarded.Popup
import MathTyping.Proofs.Region.Extent
import MathTyping.Shortcut

/-!
# Guarded jumps and shortcuts

A jump brings the cursor between the two ends of a region, cuts the content of the region
there, and looks on one side for the next stop.  It checks nothing about the region: that the
ends are in order and at boundaries is known only because the region was located in the same
document (`toByte_le_of_locate?`).  A cursor between them is at a boundary as well, wherever
it was before, so both sides can be cut out.
-/

namespace MathTyping

namespace Guarded

variable {b : Buffer} {region : Region} {cursor : Position}

/-! ### Jumps -/

/-- Delete the cursor marker at a byte offset and put the cursor there. -/
def removeMarker (b : Buffer) (byte : Nat) : Guarded Splice := do
  let p ← ofByte b byte
  pure ⟨some (.delete p cursorMarker.length), p⟩

/-- Move the cursor to a byte offset. -/
def moveTo (b : Buffer) (byte : Nat) : Guarded Splice := do
  let p ← ofByte b byte
  pure (.moveTo p)

/-- Jump to the next stop of a region, from the place of the region nearest to the cursor. -/
def jump (b : Buffer) (region : Region) (cursor : Position) (direction : JumpDirection) :
    Guarded Splice := do
  let start ← toByte b region.start
  let stop ← toByte b region.stop
  let byte ← toByte b cursor
  let offset ← clampTo byte start stop
  let content ← cut b.text start stop
  let place ← minus offset start
  let delimiter := region.kind.delimiter.bytes
  match direction with
  | .forward =>
      if offset = stop then moveTo b (stop + delimiter)
      else do
        let rest ← cut content place content.bytes
        match Text.firstAt? cursorMarker rest with
        | some marker => removeMarker b (offset + marker)
        | none =>
            match Text.firstByte? BracketKind.closes rest with
            | some closer => moveTo b (offset + closer + 1)
            | none => moveTo b stop
  | .backward =>
      -- The subtraction stops at zero.
      if offset = start then moveTo b (start - delimiter)
      else do
        let head ← cut content 0 place
        match Text.lastAt? cursorMarker head with
        | some marker => removeMarker b (start + marker)
        | none =>
            match Text.lastByte? BracketKind.opens head with
            | some opener => moveTo b (start + opener)
            | none => moveTo b start

theorem removeMarker_eq (b : Buffer) (byte : Nat) :
    removeMarker b byte = pure (Equation.removeMarker b byte) := by
  rw [removeMarker, ofByte_eq, pure_bind]
  rfl

theorem moveTo_eq (b : Buffer) (byte : Nat) : moveTo b byte = pure (.moveTo (b.ofByte byte)) := by
  rw [moveTo, ofByte_eq, pure_bind]

/-- The ends of a located region are in order. -/
theorem toByte_le_of_locate? (h : Region.locate? b cursor = some region) :
    b.toByte region.start ≤ b.toByte region.stop := by
  obtain ⟨pre, post, hstands, -, -⟩ := Region.stands_of_locate? h
  rw [hstands.toByte_start, hstands.toByte_stop, Text.bytes_append]
  exact Nat.le_add_right _ _

/-- Both sides of the cursor can be cut out of a region whose ends are in order. -/
theorem jump_eq (cursor : Position) (direction : JumpDirection)
    (h : b.toByte region.start ≤ b.toByte region.stop) :
    jump b region cursor direction = pure (Equation.jump b region cursor direction) := by
  have hstart := isBoundary_toByte b region.start
  have hstop := isBoundary_toByte b region.stop
  unfold Equation.jump
  rw [jump, toByte_eq, pure_bind, toByte_eq, pure_bind, toByte_eq, pure_bind,
    clampTo_of_le h, pure_bind, cut_of_isBoundary h hstart hstop, pure_bind]
  dsimp only
  generalize hoffset : max (b.toByte region.start)
    (min (b.toByte cursor) (b.toByte region.stop)) = offset
  -- Between the ends the offset is that of the cursor, else that of one of the ends.
  have hplace : b.text.IsBoundary offset := by
    have hcursor := isBoundary_toByte b cursor
    rcases (show offset = b.toByte region.start ∨ offset = b.toByte cursor ∨
        offset = b.toByte region.stop by omega) with heq | heq | heq <;> rwa [heq]
  have hle : b.toByte region.start ≤ offset := by omega
  have hle' : offset ≤ b.toByte region.stop := by omega
  obtain ⟨pre, head, rest, post, htext, hpre, hhead, hrest⟩ :=
    Text.exists_parts hstart hplace hstop hle hle'
  have hcontent : b.text.slice (b.toByte region.start) (b.toByte region.stop) = head ++ rest := by
    rw [htext, hpre, hrest, Text.slice_append]
  have hlocal : offset - b.toByte region.start = Text.bytes head := by
    rw [hhead, hpre, Text.bytes_append, Nat.add_sub_cancel_left]
  -- Both sides are cut out of the content, and the same parts stand in the document.
  rw [minus_of_le hle, pure_bind, hcontent, hlocal, cut_back, cut_front, pure_bind, pure_bind]
  cases direction with
  | forward =>
      have hslice : b.text.slice offset (b.toByte region.stop) = rest := by
        rw [htext, hhead, hrest, ← List.append_assoc, Text.slice_append]
      dsimp only
      rw [Equation.jumpForward, hslice, Text.firstAt?]
      split
      · exact moveTo_eq _ _
      · cases Text.cut? cursorMarker rest with
        | some parts => exact removeMarker_eq _ _
        | none =>
            dsimp only [Option.map_none]
            cases Text.firstByte? BracketKind.closes rest <;> exact moveTo_eq _ _
  | backward =>
      have hslice : b.text.slice (b.toByte region.start) offset = head := by
        rw [htext, hhead, hpre, ← List.append_assoc, List.append_assoc _ rest, Text.slice_append]
      dsimp only
      rw [Equation.jumpBackward, hslice, Text.lastAt?]
      split
      · exact moveTo_eq _ _
      · cases Text.cutLast? cursorMarker head with
        | some parts => exact removeMarker_eq _ _
        | none =>
            dsimp only [Option.map_none]
            cases Text.lastByte? BracketKind.opens head <;> exact moveTo_eq _ _

/-- A region whose ends are out of order leaves no place for the cursor. -/
example : jump ⟨"$x$".toList⟩ ⟨.inline, [], ⟨0, 2⟩, ⟨0, 1⟩⟩ ⟨0, 0⟩ .forward = throw .bounds := by
  decide +kernel

/-! ### Commands -/

/-- Put a box around the inline equation at the cursor. -/
def box? (b : Buffer) (cursor : Position) : Guarded (Option Splice) := do
  let some region ← inlineAt? b cursor | pure none
  some <$> replacing ⟨region.range, "box(".toList ++ region.content ++ [')']⟩

/-- Select the inline equation at the cursor, or else the display equation. -/
def select? (b : Buffer) (cursor : Position) : Guarded (Option Range) := do
  match ← inlineAt? b cursor with
  | some region => pure (some region.range)
  | none => do
      let display ← displayAt? b cursor
      pure (display.map (·.range))

theorem box?_eq (b : Buffer) (cursor : Position) :
    box? b cursor = pure (Equation.box? b cursor) := by
  rw [box?, inlineAt?_eq, pure_bind, Equation.box?]
  cases Region.inlineAt? b cursor with
  | none => rfl
  | some region =>
      dsimp only
      rw [replacing_eq, map_pure]
      rfl

theorem select?_eq (b : Buffer) (cursor : Position) :
    select? b cursor = pure (Equation.select? b cursor) := by
  rw [select?, inlineAt?_eq, pure_bind, displayAt?_eq, Equation.select?]
  cases Region.inlineAt? b cursor <;> rfl

/-! ### Shortcuts -/

/-- Find the shortcut of a typed character, written into four bytes. -/
def findShortcut? (shortcuts : Shortcuts) (c : Char) : Guarded (Option Shortcut) := do
  let key ← encode c 4
  pure ((List.find? (fun s => s.1 == key) shortcuts).map (·.2))

/-- Replace a selection by the template around its text. -/
def applyShortcut (s : Shortcut) (selection : Range) (selected : Text) : Guarded Splice := do
  let edit : Edit := ⟨selection, s.fill selected⟩
  let stop ← advance edit.range.start edit.text
  pure ⟨some edit, stop.shift s.offset⟩

theorem findShortcut?_eq (shortcuts : Shortcuts) (c : Char) :
    findShortcut? shortcuts c = pure (shortcuts.find? c) := by
  rw [findShortcut?, encode_four, pure_bind]
  rfl

theorem applyShortcut_eq (s : Shortcut) (selection : Range) (selected : Text) :
    applyShortcut s selection selected = pure (s.apply selection selected) := by
  rw [applyShortcut]
  dsimp only
  rw [advance_eq, pure_bind]
  rfl

end Guarded

end MathTyping
