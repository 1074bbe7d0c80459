import MathTyping.Text.Measure

/-!
# Columns of a line

A column counts the UTF-16 code units before it; a byte offset counts UTF-8
bytes.  A column inside a surrogate pair is read as the end of the pair, and a
byte offset inside a character as the start of the character.
-/

namespace MathTyping

namespace Text

/-- Count the bytes before a column, or nothing when the line is shorter. -/
def columnToByte? : Text → Nat → Option Nat
  | _, 0 => some 0
  | [], _ + 1 => none
  | c :: t, n + 1 => (columnToByte? t (n + 1 - charUnits c)).map (c.utf8Size + ·)

/-- Count the bytes before a column, reading columns past the end as the end. -/
def columnToByte (line : Text) (column : Nat) : Nat :=
  (columnToByte? line column).getD line.bytes

/-- Count the code units before a byte offset, rounding down to a character. -/
def byteToColumn (line : Text) (byte : Nat) : Nat :=
  (takeBytes byte line).units

theorem columnToByte?_zero (line : Text) : columnToByte? line 0 = some 0 := by
  cases line <;> rfl

theorem columnToByte?_eq_none_iff (line : Text) (column : Nat) :
    columnToByte? line column = none ↔ line.units < column := by
  induction line generalizing column with
  | nil => cases column <;> simp [columnToByte?]
  | cons c t ih =>
      cases column with
      | zero => simp [columnToByte?]
      | succ n =>
          have := charUnits_pos c
          simp [columnToByte?, ih]
          omega

theorem columnToByte_le (line : Text) (column : Nat) :
    columnToByte line column ≤ line.bytes := by
  unfold columnToByte
  induction line generalizing column with
  | nil => cases column <;> simp [columnToByte?]
  | cons c t ih =>
      cases column with
      | zero => simp [columnToByte?]
      | succ n =>
          have := ih (n + 1 - charUnits c)
          cases h : columnToByte? t (n + 1 - charUnits c) with
          | none => simp [columnToByte?, h]
          | some b => simp [columnToByte?, h] at this ⊢; omega

end Text

end MathTyping
