/-!
# Text and its lengths

A text is the list of its characters.  Two hosts measure it differently: one
counts UTF-8 bytes, the other UTF-16 code units.  Both counts are sums over the
characters, and a cut at a byte count never splits a character.
-/

namespace MathTyping

/-- A text, as the list of its characters. -/
abbrev Text := List Char

/-- Count the UTF-16 code units of one character. -/
def charUnits (c : Char) : Nat := if c.toNat < 0x10000 then 1 else 2

namespace Text

/-- Count the UTF-8 bytes of a text. -/
def bytes : Text → Nat
  | [] => 0
  | c :: t => c.utf8Size + bytes t

/-- Count the UTF-16 code units of a text. -/
def units : Text → Nat
  | [] => 0
  | c :: t => charUnits c + units t

/-- Keep the longest beginning of at most `n` bytes. -/
def takeBytes : Nat → Text → Text
  | _, [] => []
  | n, c :: t => if c.utf8Size ≤ n then c :: takeBytes (n - c.utf8Size) t else []

/-- Drop the longest beginning of at most `n` bytes. -/
def dropBytes : Nat → Text → Text
  | _, [] => []
  | n, c :: t => if c.utf8Size ≤ n then dropBytes (n - c.utf8Size) t else c :: t

/-- Cut out the text between two byte offsets. -/
def slice (t : Text) (start stop : Nat) : Text :=
  takeBytes (stop - start) (dropBytes start t)

theorem charUnits_pos (c : Char) : 0 < charUnits c := by
  unfold charUnits
  split <;> omega

@[simp] theorem bytes_nil : bytes [] = 0 := rfl

@[simp] theorem bytes_cons (c : Char) (t : Text) : bytes (c :: t) = c.utf8Size + bytes t := rfl

@[simp] theorem units_nil : units [] = 0 := rfl

@[simp] theorem units_cons (c : Char) (t : Text) : units (c :: t) = charUnits c + units t := rfl

@[simp] theorem bytes_append (s t : Text) : bytes (s ++ t) = bytes s + bytes t := by
  induction s with
  | nil => simp
  | cons c s ih => simp [ih, Nat.add_assoc]

@[simp] theorem units_append (s t : Text) : units (s ++ t) = units s + units t := by
  induction s with
  | nil => simp
  | cons c s ih => simp [ih, Nat.add_assoc]

theorem takeBytes_append_dropBytes (n : Nat) (t : Text) :
    takeBytes n t ++ dropBytes n t = t := by
  induction t generalizing n with
  | nil => rfl
  | cons c t ih =>
      by_cases h : c.utf8Size ≤ n
      · simp [takeBytes, dropBytes, h, ih]
      · simp [takeBytes, dropBytes, h]

theorem bytes_takeBytes_le (n : Nat) (t : Text) : bytes (takeBytes n t) ≤ n := by
  induction t generalizing n with
  | nil => simp [takeBytes]
  | cons c t ih =>
      by_cases h : c.utf8Size ≤ n
      · have := ih (n - c.utf8Size)
        simp [takeBytes, h]
        omega
      · simp [takeBytes, h]

theorem takeBytes_bytes_append (s t : Text) : takeBytes (bytes s) (s ++ t) = s := by
  induction s with
  | nil =>
      cases t with
      | nil => rfl
      | cons c t =>
          have := c.utf8Size_pos
          simp [takeBytes]
          omega
  | cons c s ih => simp [takeBytes, ih]

theorem dropBytes_bytes_append (s t : Text) : dropBytes (bytes s) (s ++ t) = t := by
  induction s with
  | nil =>
      cases t with
      | nil => rfl
      | cons c t =>
          have := c.utf8Size_pos
          simp [dropBytes]
          omega
  | cons c s ih => simp [dropBytes, ih]

end Text

end MathTyping
