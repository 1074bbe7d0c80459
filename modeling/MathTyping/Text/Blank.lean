import MathTyping.Text.Measure

/-!
# Blank characters

Two notions of blank meet in a document: the White_Space property of Unicode,
and the five ASCII blanks.
-/

namespace MathTyping

/-- Tell whether a character has the Unicode property White_Space. -/
def isBlank (c : Char) : Bool :=
  let n := c.toNat
  (0x09 ≤ n && n ≤ 0x0D) || n == 0x20 || n == 0x85 || n == 0xA0 || n == 0x1680 ||
    (0x2000 ≤ n && n ≤ 0x200A) || n == 0x2028 || n == 0x2029 || n == 0x202F ||
    n == 0x205F || n == 0x3000

/-- Tell whether a character is an ASCII blank: space, tab, line feed, form feed
or carriage return. -/
def isAsciiBlank (c : Char) : Bool :=
  let n := c.toNat
  n == 0x20 || n == 0x09 || n == 0x0A || n == 0x0C || n == 0x0D

/-- Tell whether a character is a control character (general category Cc). -/
def isControl (c : Char) : Bool :=
  c.toNat < 0x20 || (0x7F ≤ c.toNat && c.toNat ≤ 0x9F)

namespace Text

/-- Remove blanks from the front of a text. -/
def trimLeft (t : Text) : Text := t.dropWhile isBlank

/-- Remove blanks from both ends of a text. -/
def trim (t : Text) : Text := (trimLeft (trimLeft t).reverse).reverse

/-- Split a text at runs of blanks, leaving no empty word. -/
def words (t : Text) : List Text :=
  (go t).filter (! ·.isEmpty)
where
  /-- Split at every single blank. -/
  go : Text → List Text
    | [] => [[]]
    | c :: t =>
        if isBlank c then [] :: go t
        else match go t with
          | [] => [[c]]
          | w :: ws => (c :: w) :: ws

end Text

end MathTyping
