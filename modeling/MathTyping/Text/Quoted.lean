import MathTyping.Text.Printable

/-!
# Quoted text

A quoted text stands between quotes.  The quote and the backslash are written
with a backslash, the usual control characters by a letter, and every other
character that prints no mark of its own by its code point in braces.
-/

namespace MathTyping

namespace Text

/-- Write a natural number in lower-case hexadecimal digits. -/
def hex (n : Nat) : Text := Nat.toDigits 16 n

/-- Write a character as `\u` and its code point in braces. -/
def codePointEscape (c : Char) : Text :=
  '\\' :: 'u' :: '\x7b' :: (hex c.toNat ++ ['\x7d'])

/-- Write one character inside quotes of the given kind. -/
def quoteChar (quote c : Char) : Text :=
  if c = quote ∨ c = '\\' then ['\\', c]
  else if c = '\x00' then ['\\', '0']
  else if c = '\t' then ['\\', 't']
  else if c = '\n' then ['\\', 'n']
  else if c = '\r' then ['\\', 'r']
  else if isPrintable c then [c]
  else codePointEscape c

/-- Write a text between double quotes. -/
def quoted (t : Text) : Text :=
  '"' :: (t.flatMap (quoteChar '"') ++ ['"'])

/-- Write a character between single quotes. -/
def quotedChar (c : Char) : Text :=
  '\x27' :: (quoteChar '\x27' c ++ ['\x27'])

end Text

end MathTyping
