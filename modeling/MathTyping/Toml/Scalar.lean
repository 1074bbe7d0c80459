import MathTyping.Json.Reader

/-!
# Scalar values of TOML

Strings in four forms, numbers with underscores between digits, and dates.  A
date must exist in the calendar; it is kept as a record of its own, which no
setting takes.
-/

namespace MathTyping

namespace Toml

/-- Tell whether a character may stand for itself within a line: in a comment or in a
string. -/
def isLineChar (c : Char) : Bool := c == '\t' || (0x20 ≤ c.toNat && c.toNat != 0x7F)

/-- Tell whether a character is a blank within a line. -/
def isInlineBlank (c : Char) : Bool := c == ' ' || c == '\t'

/-- Read a line ending. -/
def readNewline? : Text → Option Text
  | '\n' :: r => some r
  | '\r' :: '\n' :: r => some r
  | _ => none

/-- Read a number of hexadecimal digits as a character. -/
def readCodePoint? : Nat → Nat → Text → Option (Char × Text)
  | 0, n, r =>
      if n < 0xD800 ∨ (0xE000 ≤ n ∧ n < 0x110000) then some (Char.ofNat n, r) else none
  | _ + 1, _, [] => none
  | count + 1, n, c :: r => do
      let d ← Json.hexDigit? c
      readCodePoint? count (n * 16 + d) r

/-- Read what follows a backslash. -/
def readEscape? : Text → Option (Char × Text)
  | 'b' :: r => some ('\x08', r)
  | 't' :: r => some ('\t', r)
  | 'n' :: r => some ('\n', r)
  | 'f' :: r => some ('\x0c', r)
  | 'r' :: r => some ('\r', r)
  | '"' :: r => some ('"', r)
  | '\\' :: r => some ('\\', r)
  | 'u' :: r => readCodePoint? 4 0 r
  | 'U' :: r => readCodePoint? 8 0 r
  | _ => none

/-- Read a string of one line after its opening quote. -/
def readBasic? : Nat → Text → Option (Text × Text)
  | 0, _ => none
  | _, [] => none
  | _ + 1, '"' :: r => some ([], r)
  | fuel + 1, '\\' :: r => do
      let (c, r) ← readEscape? r
      let (t, r) ← readBasic? fuel r
      pure (c :: t, r)
  | fuel + 1, c :: r =>
      if isLineChar c then do
        let (t, r) ← readBasic? fuel r
        pure (c :: t, r)
      else none

/-- Read a literal string of one line after its opening quote. -/
def readLiteral? : Text → Option (Text × Text)
  | [] => none
  | c :: r =>
      if c = '\x27' then some ([], r)
      else if isLineChar c then (readLiteral? r).map fun (t, r) => (c :: t, r)
      else none

/-- Skip the blanks and line endings after a backslash that ends a line. -/
def skipLines : Nat → Text → Text
  | 0, t => t
  | fuel + 1, t =>
      match readNewline? t with
      | some r => skipLines fuel r
      | none =>
          match t with
          | c :: r => if isInlineBlank c then skipLines fuel r else t
          | [] => []

/-- Read the quotes that end a string of several lines: up to two of them belong to
the string. -/
def readClosing? (quote : Char) (t : Text) : Option (Text × Text) :=
  let quotes := t.takeWhile (· == quote)
  let n := min quotes.length 5
  if 3 ≤ n then some (List.replicate (n - 3) quote, t.drop n) else none

/-- Read a string of several lines after its opening quotes. -/
def readMultiBasic? : Nat → Text → Option (Text × Text)
  | 0, _ => none
  | _, [] => none
  | fuel + 1, '\\' :: r =>
      -- A backslash at the end of a line joins it to the next text.
      match readNewline? (r.dropWhile isInlineBlank) with
      | some rest => readMultiBasic? fuel (skipLines (rest.length + 1) rest)
      | none => do
          let (c, r) ← readEscape? r
          let (t, r) ← readMultiBasic? fuel r
          pure (c :: t, r)
  | fuel + 1, c :: r =>
      match readClosing? '"' (c :: r) with
      | some closing => some closing
      | none =>
          match readNewline? (c :: r) with
          | some rest => (readMultiBasic? fuel rest).map fun (t, r) => ('\n' :: t, r)
          | none =>
              if isLineChar c then (readMultiBasic? fuel r).map fun (t, r) => (c :: t, r)
              else none

/-- Read a literal string of several lines after its opening quotes. -/
def readMultiLiteral? : Nat → Text → Option (Text × Text)
  | 0, _ => none
  | _, [] => none
  | fuel + 1, c :: r =>
      match readClosing? '\x27' (c :: r) with
      | some closing => some closing
      | none =>
          match readNewline? (c :: r) with
          | some rest => (readMultiLiteral? fuel rest).map fun (t, r) => ('\n' :: t, r)
          | none =>
              if isLineChar c then (readMultiLiteral? fuel r).map fun (t, r) => (c :: t, r)
              else none

/-- Drop a line ending right after the opening quotes. -/
def dropFirstNewline (t : Text) : Text := (readNewline? t).getD t

/-- Read a string in any of its four forms. -/
def readString? (t : Text) : Option (Text × Text) :=
  let fuel := t.length + 1
  match t with
  | '"' :: '"' :: '"' :: r => readMultiBasic? fuel (dropFirstNewline r)
  | '"' :: r => readBasic? fuel r
  | '\x27' :: '\x27' :: '\x27' :: r => readMultiLiteral? fuel (dropFirstNewline r)
  | '\x27' :: r => readLiteral? r
  | _ => none

/-- Read digits of a class, with single underscores between them, as their list. -/
def digitRun? (digit : Char → Bool) : Text → Option Text
  | [] => none
  | [c] => if digit c then some [c] else none
  | c :: '_' :: r => if digit c then (digitRun? digit r).map (c :: ·) else none
  | c :: r => if digit c then (digitRun? digit r).map (c :: ·) else none

/-- The value of digits in a base. -/
def valueIn (base : Nat) (ds : Text) : Nat :=
  ds.foldl (fun n c => n * base + (Json.hexDigit? c).getD 0) 0

/-- Remove a sign from the front. -/
def splitSign : Text → Bool × Text
  | '-' :: r => (true, r)
  | '+' :: r => (false, r)
  | r => (false, r)

/-- Read a whole text as a decimal integer part without leading zeros. -/
def wholePart? (t : Text) : Option Text :=
  match digitRun? Char.isDigit t with
  | some ('0' :: _ :: _) => none
  | other => other

/-- Keep an integer that fits into 64 bits. -/
def fitting? (n : Int) : Option Json :=
  if -Int.pow 2 63 ≤ n ∧ n < Int.pow 2 63 then some (.integer n) else none

/-- Read a whole text as an integer. -/
def readInteger? (t : Text) : Option Json :=
  match t with
  | '0' :: 'x' :: r =>
      (digitRun? (fun c => (Json.hexDigit? c).isSome) r).bind fun ds => fitting? (valueIn 16 ds)
  | '0' :: 'o' :: r =>
      (digitRun? (fun c => '0' ≤ c && c ≤ '7') r).bind fun ds => fitting? (valueIn 8 ds)
  | '0' :: 'b' :: r =>
      (digitRun? (fun c => c == '0' || c == '1') r).bind fun ds => fitting? (valueIn 2 ds)
  | _ =>
      let (negative, r) := splitSign t
      (wholePart? r).bind fun ds =>
        let n : Int := valueIn 10 ds
        fitting? (if negative then -n else n)

/-- Read a whole text as a number with a fraction or an exponent. -/
def readReal? (t : Text) : Option Json :=
  let (negative, r) := splitSign t
  if r = "inf".toList ∨ r = "nan".toList then some (.decimal ⟨negative, 0, 0⟩)
  else do
    let (mantissa, exponent) := r.span fun c => c != 'e' && c != 'E'
    let (whole, fraction) := mantissa.span (· != '.')
    let ds ← wholePart? whole
    let fs ← match fraction with
      | [] => some []
      | _ :: f => digitRun? Char.isDigit f
    let (lower, es) := splitSign exponent.tail
    let es ← match exponent with
      | [] => some []
      | _ => digitRun? Char.isDigit es
    if fraction.isEmpty && exponent.isEmpty then none
    else
      let e : Int := valueIn 10 es
      let d : Decimal := ⟨negative, valueIn 10 (ds ++ fs), (if lower then -e else e) - fs.length⟩
      -- A number may fall below the range of doubles, but not rise above it.
      if !negative && d.overflows then none else some (.decimal d)

/-- Read a fixed count of decimal digits as a number between two bounds. -/
def readDigits? (count low high : Nat) (t : Text) : Option (Nat × Text) :=
  let ds := t.take count
  let n := valueIn 10 ds
  if ds.length = count ∧ ds.all Char.isDigit ∧ low ≤ n ∧ n ≤ high then some (n, t.drop count)
  else none

/-- The number of days of a month. -/
def daysIn (year month : Nat) : Nat :=
  if month = 2 then
    if year % 4 = 0 ∧ (year % 100 ≠ 0 ∨ year % 400 = 0) then 29 else 28
  else if month = 4 ∨ month = 6 ∨ month = 9 ∨ month = 11 then 30
  else 31

/-- Skip a day of the calendar. -/
def skipDay? (t : Text) : Option Text := do
  let (year, t) ← readDigits? 4 0 9999 t
  let t ← Text.dropPrefix? ['-'] t
  let (month, t) ← readDigits? 2 1 12 t
  let t ← Text.dropPrefix? ['-'] t
  let (_, t) ← readDigits? 2 1 (daysIn year month) t
  pure t

/-- Skip a time of day, perhaps with a fraction of the second; a minute may have a
leap second. -/
def skipTime? (t : Text) : Option Text := do
  let (_, t) ← readDigits? 2 0 23 t
  let t ← Text.dropPrefix? [':'] t
  let (_, t) ← readDigits? 2 0 59 t
  let t ← Text.dropPrefix? [':'] t
  let (_, t) ← readDigits? 2 0 60 t
  match t with
  | '.' :: c :: r => if c.isDigit then pure (r.dropWhile Char.isDigit) else none
  | t => pure t

/-- Skip the offset from universal time, if there is one. -/
def skipOffset? : Text → Option Text
  | [] => some []
  | c :: t =>
      if c = 'Z' ∨ c = 'z' then some t
      else if c = '+' ∨ c = '-' then do
        let (_, t) ← readDigits? 2 0 23 t
        let t ← Text.dropPrefix? [':'] t
        let (_, t) ← readDigits? 2 0 59 t
        pure t
      else none

/-- Tell whether a text is a time of day, perhaps with an offset. -/
def isZonedTime (t : Text) : Bool := (skipTime? t).bind skipOffset? = some []

/-- Tell whether a text is a day. -/
def isDay (t : Text) : Bool := skipDay? t = some []

/-- Tell whether a text is a day, a time of day without an offset, or both. -/
def isDate (t : Text) : Bool :=
  skipTime? t = some [] ||
    match skipDay? t with
    | none => false
    | some [] => true
    | some (c :: r) => (c == 'T' || c == 't' || c == ' ') && isZonedTime r

/-- The record that stands for a date. -/
def dateRecord (t : Text) : Json := .record [("date", .string t)]

/-- Tell whether a character may stand in a number or a date. -/
def isScalarChar (c : Char) : Bool :=
  c.isAlphanum || c == '+' || c == '-' || c == '_' || c == '.' || c == ':'

/-- Split off a number or a date; a date may go on with a time after one space. -/
def scalarToken (t : Text) : Text × Text :=
  let (token, rest) := t.span isScalarChar
  match rest with
  | ' ' :: r =>
      let (time, after) := r.span isScalarChar
      if isDay token && isZonedTime time then (token ++ ' ' :: time, after)
      else (token, rest)
  | _ => (token, rest)

/-- Read a number, a truth value or a date. -/
def readScalar? (t : Text) : Option (Json × Text) :=
  let (token, rest) := scalarToken t
  let value :=
    if token = "true".toList then some (.bool true)
    else if token = "false".toList then some (.bool false)
    else if isDate token then some (dateRecord token)
    else (readInteger? token).or (readReal? token)
  value.map fun j => (j, rest)

end Toml

end MathTyping
