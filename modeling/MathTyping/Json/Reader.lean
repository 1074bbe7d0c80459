import MathTyping.Json

/-!
# Reading JSON

A strict reader: one value, blanks around it, nothing else.  Numbers have no
leading zeros, strings no bare control characters.  An integer literal is read
as an integer, except `-0`, which only exists with a fraction; any other number
is read as a decimal.
-/

namespace MathTyping

namespace Json

/-- Tell whether a character may stand between tokens. -/
def isSpace (c : Char) : Bool := c == ' ' || c == '\n' || c == '\t' || c == '\r'

/-- Skip the blanks before a token. -/
def skipSpace (t : Text) : Text := t.dropWhile isSpace

/-- The value of a hexadecimal digit. -/
def hexDigit? (c : Char) : Option Nat :=
  if '0' ≤ c ∧ c ≤ '9' then some (c.toNat - 48)
  else if 'a' ≤ c ∧ c ≤ 'f' then some (c.toNat - 87)
  else if 'A' ≤ c ∧ c ≤ 'F' then some (c.toNat - 55)
  else none

/-- Read four hexadecimal digits. -/
def readHex4? : Text → Option (Nat × Text)
  | a :: b :: c :: d :: rest => do
      let a ← hexDigit? a
      let b ← hexDigit? b
      let c ← hexDigit? c
      let d ← hexDigit? d
      pure (((a * 16 + b) * 16 + c) * 16 + d, rest)
  | _ => none

/-- One piece of a string literal: a character, or an escape that is half a pair. -/
abbrev Piece := Option Char

/-- Read a code unit escape, taking a following low half along. -/
def readUnit? (t : Text) : Option (Piece × Text) := do
  let (n, rest) ← readHex4? t
  if 0xD800 ≤ n ∧ n < 0xDC00 then
    match rest with
    | '\\' :: 'u' :: tail =>
        let (m, after) ← readHex4? tail
        -- Any other unit is read on its own after the lone half.
        if 0xDC00 ≤ m ∧ m < 0xE000 then
          pure (some (Char.ofNat (0x10000 + (n - 0xD800) * 0x400 + (m - 0xDC00))), after)
        else pure (none, rest)
    | _ => pure (none, rest)
  else if 0xDC00 ≤ n ∧ n < 0xE000 then pure (none, rest)
  else pure (some (Char.ofNat n), rest)

/-- Read what follows a backslash. -/
def readEscape? : Text → Option (Piece × Text)
  | '"' :: r => some (some '"', r)
  | '\\' :: r => some (some '\\', r)
  | '/' :: r => some (some '/', r)
  | 'b' :: r => some (some '\x08', r)
  | 'f' :: r => some (some '\x0c', r)
  | 'n' :: r => some (some '\n', r)
  | 'r' :: r => some (some '\r', r)
  | 't' :: r => some (some '\t', r)
  | 'u' :: r => readUnit? r
  | _ => none

/-- Read a string literal after its opening quote. -/
def readPieces? : Nat → Text → Option (List Piece × Text)
  | 0, _ => none
  | _, [] => none
  | _ + 1, '"' :: r => some ([], r)
  | fuel + 1, '\\' :: r => do
      let (p, r) ← readEscape? r
      let (ps, r) ← readPieces? fuel r
      pure (p :: ps, r)
  | fuel + 1, c :: r =>
      -- Control characters must be escaped.
      if c.toNat < 0x20 then none
      else do
        let (ps, r) ← readPieces? fuel r
        pure (some c :: ps, r)

/-- Read a string literal after its opening quote; no text if a piece is broken. -/
def readString? (t : Text) : Option (Option Text × Text) := do
  let (ps, r) ← readPieces? (t.length + 1) t
  pure (ps.foldr (fun p acc => do pure ((← p) :: (← acc))) (some []), r)

/-- The value of a run of decimal digits. -/
def digitsValue (ds : Text) : Nat :=
  ds.foldl (fun n c => n * 10 + (c.toNat - 48)) 0

/-- Take the decimal digits from the front. -/
def spanDigits (t : Text) : Text × Text := t.span Char.isDigit

/-- Read the integer part: a zero alone, or digits that do not start with it. -/
def readWhole? (t : Text) : Option (Text × Text) :=
  match spanDigits t with
  | ([], _) => none
  | ('0' :: _ :: _, _) => none
  | (ds, rest) => some (ds, rest)

/-- Read a fraction, if a point begins one. -/
def readFraction? : Text → Option (Text × Text)
  | '.' :: r =>
      match spanDigits r with
      | ([], _) => none
      | (ds, rest) => some (ds, rest)
  | t => some ([], t)

/-- Read an exponent, if a letter begins one. -/
def readExponent? : Text → Option (Option Int × Text)
  | c :: r =>
      if c = 'e' ∨ c = 'E' then
        let (negative, r) := match r with
          | '-' :: r => (true, r)
          | '+' :: r => (false, r)
          | r => (false, r)
        match spanDigits r with
        | ([], _) => none
        | (ds, rest) =>
            let n : Int := digitsValue ds
            some (some (if negative then -n else n), rest)
      else some (none, c :: r)
  | [] => some (none, [])

/-- Read a number. -/
def readNumber? (t : Text) : Option (Json × Text) := do
  let (negative, t) := match t with
    | '-' :: r => (true, r)
    | r => (false, r)
  let (whole, t) ← readWhole? t
  let (fraction, t) ← readFraction? t
  let (exponent, t) ← readExponent? t
  let n := digitsValue whole
  match fraction, exponent with
  | [], none =>
      if negative then
        if n = 0 then pure (decimal ⟨true, 0, 0⟩, t) else pure (integer (-n), t)
      else pure (integer n, t)
  | _, _ =>
      pure (decimal ⟨negative, digitsValue (whole ++ fraction),
        exponent.getD 0 - fraction.length⟩, t)

/-- Read a word that must stand at the front. -/
def readWord? (word : Text) (value : Json) (t : Text) : Option (Json × Text) :=
  (Text.dropPrefix? word t).map fun rest => (value, rest)

mutual

/-- Read a value, blanks before it included. -/
def readValue? : Nat → Text → Option (Json × Text)
  | 0, _ => none
  | fuel + 1, t =>
      match skipSpace t with
      | '"' :: r => do
          let (s, r) ← readString? r
          pure ((match s with | some s => string s | none => broken), r)
      | '[' :: r =>
          match skipSpace r with
          | ']' :: r => some (array [], r)
          | r => do
              let (items, r) ← readItems? fuel r
              pure (array items, r)
      | '\x7b' :: r =>
          match skipSpace r with
          | '\x7d' :: r => some (object [], r)
          | r => do
              let (members, r) ← readMembers? fuel r
              pure ((match members with | some ms => object ms | none => broken), r)
      | 'n' :: r => readWord? "ull".toList null r
      | 't' :: r => readWord? "rue".toList (bool true) r
      | 'f' :: r => readWord? "alse".toList (bool false) r
      | r => readNumber? r

/-- Read the items of an array up to its closing bracket. -/
def readItems? : Nat → Text → Option (List Json × Text)
  | 0, _ => none
  | fuel + 1, t => do
      let (item, r) ← readValue? fuel t
      match skipSpace r with
      | ']' :: r => pure ([item], r)
      | ',' :: r =>
          let (items, r) ← readItems? fuel r
          pure (item :: items, r)
      | _ => none

/-- Read the members of an object up to its closing brace; none of them if a name is
broken. -/
def readMembers? : Nat → Text → Option (Option (List (Text × Json)) × Text)
  | 0, _ => none
  | fuel + 1, t =>
      match skipSpace t with
      | '"' :: r => do
          let (name, r) ← readString? r
          match skipSpace r with
          | ':' :: r =>
              let (value, r) ← readValue? fuel r
              let first := name.map fun name => (name, value)
              match skipSpace r with
              | '\x7d' :: r => pure (first.map fun m => [m], r)
              | ',' :: r =>
                  let (others, r) ← readMembers? fuel r
                  pure (do pure ((← first) :: (← others)), r)
              | _ => none
          | _ => none
      | _ => none

end

/-- Read a whole text as one value. -/
def parse? (t : Text) : Option Json := do
  let (j, rest) ← readValue? (2 * t.length + 2) t
  if (skipSpace rest).isEmpty then pure j else none

end Json

end MathTyping
