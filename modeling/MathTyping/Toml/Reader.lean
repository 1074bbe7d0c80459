import MathTyping.Toml.Table
import MathTyping.Toml.Scalar

/-!
# Reading TOML

A document is a sequence of lines: a key with its value, a header, or nothing,
each with an optional comment behind it.  A text is refused as a whole if any
line is malformed, sets something twice or nests too deeply.
-/

namespace MathTyping

namespace Toml

/-- Skip the blanks of a line. -/
def skipBlank (t : Text) : Text := t.dropWhile isInlineBlank

/-- Read a comment, if one begins here; it may hold no control characters. -/
def skipComment (t : Text) : Text :=
  match t with
  | '#' :: r => r.dropWhile isLineChar
  | _ => t

/-- Skip blanks, comments and line endings. -/
def skipGaps : Nat → Text → Text
  | 0, t => t
  | fuel + 1, t =>
      let r := skipComment (skipBlank t)
      match readNewline? r with
      | some rest => skipGaps fuel rest
      | none => r

/-- Tell whether a character may stand in a key without quotes. -/
def isBareKeyChar (c : Char) : Bool := c.isAlphanum || c == '_' || c == '-'

/-- Read one part of a key. -/
def readKeyPart? (t : Text) : Option (Text × Text) :=
  match t with
  | '"' :: r => readBasic? (r.length + 1) r
  | '\x27' :: r => readLiteral? r
  | _ =>
      let (key, rest) := t.span isBareKeyChar
      if key.isEmpty then none else some (key, rest)

/-- Read the parts of a key, separated by dots. -/
def readKeyParts? : Nat → Text → Option (List Text × Text)
  | 0, _ => none
  | fuel + 1, t => do
      let (part, r) ← readKeyPart? (skipBlank t)
      match skipBlank r with
      | '.' :: rest =>
          let (parts, r) ← readKeyParts? fuel rest
          pure (part :: parts, r)
      | r => pure ([part], r)

/-- The most parts of a key, and the most arrays and inline tables within each other. -/
def maxDepth : Nat := 79

/-- Read a key. -/
def readKey? (t : Text) : Option (List Text × Text) := do
  let (parts, r) ← readKeyParts? (t.length + 1) t
  if parts.length ≤ maxDepth then some (parts, r) else none

/-- Go one level deeper, if there is room. -/
def deeper? : Nat → Option Nat
  | 0 => none
  | room + 1 => some room

/-- Split the last part off a key. -/
def splitKey (parts : List Text) : List Text × Text := (parts.dropLast, parts.getLastD [])

mutual

/-- Read a value; `room` is how much deeper arrays and tables may nest. -/
def readValue? : (fuel room : Nat) → Text → Option (Json × Text)
  | 0, _, _ => none
  | fuel + 1, room, t =>
      match t with
      | '[' :: r => do
          let room ← deeper? room
          let (items, r) ← readItems? fuel room (skipGaps (r.length + 1) r)
          pure (.array items, r)
      | '\x7b' :: r => do
          let room ← deeper? room
          match skipBlank r with
          | '\x7d' :: r => some (.object [], r)
          | r => do
              let (ms, r) ← readPairs? fuel room [] r
              pure (.object (membersToJson ms), r)
      | '"' :: _ => (readString? t).map fun (s, r) => (.string s, r)
      | '\x27' :: _ => (readString? t).map fun (s, r) => (.string s, r)
      | _ => readScalar? t

/-- Read the items of an array up to its closing bracket. -/
def readItems? : (fuel room : Nat) → Text → Option (List Json × Text)
  | 0, _, _ => none
  | _ + 1, _, ']' :: r => some ([], r)
  | fuel + 1, room, t => do
      let (item, r) ← readValue? fuel room t
      match skipGaps (r.length + 1) r with
      | ']' :: r => pure ([item], r)
      | ',' :: r =>
          let (items, r) ← readItems? fuel room (skipGaps (r.length + 1) r)
          pure (item :: items, r)
      | _ => none

/-- Read the pairs of an inline table up to its closing brace. -/
def readPairs? : (fuel room : Nat) → Members → Text → Option (Members × Text)
  | 0, _, _, _ => none
  | fuel + 1, room, ms, t => do
      let (parts, r) ← readKey? t
      match r with
      | '=' :: r =>
          let (value, r) ← readValue? fuel room (skipBlank r)
          let (path, key) := splitKey parts
          let ms ← setDotted path key value .header ms
          match skipBlank r with
          | '\x7d' :: r => pure (ms, r)
          | ',' :: r => readPairs? fuel room ms (skipBlank r)
          | _ => none
      | _ => none

end

/-- A document that is being read: the tree so far, and the path of the table that
the last header opened. -/
structure Reading where
  root : Members
  current : List Text

namespace Reading

/-- Set a key of the current table. -/
def set? (d : Reading) (parts : List Text) (value : Json) : Option Reading :=
  let (path, key) := splitKey parts
  (changeAt .implied (setDotted path key value) d.current .header d.root).map fun root =>
    ⟨root, d.current⟩

/-- Open the table, or the next element of a list of tables, that a header names. -/
def openHeader? (d : Reading) (element : Bool) (parts : List Text) : Option Reading :=
  let (path, key) := splitKey parts
  let opening := if element then openElement key else openTable key
  (changeAt .implied (fun _ ms => opening ms) path .header d.root).map fun root => ⟨root, parts⟩

/-- Read a header after its first bracket. -/
def readHeader? (d : Reading) (t : Text) : Option (Reading × Text) :=
  match t with
  | '[' :: r => do
      let (parts, r) ← readKey? r
      match r with
      | ']' :: ']' :: r =>
          let d ← d.openHeader? true parts
          pure (d, r)
      | _ => none
  | r => do
      let (parts, r) ← readKey? r
      match r with
      | ']' :: r =>
          let d ← d.openHeader? false parts
          pure (d, r)
      | _ => none

/-- Read a key and its value. -/
def readPair? (d : Reading) (t : Text) : Option (Reading × Text) := do
  let (parts, r) ← readKey? t
  match r with
  | '=' :: r =>
      let (value, r) ← readValue? (2 * r.length + 2) maxDepth (skipBlank r)
      let d ← d.set? parts value
      pure (d, r)
  | _ => none

/-- Read what a line says, if it says something. -/
def readLine? (d : Reading) (t : Text) : Option (Reading × Text) :=
  match skipBlank t with
  | [] => some (d, [])
  | '[' :: r => d.readHeader? r
  | c :: r =>
      if c = '#' ∨ c = '\n' ∨ c = '\r' then some (d, c :: r) else d.readPair? (c :: r)

/-- Read line after line to the end of the text. -/
def readLines? : Nat → Reading → Text → Option Reading
  | 0, _, _ => none
  | fuel + 1, d, t => do
      let (d, r) ← d.readLine? t
      match skipComment (skipBlank r) with
      | [] => pure d
      | r =>
          let rest ← readNewline? r
          readLines? fuel d rest

end Reading

/-- Read a text as a document.  A byte order mark in front of it is skipped. -/
def parse? (t : Text) : Option Json :=
  let t := if t.head? = some '\ufeff' then t.tail else t
  (Reading.readLines? (t.length + 1) ⟨[], []⟩ t).map fun d => .object (membersToJson d.root)

end Toml

end MathTyping
