import MathTyping.Text.Search

/-!
# Keys and chords

A chord is a key with the modifiers held.  Its written form names the modifiers
first, each followed by a plus sign; the key may itself be or contain a plus
sign.
-/

namespace MathTyping

/-- A key of the keyboard. -/
inductive Key where
  | up
  | down
  | left
  | right
  | tab
  | enter
  | backspace
  | escape
  | shift
  | char (c : Char)
  | named (name : Text)
deriving DecidableEq, Repr, Inhabited

namespace Key

/-- The keys with a name of their own; some have two. -/
def names : List (String × Key) :=
  [("ArrowUp", up), ("Up", up), ("ArrowDown", down), ("Down", down), ("ArrowLeft", left),
    ("Left", left), ("ArrowRight", right), ("Right", right), ("Tab", tab), ("Enter", enter),
    ("Backspace", backspace), ("Escape", escape), ("Esc", escape), ("Shift", shift),
    ("Space", char ' ')]

/-- The key of a name; a single character names the key that types it. -/
def ofName (t : Text) : Key :=
  match t with
  | [c] => char c
  | _ => ((names.find? fun n => n.1.toList == t).map (·.2)).getD (named t)

end Key

/-- A key press with the modifiers held. -/
structure Chord where
  key : Key
  shift : Bool := false
  ctrl : Bool := false
  alt : Bool := false
  command : Bool := false
deriving DecidableEq, Repr, Inhabited

namespace Chord

/-- A key press without modifiers. -/
def plain (key : Key) : Chord := ⟨key, false, false, false, false⟩

/-- The character that a chord types, if no command modifier is held. -/
def typed? (chord : Chord) : Option Char :=
  match chord.key with
  | .char c => if chord.ctrl || chord.alt || chord.command then none else some c
  | _ => none

theorem key_of_typed? {chord : Chord} {c : Char} (h : chord.typed? = some c) :
    chord.key = .char c := by
  unfold typed? at h
  split at h
  · rename_i hkey
    split at h
    · contradiction
    · rw [hkey, Option.some.inj h]
  · contradiction

/-- Hold a modifier, given by name. -/
def hold? (chord : Chord) (name : Text) : Option Chord :=
  if name = "Shift".toList then some { chord with shift := true }
  else if name = "Ctrl".toList ∨ name = "Control".toList then some { chord with ctrl := true }
  else if name = "Alt".toList then some { chord with alt := true }
  else if name = "Meta".toList ∨ name = "Cmd".toList then some { chord with command := true }
  else none

/-- Read the parts of a chord between plus signs.  A part is a modifier only if
some text follows its plus sign. -/
def ofParts (chord : Chord) : List Text → Chord
  | [] => { chord with key := Key.ofName [] }
  | [part] => { chord with key := Key.ofName part }
  | part :: rest =>
      let whole : Key := Key.ofName (Text.join ['+'] (part :: rest))
      if rest = [[]] then { chord with key := whole }
      else
        match chord.hold? part with
        | some held => ofParts held rest
        | none => { chord with key := whole }

/-- Read a chord. -/
def ofText (t : Text) : Chord := ofParts (plain .shift) (t.splitOn '+')

end Chord

end MathTyping
