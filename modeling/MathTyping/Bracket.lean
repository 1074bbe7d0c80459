import MathTyping.Position

/-!
# Brackets

The three kinds of brackets, and matched pairs of them in a scanned source.  A
place in a source is known by line, column and byte offset at once.
-/

namespace MathTyping

/-- The kind of a bracket. -/
inductive BracketKind where
  | paren
  | bracket
  | brace
deriving DecidableEq, Repr, Inhabited

namespace BracketKind

/-- All kinds, in the order in which they are listed. -/
def all : List BracketKind := [paren, bracket, brace]

/-- The name of a kind. -/
def name : BracketKind → String
  | paren => "paren"
  | bracket => "bracket"
  | brace => "brace"

/-- The kind of a name. -/
def ofName? (t : Text) : Option BracketKind := all.find? fun k => k.name.toList == t

/-- Classify a character: the kind of bracket, and whether it opens. -/
def ofChar? (c : Char) : Option (BracketKind × Bool) :=
  if c = '(' then some (paren, true)
  else if c = ')' then some (paren, false)
  else if c = '[' then some (bracket, true)
  else if c = ']' then some (bracket, false)
  else if c = '\x7b' then some (brace, true)
  else if c = '\x7d' then some (brace, false)
  else none

/-- Tell whether a character opens a bracket of any kind. -/
def opens (c : Char) : Bool := (ofChar? c).any (·.2)

/-- Tell whether a character closes a bracket of any kind. -/
def closes (c : Char) : Bool := (ofChar? c).any (! ·.2)

end BracketKind

/-- A place in a scanned source. -/
structure Place where
  line : Nat
  column : Nat
  byte : Nat
deriving DecidableEq, Repr, Inhabited

namespace Place

/-- The start of a source. -/
def origin : Place := ⟨0, 0, 0⟩

/-- The place after a character. -/
def after (p : Place) (c : Char) : Place :=
  if c = '\n' then ⟨p.line + 1, 0, p.byte + c.utf8Size⟩
  else ⟨p.line, p.column + charUnits c, p.byte + c.utf8Size⟩

/-- The line and column of a place. -/
def position (p : Place) : Position := ⟨p.line, p.column⟩

end Place

/-- A matched pair: the places of its two brackets, and the number of brackets
still open where it opened. -/
structure BracketPair where
  kind : BracketKind
  depth : Nat
  opening : Place
  closing : Place
deriving DecidableEq, Repr, Inhabited

namespace BracketPair

/-- Tell whether a byte offset lies inside a pair, after the opening bracket and
not after the closing one. -/
def encloses (p : BracketPair) (offset : Nat) : Bool :=
  decide (p.opening.byte < offset) && decide (offset ≤ p.closing.byte)

/-- Count the bytes from the opening to the closing bracket. -/
def span (p : BracketPair) : Nat := p.closing.byte - p.opening.byte

/-- Pick the first pair of least span. -/
def leastSpan? : List BracketPair → Option BracketPair
  | [] => none
  | p :: ps =>
      match leastSpan? ps with
      | none => some p
      | some q => if p.span ≤ q.span then some p else some q

/-- Pick the innermost pair around a byte offset. -/
def innermost? (pairs : List BracketPair) (offset : Nat) : Option BracketPair :=
  leastSpan? (pairs.filter (·.encloses offset))

theorem mem_of_leastSpan? (ps : List BracketPair) (p : BracketPair)
    (h : leastSpan? ps = some p) : p ∈ ps := by
  induction ps generalizing p with
  | nil => simp [leastSpan?] at h
  | cons q qs ih =>
      unfold leastSpan? at h
      cases hq : leastSpan? qs with
      | none =>
          simp [hq] at h
          simp [h]
      | some r =>
          simp only [hq] at h
          split at h
          · cases h
            exact List.mem_cons_self
          · cases h
            exact List.mem_cons_of_mem _ (ih _ hq)

theorem span_le_of_leastSpan? (ps : List BracketPair) (p q : BracketPair)
    (h : leastSpan? ps = some p) (hq : q ∈ ps) : p.span ≤ q.span := by
  induction ps generalizing p with
  | nil => simp at hq
  | cons r rs ih =>
      unfold leastSpan? at h
      cases hr : leastSpan? rs with
      | none =>
          simp [hr] at h
          cases rs with
          | nil => simp_all
          | cons s ss =>
              unfold leastSpan? at hr
              split at hr
              · simp at hr
              · split at hr <;> simp at hr
      | some s =>
          simp only [hr] at h
          rcases List.mem_cons.mp hq with rfl | hmem
          · split at h
            · cases h
              exact Nat.le_refl _
            · cases h
              omega
          · have hs := ih s hr hmem
            split at h
            · cases h
              omega
            · cases h
              exact hs

end BracketPair

end MathTyping
