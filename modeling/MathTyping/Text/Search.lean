import MathTyping.Text.Measure

/-!
# Searching in text

Occurrences of one text in another, taken from the left.  The cut at the first
occurrence is the one primitive; replacing and splitting repeat it.
-/

namespace MathTyping

namespace Text

/-- Remove `pre` from the front of a text, if it stands there. -/
def dropPrefix? : Text → Text → Option Text
  | [], t => some t
  | _ :: _, [] => none
  | p :: ps, c :: t => if p = c then dropPrefix? ps t else none

/-- Tell whether `t` begins with `pre`. -/
def beginsWith (t pre : Text) : Bool := pre.isPrefixOf t

/-- Tell whether `t` ends with `post`. -/
def endsWith (t post : Text) : Bool := post.isSuffixOf t

/-- Cut a text at its first occurrence of `needle`: the text before and after. -/
def cut? (needle : Text) : Text → Option (Text × Text)
  | [] => (dropPrefix? needle []).map fun rest => ([], rest)
  | c :: t =>
      match dropPrefix? needle (c :: t) with
      | some rest => some ([], rest)
      | none => (cut? needle t).map fun (before, after) => (c :: before, after)

/-- The byte offset of the first occurrence of `needle`. -/
def firstAt? (needle t : Text) : Option Nat := (cut? needle t).map fun (before, _) => before.bytes

/-- Cut a text at its last occurrence of `needle`: the text before and after. -/
def cutLast? (needle : Text) : Text → Option (Text × Text)
  | [] => (dropPrefix? needle []).map fun rest => ([], rest)
  | c :: t =>
      match cutLast? needle t with
      | some (before, after) => some (c :: before, after)
      | none => (dropPrefix? needle (c :: t)).map fun rest => ([], rest)

/-- Tell whether `needle` occurs in a text. -/
def contains (t needle : Text) : Bool := (cut? needle t).isSome

/-- Replace every occurrence of `needle`, from the left and without overlap.
The counter `skip` walks over the rest of an occurrence already replaced. -/
def replaceFrom (needle sub : Text) : Nat → Text → Text
  | _, [] => []
  | skip + 1, _ :: t => replaceFrom needle sub skip t
  | 0, c :: t =>
      if needle.isPrefixOf (c :: t) then sub ++ replaceFrom needle sub (needle.length - 1) t
      else c :: replaceFrom needle sub 0 t

/-- Replace every occurrence of a nonempty `needle` by `sub`. -/
def replace (t needle sub : Text) : Text := replaceFrom needle sub 0 t

/-- Split a text at every occurrence of the character `sep`. -/
def splitOn (sep : Char) : Text → List Text
  | [] => [[]]
  | c :: t =>
      if c = sep then [] :: splitOn sep t
      else match splitOn sep t with
        | [] => [[c]]
        | l :: ls => (c :: l) :: ls

/-- Join texts by a separating text. -/
def join (sep : Text) : List Text → Text
  | [] => []
  | [t] => t
  | t :: ts => t ++ sep ++ join sep ts

/-- Write a natural number in decimal digits. -/
def ofNat (n : Nat) : Text := (toString n).toList

theorem splitOn_ne_nil (sep : Char) (t : Text) : splitOn sep t ≠ [] := by
  cases t with
  | nil => simp [splitOn]
  | cons c t =>
      by_cases h : c = sep
      · simp [splitOn, h]
      · cases hs : splitOn sep t <;> simp [splitOn, h, hs]

theorem splitOn_sep (sep : Char) (t : Text) : splitOn sep (sep :: t) = [] :: splitOn sep t := by
  rw [splitOn, if_pos rfl]

theorem splitOn_cons {sep c : Char} {t l : Text} {rest : List Text} (hc : c ≠ sep)
    (h : splitOn sep t = l :: rest) : splitOn sep (c :: t) = (c :: l) :: rest := by
  rw [splitOn, if_neg hc, h]

/-- A text without the separator is one piece. -/
theorem splitOn_of_notMem {sep : Char} {t : Text} (h : sep ∉ t) : splitOn sep t = [t] := by
  induction t with
  | nil => rfl
  | cons c t ih =>
      exact splitOn_cons (List.ne_of_not_mem_cons h).symm (ih (List.not_mem_of_not_mem_cons h))

/-- The first piece ends at the first separator. -/
theorem splitOn_append {sep : Char} {l : Text} (h : sep ∉ l) (t : Text) :
    splitOn sep (l ++ sep :: t) = l :: splitOn sep t := by
  induction l with
  | nil => exact splitOn_sep sep t
  | cons c l ih =>
      exact splitOn_cons (List.ne_of_not_mem_cons h).symm (ih (List.not_mem_of_not_mem_cons h))

theorem join_cons_cons (sep l m : Text) (ls : List Text) :
    join sep (l :: m :: ls) = l ++ sep ++ join sep (m :: ls) := rfl

/-- The pieces of a text, with the separator between them, are the text. -/
theorem join_splitOn (sep : Char) (t : Text) : join [sep] (splitOn sep t) = t := by
  induction t with
  | nil => rfl
  | cons c t ih =>
      obtain ⟨l, rest, hpieces⟩ := List.exists_cons_of_ne_nil (splitOn_ne_nil sep t)
      rw [hpieces] at ih
      by_cases hc : c = sep
      · subst hc
        rw [splitOn_sep, hpieces, join_cons_cons, ih]
        rfl
      · rw [splitOn_cons hc hpieces]
        cases rest with
        | nil =>
            obtain rfl : l = t := ih
            rfl
        | cons m rest =>
            rw [join_cons_cons] at ih ⊢
            rw [← ih]
            rfl

end Text

end MathTyping
