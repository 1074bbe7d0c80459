import MathTyping.Equation
import MathTyping.Proofs.Buffer.Cuts
import MathTyping.Proofs.Text.Occurrences

/-!
# Guarded operations

Cutting a text, taking an entry of a list, subtracting: such an operation has no result
outside its domain, and a program that leaves the domain stops.  The functions of a session
are written with total operations, which give some value or other there.  A guarded operation
fails instead, and a guarded computation ends with the first operation that fails.

The modules beside this one write the functions of a session once more, with guarded
operations wherever a partial one is meant.  Each guarded function has the name of the
function that it follows, and an equation that says that it never fails and gives the same
value.
-/

namespace MathTyping

/-- The ways to leave the domain of an operation.

* `slice`: a text is cut out of order, behind its end, or inside a character.
* `index`: an entry is taken behind the end of a list.
* `bounds`: a number is brought between bounds of which the lower one is larger.
* `underflow`: more is subtracted than there is.
* `remainder`: a remainder by zero is taken.
* `room`: a character is written into too few bytes. -/
inductive Breach where
  | slice
  | index
  | bounds
  | underflow
  | remainder
  | room
deriving DecidableEq, Repr

/-- A computation that stops at the first operation outside its domain. -/
abbrev Guarded (α : Type) := Except Breach α

namespace Text

variable {t : Text} {n : Nat}

/-! ### Boundaries of characters -/

/-- Tell whether a character starts at a byte offset, or the text ends there. -/
def hasBoundary : Text → Nat → Bool
  | _, 0 => true
  | [], _ + 1 => false
  | c :: t, n + 1 => decide (c.utf8Size ≤ n + 1) && hasBoundary t (n + 1 - c.utf8Size)

theorem hasBoundary_iff : hasBoundary t n = true ↔ t.IsBoundary n := by
  constructor
  · intro h
    fun_induction hasBoundary t n with
    | case1 t => exact ⟨[], t, rfl, rfl⟩
    | case2 => contradiction
    | case3 c t n ih =>
        obtain ⟨hfits, hrest⟩ := Bool.and_eq_true_iff.mp h
        obtain ⟨pre, post, rfl, hbytes⟩ := ih hrest
        have hle := of_decide_eq_true hfits
        refine ⟨c :: pre, post, rfl, ?_⟩
        rw [bytes_cons]
        omega
  · rintro ⟨pre, post, rfl, rfl⟩
    induction pre with
    | nil => cases post <;> rfl
    | cons c pre ih =>
        obtain ⟨n, hn⟩ : ∃ n, c.utf8Size + bytes pre = n + 1 :=
          Nat.exists_eq_add_one.mpr (Nat.add_pos_left c.utf8Size_pos _)
        rw [bytes_cons, hn, List.cons_append, hasBoundary, ← hn, Nat.add_sub_cancel_left, ih,
          decide_eq_true (Nat.le_add_right _ _)]
        rfl

instance : Decidable (t.IsBoundary n) := decidable_of_iff _ hasBoundary_iff

theorem isBoundary_append (pre post : Text) : (pre ++ post).IsBoundary pre.bytes :=
  ⟨pre, post, rfl, rfl⟩

theorem isBoundary_zero (t : Text) : t.IsBoundary 0 := isBoundary_append [] t

theorem isBoundary_takeBytes (n : Nat) (t : Text) : t.IsBoundary (takeBytes n t).bytes :=
  ⟨_, _, (takeBytes_append_dropBytes n t).symm, rfl⟩

theorem IsBoundary.le (h : t.IsBoundary n) : n ≤ t.bytes := by
  obtain ⟨pre, post, rfl, rfl⟩ := h
  rw [bytes_append]
  exact Nat.le_add_right _ _

/-- A text is cut where a character starts. -/
theorem IsBoundary.bytes_takeBytes (h : t.IsBoundary n) : (takeBytes n t).bytes = n := by
  obtain ⟨pre, post, rfl, rfl⟩ := h
  rw [takeBytes_bytes_append]

/-! ### Offsets that a search gives -/

/-- The byte offset of the last occurrence of `needle`. -/
def lastAt? (needle t : Text) : Option Nat :=
  (cutLast? needle t).map fun (before, _) => before.bytes

/-- Remove the first occurrence of `needle`. -/
def removeFirst (needle t : Text) : Text :=
  match cut? needle t with
  | some (before, after) => before ++ after
  | none => t

end Text

namespace Guarded

variable {α : Type} {t pre mid post : Text} {start stop n m : Nat}

/-! ### Operations with a domain -/

/-- Cut out the text between two byte offsets. -/
def cut (t : Text) (start stop : Nat) : Guarded Text :=
  if start ≤ stop ∧ t.IsBoundary start ∧ t.IsBoundary stop then pure (t.slice start stop)
  else throw .slice

/-- Take the entry of a list at an index. -/
def entry (entries : List α) (index : Nat) : Guarded α :=
  match entries[index]? with
  | some a => pure a
  | none => throw .index

/-- Subtract. -/
def minus (n m : Nat) : Guarded Nat := if m ≤ n then pure (n - m) else throw .underflow

/-- Bring a number between two bounds. -/
def clampTo (n low high : Nat) : Guarded Nat :=
  if low ≤ high then pure (max low (min n high)) else throw .bounds

/-- Take a remainder. -/
def modulo (n m : Nat) : Guarded Nat := if m = 0 then throw .remainder else pure (n % m)

/-- Write a character into a number of bytes, as a text. -/
def encode (c : Char) (room : Nat) : Guarded Text :=
  if c.utf8Size ≤ room then pure [c] else throw .room

theorem cut_of_isBoundary (hle : start ≤ stop) (hstart : t.IsBoundary start)
    (hstop : t.IsBoundary stop) : cut t start stop = pure (t.slice start stop) :=
  if_pos ⟨hle, hstart, hstop⟩

/-- The middle of three parts is cut out at their ends. -/
theorem cut_append (pre mid post : Text) :
    cut (pre ++ mid ++ post) pre.bytes (Text.bytes (pre ++ mid)) = pure mid := by
  have hstart : (pre ++ mid ++ post).IsBoundary pre.bytes := by
    rw [List.append_assoc]
    exact Text.isBoundary_append _ _
  rw [cut_of_isBoundary _ hstart (Text.isBoundary_append _ _), Text.slice_append]
  rw [Text.bytes_append]
  exact Nat.le_add_right _ _

theorem cut_front (pre post : Text) : cut (pre ++ post) 0 pre.bytes = pure pre :=
  cut_append [] pre post

theorem cut_back (pre post : Text) :
    cut (pre ++ post) pre.bytes (Text.bytes (pre ++ post)) = pure post := by
  have hcut := cut_append pre post []
  rwa [List.append_nil] at hcut

/-- A text is cut from its start at every boundary. -/
theorem cut_zero (h : t.IsBoundary n) : cut t 0 n = pure (Text.takeBytes n t) := by
  obtain ⟨pre, post, rfl, rfl⟩ := h
  rw [cut_front, Text.takeBytes_bytes_append]

/-- A text is cut up to its end at every boundary. -/
theorem cut_bytes (h : t.IsBoundary n) : cut t n t.bytes = pure (Text.dropBytes n t) := by
  obtain ⟨pre, post, rfl, rfl⟩ := h
  rw [cut_back, Text.dropBytes_bytes_append]

theorem entry_of_getElem? {entries : List α} {index : Nat} {a : α}
    (h : entries[index]? = some a) : entry entries index = pure a := by
  rw [entry, h]

theorem minus_of_le (h : m ≤ n) : minus n m = pure (n - m) := if_pos h

theorem clampTo_of_le {low high : Nat} (h : low ≤ high) :
    clampTo n low high = pure (max low (min n high)) := if_pos h

theorem modulo_of_pos (h : 0 < m) : modulo n m = pure (n % m) := if_neg (Nat.ne_of_gt h)

/-- Four bytes are enough for every character. -/
theorem encode_four (c : Char) : encode c 4 = pure [c] := if_pos c.utf8Size_le_four

/-- An offset inside a character is no place to cut, and neither are ends out of order. -/
example : cut "a𝔸".toList 1 3 = throw .slice ∧ cut "a𝔸".toList 1 0 = throw .slice ∧
    cut "a𝔸".toList 1 5 = pure "𝔸".toList := by decide

/-! ### The place behind a text -/

/-- Give the position reached after writing a text: the column is that of what follows the
last line feed. -/
def advance (p : Position) (t : Text) : Guarded Position :=
  match t.lastByte? (· == '\n') with
  | none => pure (p.right t.units)
  | some last => do
      let tail ← cut t (last + 1) t.bytes
      pure ⟨p.line + t.count '\n', tail.units⟩

theorem line_advance (p : Position) (t : Text) :
    (p.advance t).line = p.line + t.count '\n' := by
  induction t generalizing p with
  | nil => rfl
  | cons c t ih =>
      by_cases hc : c = '\n'
      · rw [Position.advance, if_pos hc, ih, hc, List.count_cons_self, Nat.add_assoc,
          Nat.add_comm 1]
      · rw [Position.advance, if_neg hc, ih, List.count_cons_of_ne hc]
        rfl

theorem advance_eq (p : Position) (t : Text) : advance p t = pure (p.advance t) := by
  unfold advance
  cases hlast : t.lastByte? (· == '\n') with
  | none =>
      have hline : '\n' ∉ t := fun hmem => absurd (Text.lastByte?_eq_none_iff.mp hlast _ hmem) (by simp)
      rw [Position.advance_of_notMem p hline]
  | some last =>
      obtain ⟨before, c, after, rfl, hc, rfl, hafter⟩ := Text.lastByte?_eq_some hlast
      obtain rfl := beq_iff_eq.mp hc
      -- What is behind the last line feed is one line, so its code units are the column.
      have hline : '\n' ∉ after := fun hmem => absurd (hafter _ hmem) (by simp)
      have hsplit : before ++ '\n' :: after = before ++ ['\n'] ++ after := by simp
      have hbytes : before.bytes + 1 = Text.bytes (before ++ ['\n']) := by
        rw [Text.bytes_append]
        rfl
      have hcount : List.count '\n' (before ++ '\n' :: after) = before.count '\n' + 1 := by
        rw [List.count_append, List.count_cons_self, List.count_eq_zero.mpr hline]
      have hplace : p.advance (before ++ '\n' :: after) =
          ⟨p.line + (before.count '\n' + 1), after.units⟩ := by
        rw [Position.advance_append, Position.advance, if_pos rfl,
          Position.advance_of_notMem _ hline, line_advance, Position.right, Nat.zero_add,
          Nat.add_assoc]
      dsimp only
      rw [hplace, hcount, hsplit, hbytes, cut_back, pure_bind]

end Guarded

end MathTyping
