import Mathlib.Data.List.DropRight
import MathTyping.Proofs.Bracket.Lexemes
import MathTyping.Proofs.Bracket.Places

/-!
# What the scan finds

The scan reads a source once, with a mode for what it is inside of.  Behind the
opening of a passage it is in the mode of that passage, and it leaves the mode
with the passage; in between it finds nothing.  Hence its tokens are the single
characters among the lexemes that are brackets.
-/

namespace MathTyping

namespace Place

/-- The place behind a text, counted off: the line feeds, the units since the last of them, and
the bytes. -/
def counted (pre : Text) : Place :=
  ⟨pre.count '\n', Text.units (pre.rtakeWhile (· != '\n')), pre.bytes⟩

theorem behind_eq_counted (pre : Text) : behind pre = counted pre := by
  induction pre using List.reverseRecOn with
  | nil => rfl
  | append_singleton pre c ih =>
      rw [← after_behind, ih, after, counted, counted, List.count_append,
        List.rtakeWhile_concat]
      by_cases hc : c = '\n'
      · simp [hc]
      · simp [hc]

end Place

namespace BracketToken

open Passage

variable {mode after : ScanMode} {place : Place} {pre body rest t : Text} {c d : Char}

/-- A mark of two characters is read at once. -/
theorem scanFrom_mark (h : mark? mode c d = some after) (t : Text) :
    scanFrom mode (.behind pre) (c :: d :: t) = scanFrom after (.behind (pre ++ [c, d])) t := by
  simp only [scanFrom, h, Place.after_behind, List.append_assoc, List.cons_append,
    List.nil_append]

/-- Any other character is read alone. -/
theorem scanFrom_char (h : ∀ d t', t = d :: t' → mark? mode c d = none) :
    scanFrom mode (.behind pre) (c :: t) =
      (if mode = .code then (ofChar? c (.behind pre)).toList else []) ++
        scanFrom (nextMode mode c) (.behind (pre ++ [c])) t := by
  cases t with
  | nil => simp [scanFrom]
  | cons d t => simp only [scanFrom, h d t rfl, Place.after_behind]

/-- A character of a passage is no token. -/
theorem scanFrom_skip (hmode : mode ≠ .code)
    (h : ∀ d t', t = d :: t' → mark? mode c d = none) :
    scanFrom mode (.behind pre) (c :: t) =
      scanFrom (nextMode mode c) (.behind (pre ++ [c])) t := by
  rw [scanFrom_char h, if_neg hmode, List.nil_append]

/-! ### Strings -/

theorem scanFrom_stringBody (h : StringBody body) (pre rest : Text) :
    scanFrom (.string false) (.behind pre) (body ++ '"' :: rest) =
      scanFrom .code (.behind (pre ++ body ++ ['"'])) rest := by
  induction h generalizing pre with
  | nil =>
      rw [List.nil_append, scanFrom_skip (by simp) fun _ _ _ => rfl, List.append_nil]
      rfl
  | @plain c t hquote hescape _ ih =>
      rw [List.cons_append, scanFrom_skip (by simp) fun _ _ _ => rfl,
        show nextMode (.string false) c = .string false by
          simp [nextMode, stringMode, hquote, hescape], ih]
      simp
  | @escaped c t _ ih =>
      rw [List.cons_append, List.cons_append, scanFrom_skip (by simp) fun _ _ _ => rfl,
        scanFrom_skip (by simp [nextMode, stringMode]) fun _ _ _ => rfl]
      rw [show nextMode (nextMode (.string false) '\\') c = .string false by rfl, ih]
      simp

theorem scanFrom_unclosedString (h : UnclosedString t) (pre : Text) :
    scanFrom (.string false) (.behind pre) t = [] := by
  induction h generalizing pre with
  | nil => rfl
  | dangling => rfl
  | @plain c t hquote hescape _ ih =>
      rw [scanFrom_skip (by simp) fun _ _ _ => rfl,
        show nextMode (.string false) c = .string false by
          simp [nextMode, stringMode, hquote, hescape], ih]
  | @escaped c t _ ih =>
      rw [scanFrom_skip (by simp) fun _ _ _ => rfl,
        scanFrom_skip (by simp [nextMode, stringMode]) fun _ _ _ => rfl,
        show nextMode (nextMode (.string false) '\\') c = .string false by rfl, ih]

/-! ### Line comments -/

/-- A line comment lasts while no line feed comes. -/
theorem scanFrom_lineBody (h : '\n' ∉ body) (pre rest : Text) :
    scanFrom .lineComment (.behind pre) (body ++ rest) =
      scanFrom .lineComment (.behind (pre ++ body)) rest := by
  induction body generalizing pre with
  | nil => simp
  | cons c body ih =>
      rw [List.mem_cons, not_or] at h
      obtain ⟨hc, hbody⟩ := h
      rw [List.cons_append, scanFrom_skip (by simp) fun _ _ _ => rfl,
        show nextMode .lineComment c = .lineComment by simp [nextMode, Ne.symm hc], ih hbody]
      simp

/-! ### Block comments -/

/-- The mode behind the end of a block comment with a number of comments around it. -/
def leave : Nat → ScanMode
  | 0 => .code
  | n + 1 => .blockComment n

theorem mark?_closing (n : Nat) : mark? (.blockComment n) '*' '/' = some (leave n) := by
  cases n <;> rfl

theorem mark?_opening (n : Nat) : mark? (.blockComment n) '/' '*' = some (.blockComment (n + 1)) :=
  rfl

theorem mark?_eq_none {n : Nat} (h : ¬ StartsMark (c :: t)) :
    ∀ d t', t = d :: t' → mark? (.blockComment n) c d = none := by
  rintro d t' rfl
  rw [startsMark_cons_iff, not_or] at h
  simp only [List.head?_cons, Option.some.injEq] at h
  simp only [mark?, if_neg h.2, if_neg h.1]

/-- A comment is read to its own end, however deep it stands. -/
theorem scanFrom_commentBody (h : CommentBody body) (n : Nat) (pre rest : Text) :
    scanFrom (.blockComment n) (.behind pre) (body ++ '*' :: '/' :: rest) =
      scanFrom (leave n) (.behind (pre ++ body ++ ['*', '/'])) rest := by
  induction h generalizing n pre rest with
  | nil => rw [List.nil_append, scanFrom_mark (mark?_closing n), List.append_nil]
  | @plain c t hmark _ ih =>
      rw [← startsMark_append_iff rest, List.cons_append] at hmark
      rw [List.cons_append, scanFrom_skip (by simp) (mark?_eq_none hmark), nextMode, ih]
      simp
  | @nested inner t _ _ ihinner ih =>
      simp only [List.cons_append, List.append_assoc]
      rw [scanFrom_mark (mark?_opening n), ihinner, leave, ih]
      simp

theorem scanFrom_unclosedComment (h : UnclosedComment t) (n : Nat) (pre : Text) :
    scanFrom (.blockComment n) (.behind pre) t = [] := by
  induction h generalizing n pre with
  | nil => rfl
  | plain hmark _ ih => rw [scanFrom_skip (by simp) (mark?_eq_none hmark), nextMode, ih]
  | nested hinner _ ih =>
      rw [scanFrom_mark (mark?_opening n), scanFrom_commentBody hinner, leave,
        ih]
  | unclosed _ ih => rw [scanFrom_mark (mark?_opening n), ih]

/-! ### Passages -/

/-- The mode of the scan inside a passage. -/
def modeOf : Passage → ScanMode
  | .string => .string false
  | .lineComment => .lineComment
  | .blockComment => .blockComment 0

theorem scanFrom_opening (kind : Passage) (pre t : Text) :
    scanFrom .code (.behind pre) (kind.opening ++ t) =
      scanFrom (modeOf kind) (.behind (pre ++ kind.opening)) t := by
  cases kind with
  | string =>
      have hlone : ∀ d t', t = d :: t' → mark? .code '"' d = none := fun _ _ _ => rfl
      rw [opening, List.cons_append, List.nil_append, scanFrom_char hlone]
      rfl
  | lineComment => exact scanFrom_mark rfl t
  | blockComment => exact scanFrom_mark rfl t

/-- Nothing is found in a closed passage, and behind it the scan is back in code. -/
theorem scanFrom_closed {kind : Passage} (h : kind.Body body) (pre rest : Text) :
    scanFrom (modeOf kind) (.behind pre) (body ++ (kind.closing ++ rest)) =
      scanFrom .code (.behind (pre ++ body ++ kind.closing)) rest := by
  cases kind with
  | string => exact scanFrom_stringBody h pre rest
  | lineComment =>
      rw [modeOf, scanFrom_lineBody h]
      exact scanFrom_skip (by simp) fun _ _ _ => rfl
  | blockComment => exact scanFrom_commentBody h 0 pre rest

/-- Nothing is found in a passage that is not closed. -/
theorem scanFrom_unclosed {kind : Passage} (h : kind.Unclosed t) (pre : Text) :
    scanFrom (modeOf kind) (.behind pre) t = [] := by
  cases kind with
  | string => exact scanFrom_unclosedString h pre
  | lineComment =>
      have hread := scanFrom_lineBody h pre []
      rwa [List.append_nil, scanFrom] at hread
  | blockComment => exact scanFrom_unclosedComment h 0 pre

end BracketToken

namespace Lexeme

open BracketToken

/-- The token of a lexeme behind a text: a single character that is a bracket. -/
def token? (pre : Text) : Lexeme → Option BracketToken
  | passage _ _ => none
  | single c => (BracketKind.ofChar? c).map fun (kind, opens) => ⟨kind, opens, .counted pre⟩

/-- The tokens of some lexemes behind a text, in order. -/
def tokensFrom (pre : Text) : List Lexeme → List BracketToken
  | [] => []
  | s :: lexemes => (s.token? pre).toList ++ tokensFrom (pre ++ s.text) lexemes

/-- The scan finds the token of the lexeme that it reads, and goes on behind it. -/
theorem scanFrom_reads {s : Lexeme} {rest : Text} (h : s.Reads rest) (pre : Text) :
    scanFrom .code (.behind pre) (s.text ++ rest) =
      (s.token? pre).toList ++ scanFrom .code (.behind (pre ++ s.text)) rest := by
  cases h with
  | closed hbody =>
      simp only [text, List.append_assoc]
      rw [scanFrom_opening, scanFrom_closed hbody]
      simp [token?]
  | unclosed hunclosed =>
      rw [text, List.append_nil, scanFrom_opening, scanFrom_unclosed hunclosed]
      rfl
  | @single c rest hnone =>
      have hlone : ∀ d t', rest = d :: t' → mark? .code c d = none := by
        rintro d t' rfl
        have hline := hnone .lineComment
        have hblock := hnone .blockComment
        simp only [Passage.opening, List.cons_prefix_cons, List.nil_prefix, and_true,
          eq_comm] at hline hblock
        rw [mark?, if_neg hline, if_neg hblock]
      have hquote : c ≠ '"' := by
        rintro rfl
        exact hnone .string ⟨rest, rfl⟩
      rw [text, List.cons_append, List.nil_append, scanFrom_char hlone, if_pos rfl, nextMode,
        if_neg hquote, token?, ← Place.behind_eq_counted]
      rfl

theorem scanFrom_splits {source : Text} {lexemes : List Lexeme} (h : Splits source lexemes)
    (pre : Text) : scanFrom .code (.behind pre) source = tokensFrom pre lexemes := by
  induction h generalizing pre with
  | nil => rfl
  | cons hread _ ih => rw [scanFrom_reads hread, ih, tokensFrom]

/-- **The scan finds exactly the brackets of code.**  Every source splits into lexemes in
exactly one way, and its tokens are, in order, one for each bracket that is a lexeme of its own;
the token has the kind and the direction of the character, and as its place the line feeds, the
units since the last line feed and the bytes before it. -/
theorem scan_eq_tokensFrom (source : Text) :
    ∃ lexemes, Splits source lexemes ∧ (∀ others, Splits source others → others = lexemes) ∧
      lexemes.flatMap text = source ∧ scan source = tokensFrom [] lexemes := by
  obtain ⟨lexemes, hlexemes⟩ := exists_splits source
  exact ⟨lexemes, hlexemes, fun others hothers => hothers.unique hlexemes, hlexemes.text_eq,
    scanFrom_splits hlexemes []⟩

/-- The slash behind `/*` closes nothing, so only the last bracket is code. -/
example : (scan "/*/(*/)".toList).map (·.place) = [⟨0, 6, 6⟩] := by decide +kernel

end Lexeme

end MathTyping
