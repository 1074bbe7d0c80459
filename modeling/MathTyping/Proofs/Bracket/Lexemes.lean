import MathTyping.Text.Measure

/-!
# The lexemes of a source

Read from left to right, a source falls into passages, in which brackets do not
count, and single characters.  The passages are strings, line comments and block
comments.  A string runs to the next double quote that no backslash escapes, a
line comment through the next line feed, and a block comment to the mark that
closes it, comments inside it included.  A passage that is never closed runs to
the end of the source.

All this is said by grammars, without a scanner.  They leave no choice: every
source has exactly one list of lexemes (`exists_splits`, `Splits.unique`).
-/

namespace MathTyping

/-- A part of a source in which brackets do not count. -/
inductive Passage where
  | string
  | lineComment
  | blockComment
deriving DecidableEq, Repr

namespace Passage

/-- What a passage starts with. -/
def opening : Passage → Text
  | string => ['"']
  | lineComment => ['/', '/']
  | blockComment => ['/', '*']

/-- What closes a passage. -/
def closing : Passage → Text
  | string => ['"']
  | lineComment => ['\n']
  | blockComment => ['*', '/']

/-- A text between the quotes of a string: a backslash escapes the character behind it. -/
inductive StringBody : Text → Prop
  | nil : StringBody []
  | plain {c : Char} {t : Text} (hquote : c ≠ '"') (hescape : c ≠ '\\') (h : StringBody t) :
      StringBody (c :: t)
  | escaped (c : Char) {t : Text} (h : StringBody t) : StringBody ('\\' :: c :: t)

/-- A text that starts inside a string and ends inside it, perhaps in a backslash that has
nothing to escape. -/
inductive UnclosedString : Text → Prop
  | nil : UnclosedString []
  | dangling : UnclosedString ['\\']
  | plain {c : Char} {t : Text} (hquote : c ≠ '"') (hescape : c ≠ '\\')
      (h : UnclosedString t) : UnclosedString (c :: t)
  | escaped (c : Char) {t : Text} (h : UnclosedString t) : UnclosedString ('\\' :: c :: t)

/-- A text starts with a mark that opens or closes a block comment. -/
def StartsMark (t : Text) : Prop := ['/', '*'] <+: t ∨ ['*', '/'] <+: t

/-- A text between the marks of a block comment: comments, and characters that start no mark
where they stand. -/
inductive CommentBody : Text → Prop
  | nil : CommentBody []
  | plain {c : Char} {t : Text} (hmark : ¬ StartsMark (c :: (t ++ ['*', '/'])))
      (h : CommentBody t) : CommentBody (c :: t)
  | nested {inner t : Text} (hinner : CommentBody inner) (h : CommentBody t) :
      CommentBody ('/' :: '*' :: (inner ++ '*' :: '/' :: t))

/-- A text that starts inside a block comment and ends inside it. -/
inductive UnclosedComment : Text → Prop
  | nil : UnclosedComment []
  | plain {c : Char} {t : Text} (hmark : ¬ StartsMark (c :: t)) (h : UnclosedComment t) :
      UnclosedComment (c :: t)
  | nested {inner t : Text} (hinner : CommentBody inner) (h : UnclosedComment t) :
      UnclosedComment ('/' :: '*' :: (inner ++ '*' :: '/' :: t))
  | unclosed {t : Text} (h : UnclosedComment t) : UnclosedComment ('/' :: '*' :: t)

/-- What may stand between the two ends of a passage. -/
def Body : Passage → Text → Prop
  | string, t => StringBody t
  | lineComment, t => '\n' ∉ t
  | blockComment, t => CommentBody t

/-- What may follow the opening of a passage that runs to the end of the source. -/
def Unclosed : Passage → Text → Prop
  | string, t => UnclosedString t
  | lineComment, t => '\n' ∉ t
  | blockComment, t => UnclosedComment t

/-! ### Marks of comments -/

theorem startsMark_cons_iff {c : Char} {t : Text} :
    StartsMark (c :: t) ↔ c = '/' ∧ t.head? = some '*' ∨ c = '*' ∧ t.head? = some '/' := by
  cases t with
  | nil => simp [StartsMark]
  | cons d t => simp [StartsMark, List.cons_prefix_cons, eq_comm]

theorem startsMark_opening (t : Text) : StartsMark ('/' :: '*' :: t) := Or.inl ⟨t, rfl⟩

theorem startsMark_closing (t : Text) : StartsMark ('*' :: '/' :: t) := Or.inr ⟨t, rfl⟩

/-- Whether a mark starts before the end of a comment does not depend on what follows it. -/
theorem startsMark_append_iff {c : Char} {t : Text} (rest : Text) :
    StartsMark (c :: t ++ '*' :: '/' :: rest) ↔ StartsMark (c :: (t ++ ['*', '/'])) := by
  rw [List.cons_append, startsMark_cons_iff, startsMark_cons_iff]
  cases t <;> rfl

/-! ### A passage is closed or not -/

theorem string_closed_or_unclosed (t : Text) :
    (∃ body rest, StringBody body ∧ t = body ++ '"' :: rest) ∨ UnclosedString t := by
  cases t with
  | nil => exact Or.inr .nil
  | cons c t =>
      by_cases hquote : c = '"'
      · exact Or.inl ⟨[], t, .nil, by rw [hquote]; rfl⟩
      by_cases hescape : c = '\\'
      · subst hescape
        cases t with
        | nil => exact Or.inr .dangling
        | cons d t =>
            rcases string_closed_or_unclosed t with ⟨body, rest, hbody, rfl⟩ | hunclosed
            · exact Or.inl ⟨'\\' :: d :: body, rest, .escaped d hbody, rfl⟩
            · exact Or.inr (.escaped d hunclosed)
      · rcases string_closed_or_unclosed t with ⟨body, rest, hbody, rfl⟩ | hunclosed
        · exact Or.inl ⟨c :: body, rest, .plain hquote hescape hbody, rfl⟩
        · exact Or.inr (.plain hquote hescape hunclosed)
termination_by t.length

theorem comment_closed_or_unclosed (t : Text) :
    (∃ body rest, CommentBody body ∧ t = body ++ '*' :: '/' :: rest) ∨ UnclosedComment t := by
  cases t with
  | nil => exact Or.inr .nil
  | cons c t =>
      by_cases hmark : StartsMark (c :: t)
      · rcases startsMark_cons_iff.mp hmark with ⟨rfl, hopen⟩ | ⟨rfl, hclose⟩
        · obtain ⟨t, rfl⟩ := List.head?_eq_some_iff.mp hopen
          rcases comment_closed_or_unclosed t with ⟨inner, rest, hinner, rfl⟩ | hunclosed
          · -- Behind the inner comment the outer one goes on.
            rcases comment_closed_or_unclosed rest with ⟨body, rest, hbody, rfl⟩ | hunclosed
            · exact Or.inl ⟨_, rest, .nested hinner hbody, by simp⟩
            · exact Or.inr (.nested hinner hunclosed)
          · exact Or.inr (.unclosed hunclosed)
        · obtain ⟨t, rfl⟩ := List.head?_eq_some_iff.mp hclose
          exact Or.inl ⟨[], t, .nil, rfl⟩
      · rcases comment_closed_or_unclosed t with ⟨body, rest, hbody, rfl⟩ | hunclosed
        · rw [← List.cons_append, startsMark_append_iff] at hmark
          exact Or.inl ⟨c :: body, rest, .plain hmark hbody, rfl⟩
        · exact Or.inr (.plain hmark hunclosed)
termination_by t.length

/-- A text behind the opening of a passage closes it, or ends inside it. -/
theorem closed_or_unclosed (kind : Passage) (t : Text) :
    (∃ body rest, kind.Body body ∧ t = body ++ (kind.closing ++ rest)) ∨ kind.Unclosed t := by
  cases kind with
  | string => exact string_closed_or_unclosed t
  | lineComment =>
      by_cases hfeed : '\n' ∈ t
      · obtain ⟨body, rest, rfl, hbody⟩ := List.eq_append_cons_of_mem hfeed
        exact Or.inl ⟨body, rest, hbody, rfl⟩
      · exact Or.inr hfeed
  | blockComment => exact comment_closed_or_unclosed t

/-! ### A passage is closed at one place only -/

section Unique

variable {body other rest more : Text}

theorem StringBody.unique (h : StringBody body) (hother : StringBody other)
    (heq : body ++ '"' :: rest = other ++ '"' :: more) : body = other ∧ rest = more := by
  induction h generalizing other with
  | nil =>
      cases hother with
      | nil => simpa using heq
      | plain hquote => simp [hquote.symm] at heq
      | escaped => simp at heq
  | plain hquote hescape _ ih =>
      cases hother with
      | nil => simp [hquote] at heq
      | plain _ _ hother =>
          obtain ⟨rfl, htail⟩ := List.cons_eq_cons.mp heq
          obtain ⟨rfl, hrest⟩ := ih hother htail
          exact ⟨rfl, hrest⟩
      | escaped => simp [hescape] at heq
  | escaped c _ ih =>
      cases hother with
      | nil => simp at heq
      | plain _ hescape => simp [hescape.symm] at heq
      | escaped d hother =>
          obtain ⟨rfl, htail⟩ := List.cons_eq_cons.mp (List.cons_eq_cons.mp heq).2
          obtain ⟨rfl, hrest⟩ := ih hother htail
          exact ⟨rfl, hrest⟩

theorem StringBody.not_unclosed {t : Text} (h : StringBody body) (ht : UnclosedString t) :
    t ≠ body ++ '"' :: rest := by
  intro heq
  induction h generalizing t with
  | nil =>
      cases ht with
      | plain hquote => simp [hquote] at heq
      | _ => simp at heq
  | plain hquote hescape _ ih =>
      cases ht with
      | plain _ _ ht => exact ih ht (List.cons_eq_cons.mp heq).2
      | nil => simp at heq
      | dangling | escaped => simp [hescape.symm] at heq
  | escaped c _ ih =>
      cases ht with
      | plain _ hescape => simp [hescape] at heq
      | escaped _ ht => exact ih ht (List.cons_eq_cons.mp (List.cons_eq_cons.mp heq).2).2
      | nil | dangling => simp at heq

theorem CommentBody.unique (h : CommentBody body) (hother : CommentBody other)
    (heq : body ++ '*' :: '/' :: rest = other ++ '*' :: '/' :: more) :
    body = other ∧ rest = more := by
  induction h generalizing other rest more with
  | nil =>
      cases hother with
      | nil => simpa using heq
      | plain hmark =>
          rw [← startsMark_append_iff more, ← heq] at hmark
          exact absurd (startsMark_closing rest) hmark
      | nested => simp at heq
  | plain hmark _ ih =>
      rw [← startsMark_append_iff rest] at hmark
      cases hother with
      | nil =>
          rw [heq] at hmark
          exact absurd (startsMark_closing more) hmark
      | plain _ hother =>
          obtain ⟨rfl, htail⟩ := List.cons_eq_cons.mp heq
          obtain ⟨rfl, hrest⟩ := ih hother htail
          exact ⟨rfl, hrest⟩
      | nested =>
          rw [heq] at hmark
          exact absurd (startsMark_opening _) hmark
  | nested _ _ ihinner ih =>
      cases hother with
      | nil => simp at heq
      | plain hmark =>
          rw [← startsMark_append_iff more, ← heq] at hmark
          exact absurd (startsMark_opening _) hmark
      | nested hinner hother =>
          -- First the inner comments end together, then the outer ones.
          simp only [List.cons_append, List.append_assoc, List.cons.injEq, true_and] at heq
          obtain ⟨rfl, htail⟩ := ihinner hinner heq
          obtain ⟨rfl, hrest⟩ := ih hother htail
          exact ⟨rfl, hrest⟩

theorem CommentBody.not_unclosed {t : Text} (h : CommentBody body) (ht : UnclosedComment t) :
    t ≠ body ++ '*' :: '/' :: rest := by
  intro heq
  induction h generalizing t rest with
  | nil =>
      cases ht with
      | plain hmark =>
          rw [heq] at hmark
          exact hmark (startsMark_closing rest)
      | _ => simp at heq
  | plain hmark _ ih =>
      rw [← startsMark_append_iff rest, ← heq] at hmark
      cases ht with
      | nil => simp at heq
      | plain _ ht => exact ih ht (List.cons_eq_cons.mp heq).2
      | nested | unclosed => exact hmark (startsMark_opening _)
  | nested hinner _ ihinner ih =>
      simp only [List.cons_append, List.append_assoc] at heq
      cases ht with
      | nil => simp at heq
      | plain hmark =>
          rw [heq] at hmark
          exact hmark (startsMark_opening _)
      | nested hother ht =>
          simp only [List.cons.injEq, true_and] at heq
          obtain ⟨rfl, htail⟩ := hother.unique hinner heq
          exact ih ht htail
      | unclosed ht =>
          simp only [List.cons.injEq, true_and] at heq
          exact ihinner ht heq

/-- A closed passage ends at one place. -/
theorem Body.unique {kind : Passage} (h : kind.Body body) (hother : kind.Body other)
    (heq : body ++ (kind.closing ++ rest) = other ++ (kind.closing ++ more)) :
    body = other ∧ rest = more := by
  cases kind with
  | string => exact StringBody.unique h hother heq
  | lineComment =>
      rcases List.append_eq_append_iff.mp heq with ⟨mid, rfl, hmid⟩ | ⟨mid, rfl, hmid⟩
      · cases mid with
        | nil => simpa using hmid
        | cons c mid =>
            obtain ⟨rfl, -⟩ := List.cons_eq_cons.mp hmid
            exact absurd (by simp) hother
      · cases mid with
        | nil => simpa [eq_comm] using hmid
        | cons c mid =>
            obtain ⟨rfl, -⟩ := List.cons_eq_cons.mp hmid
            exact absurd (by simp) h
  | blockComment => exact CommentBody.unique h hother heq

/-- A closed passage does not run to the end. -/
theorem Body.not_unclosed {kind : Passage} (h : kind.Body body) :
    ¬ kind.Unclosed (body ++ (kind.closing ++ rest)) := by
  intro hunclosed
  cases kind with
  | string => exact StringBody.not_unclosed h hunclosed rfl
  | lineComment => exact hunclosed (by simp [closing])
  | blockComment => exact CommentBody.not_unclosed h hunclosed rfl

end Unique

/-- A text starts with the opening of one passage at most. -/
theorem opening_unique {kind other : Passage} {t : Text} (h : kind.opening <+: t)
    (hother : other.opening <+: t) : kind = other := by
  obtain ⟨rest, rfl⟩ := h
  cases kind <;> cases other <;> first | rfl | simp [opening] at hother

end Passage

/-- A lexeme of a source, with its text. -/
inductive Lexeme where
  | passage (kind : Passage) (text : Text)
  | single (c : Char)
deriving DecidableEq, Repr

namespace Lexeme

/-- The text of a lexeme. -/
def text : Lexeme → Text
  | passage _ t => t
  | single c => [c]

/-- A lexeme is read off where a source goes on with a rest: a passage that is closed there or
runs to the end, or else a single character that opens none. -/
inductive Reads : Lexeme → Text → Prop
  | closed {kind : Passage} {body : Text} (h : kind.Body body) (rest : Text) :
      Reads (.passage kind (kind.opening ++ body ++ kind.closing)) rest
  | unclosed {kind : Passage} {body : Text} (h : kind.Unclosed body) :
      Reads (.passage kind (kind.opening ++ body)) []
  | single {c : Char} {rest : Text} (h : ∀ kind : Passage, ¬ kind.opening <+: c :: rest) :
      Reads (.single c) rest

/-- A source splits into lexemes, each read off in front of what is left. -/
inductive Splits : Text → List Lexeme → Prop
  | nil : Splits [] []
  | cons {s : Lexeme} {rest : Text} {lexemes : List Lexeme} (hread : s.Reads rest)
      (h : Splits rest lexemes) : Splits (s.text ++ rest) (s :: lexemes)

/-- The lexemes of a source are its text. -/
theorem Splits.text_eq {source : Text} {lexemes : List Lexeme} (h : Splits source lexemes) :
    lexemes.flatMap text = source := by
  induction h with
  | nil => rfl
  | cons hread _ ih => rw [List.flatMap_cons, ih]

theorem text_ne_nil {s : Lexeme} {rest : Text} (h : s.Reads rest) : s.text ≠ [] := by
  cases h with
  | @closed kind | @unclosed kind => cases kind <;> simp [text, Passage.opening]
  | single => simp [text]

/-- Some lexeme is read off every text. -/
theorem exists_reads (c : Char) (t : Text) :
    ∃ (s : Lexeme) (rest : Text), s.Reads rest ∧ c :: t = s.text ++ rest := by
  by_cases hopening : ∃ kind : Passage, kind.opening <+: c :: t
  · obtain ⟨kind, t', ht⟩ := hopening
    rcases kind.closed_or_unclosed t' with ⟨body, rest, hbody, rfl⟩ | hunclosed
    · exact ⟨_, rest, .closed hbody rest, by simp [text, ← ht]⟩
    · exact ⟨_, [], .unclosed hunclosed, by simp [text, ← ht]⟩
  · exact ⟨.single c, t, .single (not_exists.mp hopening), rfl⟩

theorem Reads.opening_prefix {kind : Passage} {t rest : Text}
    (h : (passage kind t).Reads rest) : kind.opening <+: t ++ rest := by
  cases h with
  | closed => simp
  | unclosed => simp

/-- A passage that is read off a text ends at one place. -/
theorem Reads.passage_unique {kind : Passage} {t u rest more : Text}
    (h : (passage kind t).Reads rest) (hother : (passage kind u).Reads more)
    (heq : t ++ rest = u ++ more) : t = u ∧ rest = more := by
  cases h with
  | closed hbody =>
      cases hother with
      | closed hotherBody =>
          simp only [List.append_assoc, List.append_cancel_left_eq] at heq
          obtain ⟨rfl, rfl⟩ := hbody.unique hotherBody heq
          exact ⟨rfl, rfl⟩
      | unclosed hunclosed =>
          simp only [List.append_assoc, List.append_nil, List.append_cancel_left_eq] at heq
          rw [← heq] at hunclosed
          exact absurd hunclosed hbody.not_unclosed
  | unclosed hunclosed =>
      cases hother with
      | closed hbody =>
          simp only [List.append_assoc, List.append_nil, List.append_cancel_left_eq] at heq
          rw [heq] at hunclosed
          exact absurd hunclosed hbody.not_unclosed
      | unclosed => exact ⟨by simpa using heq, rfl⟩

/-- At most one lexeme is read off a text. -/
theorem Reads.unique {s other : Lexeme} {rest more : Text} (h : s.Reads rest)
    (hother : other.Reads more) (heq : s.text ++ rest = other.text ++ more) :
    s = other ∧ rest = more := by
  cases s with
  | passage kind t =>
      have hopening : kind.opening <+: other.text ++ more := by
        rw [← heq]
        exact h.opening_prefix
      cases other with
      | passage otherKind u =>
          obtain rfl := Passage.opening_unique hopening hother.opening_prefix
          obtain ⟨rfl, hrest⟩ := h.passage_unique hother heq
          exact ⟨rfl, hrest⟩
      | single c =>
          cases hother with
          | single hnone => exact absurd hopening (hnone kind)
  | single c =>
      cases h with
      | single hnone =>
          cases other with
          | passage kind u =>
              have hopening : kind.opening <+: [c] ++ rest := by
                rw [show [c] ++ rest = u ++ more from heq]
                exact hother.opening_prefix
              exact absurd hopening (hnone kind)
          | single d =>
              obtain ⟨rfl, rfl⟩ := List.cons_eq_cons.mp heq
              exact ⟨rfl, rfl⟩

/-- Every source splits into lexemes. -/
theorem exists_splits (source : Text) : ∃ lexemes, Splits source lexemes := by
  cases source with
  | nil => exact ⟨[], .nil⟩
  | cons c t =>
      obtain ⟨s, rest, hread, heq⟩ := exists_reads c t
      have hshorter : rest.length ≤ t.length := by
        have hlength := congrArg List.length heq
        have hpos := List.length_pos_iff.mpr (text_ne_nil hread)
        rw [List.length_cons, List.length_append] at hlength
        omega
      obtain ⟨lexemes, hlexemes⟩ := exists_splits rest
      exact ⟨s :: lexemes, heq ▸ .cons hread hlexemes⟩
termination_by source.length

/-- A source splits into lexemes in one way only. -/
theorem Splits.unique {source : Text} {lexemes others : List Lexeme}
    (h : Splits source lexemes) (hothers : Splits source others) : lexemes = others := by
  induction h generalizing others with
  | nil =>
      generalize hsource : [] = source at hothers
      cases hothers with
      | nil => rfl
      | cons hread =>
          exact absurd (List.append_eq_nil_iff.mp hsource.symm).1 (text_ne_nil hread)
  | @cons s rest lexemes hread _ ih =>
      generalize hsource : s.text ++ rest = source at hothers
      cases hothers with
      | nil => exact absurd (List.append_eq_nil_iff.mp hsource).1 (text_ne_nil hread)
      | cons hother hothers =>
          obtain ⟨rfl, rfl⟩ := hread.unique hother hsource
          rw [ih hothers]

end Lexeme

end MathTyping
