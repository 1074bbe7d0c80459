import MathTyping.Proofs.Query.Triggers

/-!
# The longest end of a text that is a query

Detection passes over the places where a query may start, from the left, and takes
the first end of the text that it can read.  `FirstTail` says what that is without
the walk, and `scanTails_eq_some_iff` that the walk finds it.  For symbols an end
can be read or not for what it is, so that the first end is the longest one of the
right form behind a boundary (`symbol_is_longest_tail`).
-/

namespace MathTyping

namespace Query

/-! ### The first end -/

section

variable {α : Type} {boundary : Char → Bool} {read : Text → Option α}

/-- Tell whether a query may start behind a text; `fresh` is the answer for no text at all. -/
def mayStart (boundary : Char → Bool) (fresh : Bool) : Text → Bool
  | [] => fresh
  | c :: t => mayStart boundary (boundary c) t

theorem mayStart_concat (boundary : Char → Bool) (fresh : Bool) (t : Text) (c : Char) :
    mayStart boundary fresh (t ++ [c]) = boundary c := by
  induction t generalizing fresh with
  | nil => rfl
  | cons d t ih => exact ih (boundary d)

/-- The first end of a text that can be read where a query may start. -/
structure FirstTail (boundary : Char → Bool) (read : Text → Option α) (fresh : Bool)
    (t dropped tail : Text) : Prop where
  text : t = dropped ++ tail
  start : mayStart boundary fresh dropped
  first : ∀ earlier later, t = earlier ++ later → mayStart boundary fresh earlier →
    earlier.length < dropped.length → read later = none

/-- There is only one first end that can be read. -/
theorem FirstTail.unique {fresh : Bool} {t dropped tail other rest : Text} {a b : α}
    (h : FirstTail boundary read fresh t dropped tail) (ha : read tail = some a)
    (hother : FirstTail boundary read fresh t other rest) (hb : read rest = some b) :
    dropped = other ∧ tail = rest := by
  rcases Nat.lt_trichotomy dropped.length other.length with hlt | heq | hlt
  · rw [hother.first _ _ h.text h.start hlt] at ha
    contradiction
  · exact List.append_inj (h.text.symm.trans hother.text) heq
  · rw [h.first _ _ hother.text hother.start hlt] at hb
    contradiction

/-- A scan that finds nothing has passed no end that can be read. -/
theorem scanTails_eq_none (hread : read [] = none) {column : Nat} {fresh : Bool} {t : Text}
    (h : scanTails boundary read column fresh t = none) {dropped tail : Text}
    (htext : t = dropped ++ tail) (hstart : mayStart boundary fresh dropped) :
    read tail = none := by
  induction t generalizing column fresh dropped with
  | nil =>
      obtain ⟨rfl, rfl⟩ := List.append_eq_nil_iff.mp htext.symm
      exact hread
  | cons c t ih =>
      rw [scanTails] at h
      split at h
      · contradiction
      · rename_i hhere
        cases dropped with
        | nil =>
            rw [mayStart] at hstart
            rw [hstart, if_pos rfl, htext] at hhere
            exact hhere
        | cons d dropped =>
            obtain ⟨rfl, rfl⟩ := List.cons.inj htext
            exact ih h rfl hstart

/-- What a scan finds is the first end that can be read. -/
theorem firstTail_of_scanTails {column stop : Nat} {fresh : Bool} {t : Text} {a : α}
    (h : scanTails boundary read column fresh t = some (stop, a)) :
    ∃ dropped tail, FirstTail boundary read fresh t dropped tail ∧ read tail = some a ∧
      stop = column + dropped.units := by
  induction t generalizing column fresh with
  | nil => contradiction
  | cons c t ih =>
      rw [scanTails] at h
      split at h
      · rename_i hhere
        obtain ⟨rfl, rfl⟩ := Prod.mk.inj (Option.some.inj h)
        cases hfresh : fresh with
        | false =>
            rw [hfresh] at hhere
            contradiction
        | true =>
            rw [hfresh] at hhere
            exact ⟨[], c :: t, ⟨rfl, rfl, fun _ _ _ _ hlt => absurd hlt (Nat.not_lt_zero _)⟩,
              hhere, rfl⟩
      · rename_i hhere
        obtain ⟨dropped, tail, hfirst, ha, rfl⟩ := ih h
        refine ⟨c :: dropped, tail, ⟨by rw [hfirst.text]; rfl, hfirst.start, ?_⟩, ha, ?_⟩
        · intro earlier later htext hstart hlt
          cases earlier with
          | nil =>
              rw [mayStart] at hstart
              rw [hstart, if_pos rfl, htext] at hhere
              exact hhere
          | cons d earlier =>
              obtain ⟨rfl, rfl⟩ := List.cons.inj htext
              exact hfirst.first _ _ rfl hstart (Nat.lt_of_succ_lt_succ hlt)
        · rw [Text.units_cons, Nat.add_assoc]

/-- As soon as some end can be read there is a first one. -/
theorem exists_firstTail (hread : read [] = none) {t dropped tail : Text} {a : α}
    (htext : t = dropped ++ tail) (hstart : mayStart boundary true dropped)
    (ha : read tail = some a) :
    ∃ other rest, FirstTail boundary read true t other rest ∧ ∃ b, read rest = some b ∧
      other.length ≤ dropped.length := by
  cases hscan : scanTails boundary read 0 true t with
  | none =>
      rw [scanTails_eq_none hread hscan htext hstart] at ha
      contradiction
  | some found =>
      obtain ⟨other, rest, hfirst, hb, -⟩ := firstTail_of_scanTails hscan
      refine ⟨other, rest, hfirst, _, hb, Nat.le_of_not_lt fun hlt => ?_⟩
      rw [hfirst.first _ _ htext hstart hlt] at ha
      contradiction

/-- **A scan finds the first end that can be read, and nothing else.** -/
theorem scanTails_eq_some_iff (hread : read [] = none) {t : Text} {stop : Nat} {a : α} :
    scanTails boundary read 0 true t = some (stop, a) ↔
      ∃ dropped tail, FirstTail boundary read true t dropped tail ∧ read tail = some a ∧
        stop = dropped.units := by
  constructor
  · intro h
    obtain ⟨dropped, tail, hfirst, ha, hstop⟩ := firstTail_of_scanTails h
    exact ⟨dropped, tail, hfirst, ha, by rw [hstop, Nat.zero_add]⟩
  · rintro ⟨dropped, tail, hfirst, ha, rfl⟩
    cases hscan : scanTails boundary read 0 true t with
    | none =>
        rw [scanTails_eq_none hread hscan hfirst.text hfirst.start] at ha
        contradiction
    | some found =>
        obtain ⟨other, rest, hother, hb, hstop⟩ := firstTail_of_scanTails hscan
        obtain ⟨rfl, rfl⟩ := hfirst.unique ha hother hb
        rw [ha] at hb
        rw [Option.some.inj hb, ← Nat.zero_add dropped.units, ← hstop]

end

/-! ### Symbols -/

/-- A name or a shorthand: two or more letters and dots, or two or more operators. -/
def IsName (body : Text) : Prop :=
  2 ≤ body.length ∧ ((∀ c ∈ body, ('a' ≤ c ∧ c ≤ 'z') ∨ ('A' ≤ c ∧ c ≤ 'Z') ∨ c = '.') ∨
    ∀ c ∈ body, c ∈ "-<>|=[]~:".toList)

/-- A symbol that can be asked for: a name or a shorthand, perhaps behind a backslash. -/
def IsSymbol (s : Text) : Prop := ∃ body, IsName body ∧ (s = body ∨ s = '\\' :: body)

/-- A symbol query may start behind a text: the text is empty, or it ends with a blank, a
decimal digit or punctuation. -/
def OpensSymbol (dropped : Text) : Prop :=
  dropped = [] ∨ ∃ c, dropped.getLast? = some c ∧
    (isBlank c ∨ isDecimalDigit c ∨ c ∈ "$()[]\x7b\x7d<>+-/*=!?#%&\x27:;,^_".toList)

/-- The end of a text from a place on is a symbol that can be asked for there. -/
structure SymbolTail (t dropped s : Text) : Prop where
  text : t = dropped ++ s
  symbol : IsSymbol s
  opens : OpensSymbol dropped

theorem isNameChar_iff (c : Char) :
    isNameChar c ↔ ('a' ≤ c ∧ c ≤ 'z') ∨ ('A' ≤ c ∧ c ≤ 'Z') ∨ c = '.' := by
  simp only [isNameChar, isLetter, Bool.or_eq_true, Bool.and_eq_true, decide_eq_true_eq,
    beq_iff_eq, or_assoc]

theorem isOperatorChar_iff (c : Char) : isOperatorChar c ↔ c ∈ "-<>|=[]~:".toList :=
  List.contains_iff_mem

theorem isRun_iff {allowed : Char → Bool} {t : Text} :
    isRun allowed t ↔ 2 ≤ t.length ∧ ∀ c ∈ t, allowed c := by
  rw [isRun, Bool.and_eq_true, decide_eq_true_eq, List.all_eq_true]

theorem beforeSymbol_iff (c : Char) :
    beforeSymbol c ↔ isBlank c ∨ isDecimalDigit c ∨
      c ∈ "$()[]\x7b\x7d<>+-/*=!?#%&\x27:;,^_".toList := by
  have hmarks : "$()[]\x7b\x7d<>+-/*=!?#%&\x27:;,^_".toList =
      "$()[]\x7b\x7d<>+-/*=!?#%&\x27:;,".toList ++ ['^', '_'] := by
    decide
  rw [hmarks]
  simp only [beforeSymbol, isBoundaryMark, Bool.or_eq_true, List.contains_iff_mem, beq_iff_eq,
    List.mem_append, List.mem_cons, List.not_mem_nil, or_false]
  tauto

theorem mayStart_beforeSymbol_iff (t : Text) : mayStart beforeSymbol true t ↔ OpensSymbol t := by
  rcases List.eq_nil_or_concat t with rfl | ⟨init, c, rfl⟩
  · exact iff_of_true rfl (Or.inl rfl)
  · rw [List.concat_eq_append, mayStart_concat, beforeSymbol_iff, OpensSymbol,
      List.getLast?_concat]
    simp

theorem isName_iff (body : Text) :
    (isRun isNameChar body || isRun isOperatorChar body) = true ↔ IsName body := by
  simp only [Bool.or_eq_true, isRun_iff, isNameChar_iff, isOperatorChar_iff, ← and_or_left]
  rfl

theorem IsName.backslash_notMem {body : Text} (h : IsName body) : '\\' ∉ body := by
  intro hmem
  rcases h.2 with hname | hoperator
  · exact absurd (hname _ hmem) (by decide)
  · exact absurd (hoperator _ hmem) (by decide)

/-- A text is read as a symbol for what it is. -/
theorem readSymbol?_eq_some_iff {t word : Text} :
    readSymbol? t = some word ↔ t = word ∧ IsSymbol t := by
  unfold readSymbol?
  dsimp only
  split
  · rename_i rest
    rw [Option.ite_none_right_eq_some, isName_iff, Option.some.injEq, and_comm]
    refine and_congr_right fun _ => ⟨fun h => ⟨rest, h, Or.inr rfl⟩, ?_⟩
    rintro ⟨body, h, rfl | heq⟩
    · exact absurd List.mem_cons_self h.backslash_notMem
    · obtain ⟨-, rfl⟩ := List.cons.inj heq
      exact h
  · rename_i hslash
    rw [Option.ite_none_right_eq_some, isName_iff, Option.some.injEq, and_comm]
    refine and_congr_right fun _ => ⟨fun h => ⟨t, h, Or.inl rfl⟩, ?_⟩
    rintro ⟨body, h, rfl | rfl⟩
    · exact h
    · exact absurd rfl (hslash body)

/-- The first end that is read as a symbol is the longest end that is one. -/
theorem firstTail_symbol_iff {t dropped s : Text} :
    FirstTail beforeSymbol readSymbol? true t dropped s ∧ IsSymbol s ↔
      SymbolTail t dropped s ∧ ∀ earlier later, SymbolTail t earlier later →
        later.length ≤ s.length := by
  constructor
  · rintro ⟨hfirst, hs⟩
    refine ⟨⟨hfirst.text, hs, (mayStart_beforeSymbol_iff _).mp hfirst.start⟩, ?_⟩
    intro earlier later hlater
    by_contra hlonger
    have hlength := congrArg List.length (hfirst.text.symm.trans hlater.text)
    rw [List.length_append, List.length_append] at hlength
    have hnone := hfirst.first _ _ hlater.text ((mayStart_beforeSymbol_iff _).mpr hlater.opens)
      (by omega)
    rw [readSymbol?_eq_some_iff.mpr ⟨rfl, hlater.symbol⟩] at hnone
    contradiction
  · rintro ⟨htail, hlongest⟩
    refine ⟨⟨htail.text, (mayStart_beforeSymbol_iff _).mpr htail.opens, ?_⟩, htail.symbol⟩
    intro earlier later htext hstart hlt
    cases hread : readSymbol? later with
    | none => rfl
    | some word =>
        obtain ⟨-, hlater⟩ := readSymbol?_eq_some_iff.mp hread
        have hle := hlongest _ _ ⟨htext, hlater, (mayStart_beforeSymbol_iff _).mp hstart⟩
        have hlength := congrArg List.length (htail.text.symm.trans htext)
        rw [List.length_append, List.length_append] at hlength
        omega

/-- Behind another character than an at sign or a space, a symbol is looked for. -/
theorem detect?_symbol {before : Text} (cursor : Position) (hat : before.getLast? ≠ some '@')
    (hspace : before.getLast? ≠ some ' ') :
    detect? before cursor = (scanTails beforeSymbol readSymbol? 0 true before).map
      fun (column, word) => ⟨.symbol, word, none, ⟨cursor.line, column⟩⟩ := by
  rw [detect?]
  cases hlast : before.getLast? with
  | none =>
      rw [List.getLast?_eq_none_iff.mp hlast]
      rfl
  | some last =>
      rw [hlast] at hat hspace
      dsimp only
      rw [if_neg fun heq => hat (by rw [heq]), if_neg fun heq => hspace (by rw [heq])]

/-- **A symbol query is the longest end of the text that has the form of one** and stands where
one may start, and there is a query as soon as there is such an end. -/
theorem symbol_is_longest_tail (before : Text) (cursor : Position)
    (hat : before.getLast? ≠ some '@') (hspace : before.getLast? ≠ some ' ') :
    detect? before cursor = search? before cursor ∧
      ((∃ q, detect? before cursor = some q) ↔ ∃ dropped s, SymbolTail before dropped s) ∧
      ∀ q, detect? before cursor = some q → ∃ dropped, SymbolTail before dropped q.word ∧
        (∀ earlier later, SymbolTail before earlier later → later.length ≤ q.word.length) ∧
        q = ⟨.symbol, q.word, none, ⟨cursor.line, dropped.units⟩⟩ := by
  have hfound : ∀ q, detect? before cursor = some q → ∃ dropped,
      SymbolTail before dropped q.word ∧
      (∀ earlier later, SymbolTail before earlier later → later.length ≤ q.word.length) ∧
      q = ⟨.symbol, q.word, none, ⟨cursor.line, dropped.units⟩⟩ := by
    intro q hq
    rw [detect?_symbol cursor hat hspace] at hq
    obtain ⟨⟨column, word⟩, hscan, rfl⟩ := Option.map_eq_some_iff.mp hq
    obtain ⟨dropped, tail, hfirst, hread, rfl⟩ := (scanTails_eq_some_iff rfl).mp hscan
    obtain ⟨rfl, hsymbol⟩ := readSymbol?_eq_some_iff.mp hread
    obtain ⟨htail, hlongest⟩ := firstTail_symbol_iff.mp ⟨hfirst, hsymbol⟩
    exact ⟨dropped, htail, hlongest, rfl⟩
  refine ⟨detect?_eq_search? before cursor, ⟨?_, ?_⟩, hfound⟩
  · rintro ⟨q, hq⟩
    obtain ⟨dropped, htail, -⟩ := hfound q hq
    exact ⟨dropped, q.word, htail⟩
  · rintro ⟨dropped, s, htail⟩
    obtain ⟨other, rest, hfirst, word, hread, -⟩ := exists_firstTail rfl htail.text
      ((mayStart_beforeSymbol_iff _).mpr htail.opens)
      (readSymbol?_eq_some_iff.mpr ⟨rfl, htail.symbol⟩)
    rw [detect?_symbol cursor hat hspace,
      (scanTails_eq_some_iff rfl).mpr ⟨other, rest, hfirst, hread, rfl⟩]
    exact ⟨_, rfl⟩

/-- The first operator of an arrow may be a boundary and not a part of the query: behind a
letter no query starts. -/
theorem arrow_behind_letter :
    detect? "𝔸x<=>".toList ⟨0, 6⟩ = some ⟨.symbol, "=>".toList, none, ⟨0, 4⟩⟩ ∧
      ∀ earlier later, SymbolTail "𝔸x<=>".toList earlier later → later.length ≤ 2 := by
  have hdetect : detect? "𝔸x<=>".toList ⟨0, 6⟩ = some ⟨.symbol, "=>".toList, none, ⟨0, 4⟩⟩ := by
    decide +kernel
  obtain ⟨-, -, hfound⟩ := symbol_is_longest_tail "𝔸x<=>".toList ⟨0, 6⟩ (by decide) (by decide)
  obtain ⟨-, -, hlongest, -⟩ := hfound _ hdetect
  exact ⟨hdetect, hlongest⟩

end Query

end MathTyping
