import MathTyping.Proofs.Query.Pattern
import MathTyping.Proofs.Query.Extent

/-!
# The two triggers

A query is asked for by one of two patterns, and a third rule says which of them
counts.  `detect?_eq_search?` compares them with the detection of this library,
which reads the ends of the text one after the other and each of them as a whole.
-/

namespace MathTyping

namespace Query

open Pattern

/-- An argument in parentheses, on one line. -/
def argumentPattern : Pattern :=
  seq (one (· == '(')) (seq (many (· != '\n')) (one (· == ')')))

/-- A word, an argument if there is one, and an at sign. -/
def snippetBody : Pattern :=
  seq (group "query" (seq (one isWordChar) (many isWordChar)))
    (seq (option (group "arg" argumentPattern)) (seq (one (· == '@')) stop))

/-- The pattern of a snippet query, behind a boundary. -/
def snippetTrigger : Pattern := behind (one beforeSnippet) snippetBody

/-- Two or more characters of one kind. -/
def runPattern (allowed : Char → Bool) : Pattern :=
  seq (one allowed) (seq (one allowed) (many allowed))

/-- A backslash if there is one, and letters or operators. -/
def symbolBody : Pattern :=
  seq (group "symbol" (seq (option (one (· == '\\')))
    (choice (runPattern isNameChar) (runPattern isOperatorChar)))) stop

/-- The pattern of a symbol query, behind a blank or another boundary. -/
def symbolTrigger : Pattern :=
  behind (choice (one isBlank) (one fun c => isBoundaryMark c || c == '^' || c == '_')) symbolBody

/-- Where the pattern of a symbol query ends: at the end of the text, with one group. -/
def symbolSpot (passed word : Text) : Spot := ⟨passed ++ word, [], [("symbol", passed, word)]⟩

/-- Where the pattern of a snippet query ends: at the end of the text, with the group of the
argument if there is one. -/
def snippetSpot (passed : Text) (found : Text × Option Text) : Spot :=
  ⟨passed ++ found.1 ++ found.2.getD [] ++ ['@'], [],
    (found.2.map fun a => ("arg", passed ++ found.1, a)).toList ++ [("query", passed, found.1)]⟩

/-! ### Symbols -/

section

variable {k : Spot → Option Spot} {groups : List (String × Text × Text)}

theorem run_runPattern (allowed : Char → Bool)
    (hk : ∀ passed c t, k ⟨passed, c :: t, groups⟩ = none) (passed t : Text) :
    run (runPattern allowed) k ⟨passed, t, groups⟩ =
      if isRun allowed t then k ⟨passed ++ t, [], groups⟩ else none := by
  rcases t with _ | ⟨c, _ | ⟨d, t⟩⟩
  · rfl
  · cases hc : allowed c <;> simp [runPattern, run, isRun, hc]
  · cases hc : allowed c <;> cases hd : allowed d <;>
      simp [runPattern, run, isRun, runMany_to_end hk, hc, hd]

theorem run_runs (hk : ∀ passed c t, k ⟨passed, c :: t, groups⟩ = none) (passed t : Text) :
    run (choice (runPattern isNameChar) (runPattern isOperatorChar)) k ⟨passed, t, groups⟩ =
      if isRun isNameChar t || isRun isOperatorChar t then k ⟨passed ++ t, [], groups⟩
      else none := by
  rw [run, run_runPattern isNameChar hk, run_runPattern isOperatorChar hk]
  cases isRun isNameChar t <;> cases isRun isOperatorChar t <;> simp

end

theorem run_symbolBody (passed ahead : Text) :
    run symbolBody some ⟨passed, ahead, []⟩ = (readSymbol? ahead).map (symbolSpot passed) := by
  let k : Spot → Option Spot := fun q =>
    run stop some { q with groups := ("symbol", passed, q.passed.drop passed.length) :: q.groups }
  have hk : ∀ passed c t, k ⟨passed, c :: t, []⟩ = none := fun _ _ _ => rfl
  have hend : ∀ word, k ⟨passed ++ word, [], []⟩ = some (symbolSpot passed word) := by
    intro word
    show some _ = _
    rw [List.drop_left]
    rfl
  show run (option (one (· == '\\'))) (run (choice _ _) k) ⟨passed, ahead, []⟩ = _
  rw [run, run_runs hk]
  by_cases hslash : ∃ rest, ahead = '\\' :: rest
  · obtain ⟨rest, rfl⟩ := hslash
    -- The backslash cannot be left to the run: it belongs to none.
    have hnone : (isRun isNameChar ('\\' :: rest) || isRun isOperatorChar ('\\' :: rest)) =
        false := by
      simp [isRun, show isNameChar '\\' = false by decide, show isOperatorChar '\\' = false by decide]
    have hrun : run (one (· == '\\')) (run (choice (runPattern isNameChar)
        (runPattern isOperatorChar)) k) ⟨passed, '\\' :: rest, []⟩ =
          if isRun isNameChar rest || isRun isOperatorChar rest then
            some (symbolSpot passed ('\\' :: rest)) else none := by
      rw [← hend]
      exact (run_runs hk _ _).trans (by rw [List.append_assoc]; rfl)
    rw [hnone, hrun, readSymbol?]
    cases isRun isNameChar rest || isRun isOperatorChar rest <;> rfl
  · have hrun : run (one (· == '\\')) (run (choice (runPattern isNameChar)
        (runPattern isOperatorChar)) k) ⟨passed, ahead, []⟩ = none := by
      cases ahead with
      | nil => rfl
      | cons c t =>
          have hc : c ≠ '\\' := fun hc => hslash ⟨t, by rw [hc]⟩
          rw [run]
          exact if_neg (by simpa using hc)
    have hread : readSymbol? ahead =
        if isRun isNameChar ahead || isRun isOperatorChar ahead then some ahead else none := by
      unfold readSymbol?
      dsimp only
      split
      · rename_i rest
        exact absurd ⟨rest, rfl⟩ hslash
      · rfl
    rw [hrun, hread, hend]
    cases isRun isNameChar ahead || isRun isOperatorChar ahead <;> rfl

/-! ### Snippets -/

/-- An argument is what stands in parentheses before the at sign, if it is on one line. -/
theorem readArgument?_eq_some_iff {t a : Text} :
    readArgument? t = some a ↔
      ∃ inner, '\n' ∉ inner ∧ t = '(' :: (inner ++ [')', '@']) ∧ a = '(' :: (inner ++ [')']) := by
  constructor
  · intro h
    obtain ⟨rfl, inner, rfl⟩ := readArgument?_eq_some h
    refine ⟨inner, fun hmem => ?_, by simp, rfl⟩
    simp [readArgument?, hmem] at h
  · rintro ⟨inner, hinner, rfl, rfl⟩
    simp [readArgument?, hinner]

theorem all_ne_feed_iff {t : Text} : t.all (· != '\n') = true ↔ '\n' ∉ t := by
  rw [List.all_eq_true]
  exact ⟨fun h hmem => by simpa using h '\n' hmem, fun h c hc => by
    simpa using ne_of_mem_of_not_mem hc h⟩

/-- A text that starts with a word is read by what is behind the word. -/
theorem readSnippet?_of_ne_nil {t : Text} (h : t.takeWhile isWordChar ≠ []) :
    readSnippet? t =
      if t.dropWhile isWordChar = ['@'] then some (t.takeWhile isWordChar, none)
      else (readArgument? (t.dropWhile isWordChar)).map fun a =>
        (t.takeWhile isWordChar, some a) :=
  if_neg (by simpa using h)

section

variable {groups : List (String × Text × Text)}

/-- What is left of a snippet query behind its argument. -/
theorem run_mark (passed t : Text) :
    run (seq (one (· == '@')) stop) some ⟨passed, t, groups⟩ =
      if t = ['@'] then some ⟨passed ++ ['@'], [], groups⟩ else none := by
  rcases t with _ | ⟨c, _ | ⟨d, t⟩⟩
  · rfl
  · by_cases hc : c = '@' <;> simp [run, hc]
  · simp [run]

/-- The pattern of an argument reads what is read at once here. -/
theorem run_argument (passed t : Text) :
    run (group "arg" argumentPattern) (run (seq (one (· == '@')) stop) some)
        ⟨passed, t, groups⟩ =
      (readArgument? t).map fun a => ⟨passed ++ a ++ ['@'], [], ("arg", passed, a) :: groups⟩ := by
  let k : Spot → Option Spot := run (one (· == ')')) fun q =>
    run (seq (one (· == '@')) stop) some
      { q with groups := ("arg", passed, q.passed.drop passed.length) :: q.groups }
  have hk : ∀ before rest, k ⟨before, rest, groups⟩ =
      if rest = [')', '@'] then
        some ⟨before ++ [')'] ++ ['@'], [],
          ("arg", passed, (before ++ [')']).drop passed.length) :: groups⟩
      else none := by
    intro before rest
    cases rest with
    | nil => rfl
    | cons c rest =>
        by_cases hc : c = ')'
        · subst hc
          exact (run_mark _ _).trans (if_congr (by simp) rfl rfl)
        · simp [k, run, hc]
  have hother : ∀ before rest, rest ≠ [')', '@'] → k ⟨before, rest, groups⟩ = none :=
    fun before rest hne => by rw [hk, if_neg hne]
  show run (one (· == '(')) (run (many (· != '\n')) k) ⟨passed, t, groups⟩ = _
  cases hread : readArgument? t with
  | some a =>
      obtain ⟨inner, hinner, rfl, rfl⟩ := readArgument?_eq_some_iff.mp hread
      have hends : [')', '@'] ≠ [] := List.cons_ne_nil _ _
      have hrun := runMany_before hends hother (all_ne_feed_iff.mpr hinner) (passed ++ ['('])
      rw [hk, if_pos rfl] at hrun
      exact hrun.trans (by simp)
  | none =>
      cases t with
      | nil => rfl
      | cons c t =>
          by_cases hc : c = '('
          · subst hc
            show runMany (· != '\n') k groups (passed ++ ['(']) t = none
            cases hrun : runMany (· != '\n') k groups (passed ++ ['(']) t with
            | none => rfl
            | some found =>
                obtain ⟨inner, rest, rfl, hinner, hfound⟩ := runMany_eq_some hrun
                have hrest : rest = [')', '@'] := by
                  by_contra hne
                  rw [hother _ _ hne] at hfound
                  contradiction
                rw [readArgument?_eq_some_iff.mpr
                  ⟨inner, all_ne_feed_iff.mp hinner, by rw [hrest], rfl⟩] at hread
                contradiction
          · simp [run, hc]

/-- What is left of a snippet query behind its word. -/
theorem run_afterWord (passed t : Text) :
    run (seq (option (group "arg" argumentPattern)) (seq (one (· == '@')) stop)) some
        ⟨passed, t, groups⟩ =
      if t = ['@'] then some ⟨passed ++ ['@'], [], groups⟩
      else (readArgument? t).map fun a =>
        ⟨passed ++ a ++ ['@'], [], ("arg", passed, a) :: groups⟩ := by
  show (run (group "arg" argumentPattern) (run (seq (one (· == '@')) stop) some) _).or
    (run (seq (one (· == '@')) stop) some _) = _
  rw [run_argument, run_mark]
  split
  · rename_i hmark
    rw [hmark]
    rfl
  · rw [Option.or_none]

end

/-- The pattern of a snippet query reads what is read at once here. -/
theorem run_snippetBody (passed ahead : Text) :
    run snippetBody some ⟨passed, ahead, []⟩ = (readSnippet? ahead).map (snippetSpot passed) := by
  let k : Spot → Option Spot := fun q =>
    run (seq (option (group "arg" argumentPattern)) (seq (one (· == '@')) stop)) some
      { q with groups := ("query", passed, q.passed.drop passed.length) :: q.groups }
  show run (one isWordChar) (run (many isWordChar) k) ⟨passed, ahead, []⟩ = _
  cases ahead with
  | nil => rfl
  | cons c t =>
      by_cases hc : isWordChar c
      · have hstop : ∀ before d rest, isWordChar d → k ⟨before, d :: rest, []⟩ = none := by
          intro before d rest hd
          have hopen : d ≠ '(' := by
            rintro rfl
            contradiction
          have hmark : d ≠ '@' := by
            rintro rfl
            contradiction
          refine (run_afterWord _ _).trans ?_
          rw [if_neg (by simp [hmark])]
          simp [readArgument?, hopen]
        have hword : (c :: t).takeWhile isWordChar = c :: t.takeWhile isWordChar :=
          List.takeWhile_cons_of_pos hc
        have hrest : (c :: t).dropWhile isWordChar = t.dropWhile isWordChar :=
          List.dropWhile_cons_of_pos hc
        have hrun : run (one isWordChar) (run (many isWordChar) k) ⟨passed, c :: t, []⟩ =
            k ⟨passed ++ (c :: t).takeWhile isWordChar, (c :: t).dropWhile isWordChar, []⟩ := by
          rw [run_one_cons, if_pos hc, run, runMany_greedy hstop, hword, hrest, List.append_assoc,
            List.singleton_append]
        have hdrop : (passed ++ (c :: t).takeWhile isWordChar).drop passed.length =
            (c :: t).takeWhile isWordChar :=
          List.drop_left
        refine hrun.trans ((run_afterWord _ _).trans ?_)
        rw [readSnippet?_of_ne_nil (by rw [hword]; exact List.cons_ne_nil _ _), hdrop]
        dsimp only
        split
        · rw [Option.map_some, snippetSpot, Option.getD_none, List.append_nil]
          rfl
        · rw [Option.map_map]
          rfl
      · have hword : (c :: t).takeWhile isWordChar = [] := List.takeWhile_cons_of_neg hc
        have hread : readSnippet? (c :: t) = none := by
          rw [readSnippet?, hword]
          rfl
        rw [hread]
        exact if_neg hc

/-! ### Searching for a query -/

/-- The start and the word of a symbol query that was found. -/
def foundSymbol? (p : Spot) : Option (Nat × Text) :=
  (p.group? "symbol").map fun g => (g.1.units, g.2)

/-- The start, the word and the argument of a snippet query that was found. -/
def foundSnippet? (p : Spot) : Option (Nat × Text × Option Text) :=
  (p.group? "query").map fun g => (g.1.units, g.2, (p.group? "arg").map (·.2))

/-- Search the text before the cursor for a query. -/
def search? (before : Text) (cursor : Position) : Option Query :=
  if before.endsWith ['@'] then
    if before.beginsWith "#import".toList then none
    else ((snippetTrigger.search? before).bind foundSnippet?).map fun (column, word, argument) =>
      ⟨.snippet, word, argument, ⟨cursor.line, column⟩⟩
  else if before.endsWith [' '] then none
  else ((symbolTrigger.search? before).bind foundSymbol?).map fun (column, word) =>
    ⟨.symbol, word, none, ⟨cursor.line, column⟩⟩

theorem search?_snippetTrigger (t : Text) :
    (snippetTrigger.search? t).bind foundSnippet? =
      scanTails beforeSnippet readSnippet? 0 true t := by
  refine search?_behind (fun _ _ _ => rfl) run_snippetBody rfl (fun passed found => ?_) t
  obtain ⟨word, argument⟩ := found
  cases argument <;> rfl

theorem search?_symbolTrigger (t : Text) :
    (symbolTrigger.search? t).bind foundSymbol? =
      scanTails beforeSymbol readSymbol? 0 true t := by
  refine search?_behind (fun k passed ahead => ?_) run_symbolBody rfl (fun _ _ => rfl) t
  cases ahead with
  | nil => rfl
  | cons c t =>
      rw [run_one_cons, run, run_one_cons, run_one_cons, beforeSymbol]
      cases isBlank c <;> cases isBoundaryMark c <;> cases c == '^' <;> cases c == '_' <;> simp

/-- **Reading the ends of a text finds what the patterns find.** -/
theorem detect?_eq_search? (before : Text) (cursor : Position) :
    detect? before cursor = search? before cursor := by
  rw [search?, search?_snippetTrigger, search?_symbolTrigger, detect?]
  cases hlast : before.getLast? with
  | none =>
      obtain rfl := List.getLast?_eq_none_iff.mp hlast
      rfl
  | some last =>
      obtain ⟨init, rfl⟩ := List.getLast?_eq_some_iff.mp hlast
      have hends : ∀ c : Char, Text.endsWith (init ++ [last]) [c] = decide (last = c) := by
        intro c
        rw [Bool.eq_iff_iff, Text.endsWith, List.isSuffixOf_iff_suffix, decide_eq_true_eq]
        constructor
        · intro h
          have hlast := h.getLast (List.cons_ne_nil c [])
          simpa using hlast.symm
        · rintro rfl
          exact List.suffix_append _ _
      rw [hends, hends]
      simp only [decide_eq_true_eq]

end Query

end MathTyping
