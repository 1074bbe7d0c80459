import MathTyping.Query.Detect

/-!
# Patterns

A query is detected by a pattern, and the pattern decides between several readings
of one text by rules of preference: an earlier start goes before a later one, the
first of two choices before the second, more of a repetition before less.  The
detection of this library never compares readings; it walks over the ends of the
text once.  This file says what the rules are, so that the two can be compared.

A pattern is run with a continuation, which tells whether the rest can be read from
a place.  Where it cannot, the next reading in the order of preference is tried.
-/

namespace MathTyping

/-- A pattern of text.  An option or a repetition takes as much as it can. -/
inductive Pattern where
  | start
  | stop
  | one (allowed : Char → Bool)
  | many (allowed : Char → Bool)
  | option (inner : Pattern)
  | seq (first second : Pattern)
  | choice (first second : Pattern)
  | group (name : String) (inner : Pattern)

namespace Pattern

/-- A place that a pattern has led to: the text passed, the text ahead, and the groups
that were read, each with the text before it. -/
structure Spot where
  passed : Text
  ahead : Text
  groups : List (String × Text × Text)

/-- The text before a group and the text of the group, if it was read. -/
def Spot.group? (p : Spot) (name : String) : Option (Text × Text) :=
  (p.groups.find? fun g => g.1 == name).map (·.2)

/-- Pass as many characters of a kind as the continuation allows. -/
def runMany {α : Type} (allowed : Char → Bool) (k : Spot → Option α)
    (groups : List (String × Text × Text)) (passed : Text) : Text → Option α
  | [] => k ⟨passed, [], groups⟩
  | c :: t =>
      if allowed c then
        (runMany allowed k groups (passed ++ [c]) t).or (k ⟨passed, c :: t, groups⟩)
      else k ⟨passed, c :: t, groups⟩

/-- Read a pattern from a place and go on with the continuation; the first reading with
which it succeeds counts. -/
def run {α : Type} : Pattern → (Spot → Option α) → Spot → Option α
  | start, k, p => if p.passed = [] then k p else none
  | stop, k, p => if p.ahead = [] then k p else none
  | one allowed, k, p =>
      match p.ahead with
      | [] => none
      | c :: t => if allowed c then k ⟨p.passed ++ [c], t, p.groups⟩ else none
  | many allowed, k, p => runMany allowed k p.groups p.passed p.ahead
  | option inner, k, p => (run inner k p).or (k p)
  | seq first second, k, p => run first (run second k) p
  | choice first second, k, p => (run first k p).or (run second k p)
  | group name inner, k, p =>
      run inner (fun q =>
        k { q with groups := (name, p.passed, q.passed.drop p.passed.length) :: q.groups }) p

@[simp] theorem run_one_cons {α : Type} (allowed : Char → Bool) (k : Spot → Option α)
    (passed : Text) (c : Char) (t : Text) (groups : List (String × Text × Text)) :
    run (one allowed) k ⟨passed, c :: t, groups⟩ =
      if allowed c then k ⟨passed ++ [c], t, groups⟩ else none := rfl

/-- Search from a place on for the first start from which a pattern can be read. -/
def searchFrom (pattern : Pattern) (passed : Text) : Text → Option Spot
  | [] => run pattern some ⟨passed, [], []⟩
  | c :: t =>
      (run pattern some ⟨passed, c :: t, []⟩).or (searchFrom pattern (passed ++ [c]) t)

/-- Search a text for a pattern. -/
def search? (pattern : Pattern) (t : Text) : Option Spot := searchFrom pattern [] t

section

variable {α : Type} {allowed : Char → Bool} {k : Spot → Option α}
  {groups : List (String × Text × Text)}

/-- A repetition before the end of the text takes all of it. -/
theorem runMany_to_end (hk : ∀ passed c t, k ⟨passed, c :: t, groups⟩ = none)
    (passed t : Text) :
    runMany allowed k groups passed t =
      if t.all allowed then k ⟨passed ++ t, [], groups⟩ else none := by
  induction t generalizing passed with
  | nil => rw [runMany, List.append_nil]; rfl
  | cons c t ih =>
      rw [runMany, ih, hk, Option.or_none, List.all_cons, List.append_assoc,
        List.singleton_append]
      cases allowed c <;> rfl

/-- A repetition before something that starts with another character takes all it can. -/
theorem runMany_greedy (hk : ∀ passed c t, allowed c → k ⟨passed, c :: t, groups⟩ = none)
    (passed t : Text) :
    runMany allowed k groups passed t =
      k ⟨passed ++ t.takeWhile allowed, t.dropWhile allowed, groups⟩ := by
  induction t generalizing passed with
  | nil => rw [runMany, List.takeWhile_nil, List.dropWhile_nil, List.append_nil]
  | cons c t ih =>
      rw [runMany]
      split
      · rename_i hc
        rw [ih, hk passed c t hc, Option.or_none, List.takeWhile_cons_of_pos hc,
          List.dropWhile_cons_of_pos hc, List.append_assoc, List.singleton_append]
      · rename_i hc
        rw [List.takeWhile_cons_of_neg hc, List.dropWhile_cons_of_neg hc, List.append_nil]

/-- What a repetition has passed is of its kind, and the continuation succeeds behind it. -/
theorem runMany_eq_some {passed t : Text} {a : α}
    (h : runMany allowed k groups passed t = some a) :
    ∃ inner rest, t = inner ++ rest ∧ inner.all allowed ∧
      k ⟨passed ++ inner, rest, groups⟩ = some a := by
  induction t generalizing passed with
  | nil => exact ⟨[], [], rfl, rfl, by rwa [List.append_nil]⟩
  | cons c t ih =>
      have hhere : k ⟨passed, c :: t, groups⟩ = some a → ∃ inner rest, c :: t = inner ++ rest ∧
          inner.all allowed ∧ k ⟨passed ++ inner, rest, groups⟩ = some a :=
        fun hk => ⟨[], c :: t, rfl, rfl, by rwa [List.append_nil]⟩
      rw [runMany] at h
      split at h
      · rename_i hc
        rcases Option.or_eq_some_iff.mp h with hlater | ⟨-, hk⟩
        · obtain ⟨inner, rest, rfl, hinner, hk⟩ := ih hlater
          refine ⟨c :: inner, rest, rfl, by rw [List.all_cons, hc, hinner]; rfl, ?_⟩
          rwa [List.append_assoc, List.singleton_append] at hk
        · exact hhere hk
      · exact hhere h

/-- A repetition before a given end of the text takes what is before that end. -/
theorem runMany_before {last : Text} (hlast : last ≠ [])
    (hk : ∀ passed t, t ≠ last → k ⟨passed, t, groups⟩ = none) {inner : Text}
    (hinner : inner.all allowed) (passed : Text) :
    runMany allowed k groups passed (inner ++ last) = k ⟨passed ++ inner, last, groups⟩ := by
  induction inner generalizing passed with
  | nil =>
      cases last with
      | nil => contradiction
      | cons c t =>
          -- Nothing is found further on: the end is longer than what is left of it.
          have hnone : runMany allowed k groups (passed ++ [c]) t = none := by
            cases hrun : runMany allowed k groups (passed ++ [c]) t with
            | none => rfl
            | some a =>
                obtain ⟨inner, rest, rfl, -, hfound⟩ := runMany_eq_some hrun
                have hne : rest ≠ c :: (inner ++ rest) := fun heq => by
                  have hlength := congrArg List.length heq
                  rw [List.length_cons, List.length_append] at hlength
                  omega
                rw [hk _ rest hne] at hfound
                contradiction
          rw [List.nil_append, List.append_nil, runMany, hnone, Option.none_or, ite_self]
  | cons c inner ih =>
      rw [List.all_cons, Bool.and_eq_true] at hinner
      have hne : c :: (inner ++ last) ≠ last := fun heq => by
        have hlength := congrArg List.length heq
        rw [List.length_cons, List.length_append] at hlength
        omega
      rw [List.cons_append, runMany, if_pos hinner.1, ih hinner.2, hk _ _ hne, Option.or_none,
        List.append_assoc, List.singleton_append]

end

/-! ### A pattern behind a boundary -/

/-- A pattern that starts at the start of the text or behind a boundary. -/
def behind (boundary body : Pattern) : Pattern := seq (choice start boundary) body

section

variable {α : Type} {boundary body : Pattern} {isBoundary : Char → Bool} {read : Text → Option α}
  {place : Text → α → Spot} {found : Spot → Option (Nat × α)}

/-- Reading one character that is a boundary. -/
def Marks (boundary : Pattern) (isBoundary : Char → Bool) : Prop :=
  ∀ (k : Spot → Option Spot) passed ahead,
    run boundary k ⟨passed, ahead, []⟩ = run (one isBoundary) k ⟨passed, ahead, []⟩

/-- What a pattern behind a boundary reads from one place. -/
theorem run_behind (hboundary : Marks boundary isBoundary)
    (hbody : ∀ passed ahead, run body some ⟨passed, ahead, []⟩ = (read ahead).map (place passed))
    (passed : Text) (c : Char) (t : Text) :
    run (behind boundary body) some ⟨passed, c :: t, []⟩ =
      (if passed = [] then (read (c :: t)).map (place passed) else none).or
        (if isBoundary c then (read t).map (place (passed ++ [c])) else none) := by
  rw [behind, run, run, run, hboundary, run_one_cons, hbody, hbody]

/-- The search behind a boundary goes over the ends of a text as the scan does.  The place
itself is tried before, if it is a fresh one; at the start of a text this is no new try. -/
theorem searchFrom_behind (hboundary : Marks boundary isBoundary)
    (hbody : ∀ passed ahead, run body some ⟨passed, ahead, []⟩ = (read ahead).map (place passed))
    (hread : read [] = none)
    (hfound : ∀ passed a, found (place passed a) = some (passed.units, a))
    (passed : Text) (fresh : Bool) (hfresh : passed = [] → fresh) (t : Text) :
    ((if fresh then (read t).map (place passed) else none).or
      (searchFrom (behind boundary body) passed t)).bind found =
        Query.scanTails isBoundary read passed.units fresh t := by
  induction t generalizing passed fresh with
  | nil =>
      have hrun : run (behind boundary body) some ⟨passed, [], []⟩ = none := by
        rw [behind, run, run, run, hboundary, hbody, hread]
        simp [run]
      rw [searchFrom, hrun, hread]
      cases fresh <;> rfl
  | cons c t ih =>
      have hunits : (passed ++ [c]).units = passed.units + charUnits c := by simp
      have hnext := ih (passed ++ [c]) (isBoundary c) (by simp)
      rw [hunits] at hnext
      rw [searchFrom, run_behind hboundary hbody, Query.scanTails, ← hnext]
      cases hhere : (if fresh then read (c :: t) else none) with
      | none =>
          have hnone : (if fresh then (read (c :: t)).map (place passed) else none) = none := by
            cases fresh <;> simp_all
          have hstart : (if passed = [] then (read (c :: t)).map (place passed) else none) =
              none := by
            by_cases hpassed : passed = []
            · rw [if_pos (hfresh hpassed)] at hnone
              rw [if_pos hpassed, hnone]
            · exact if_neg hpassed
          rw [hnone, hstart, Option.none_or, Option.none_or]
      | some a =>
          have hsome : (if fresh then (read (c :: t)).map (place passed) else none) =
              some (place passed a) := by
            cases fresh <;> simp_all
          rw [hsome, Option.some_or, Option.bind_some, hfound]

/-- **A search behind a boundary is the scan over the ends of a text.** -/
theorem search?_behind (hboundary : Marks boundary isBoundary)
    (hbody : ∀ passed ahead, run body some ⟨passed, ahead, []⟩ = (read ahead).map (place passed))
    (hread : read [] = none)
    (hfound : ∀ passed a, found (place passed a) = some (passed.units, a)) (t : Text) :
    (search? (behind boundary body) t).bind found = Query.scanTails isBoundary read 0 true t := by
  have hscan := searchFrom_behind hboundary hbody hread hfound [] true (fun _ => rfl) t
  rw [if_pos rfl] at hscan
  rw [search?, ← Text.units_nil, ← hscan]
  cases t with
  | nil => rw [hread, Option.map_none, Option.none_or]
  | cons c t =>
      rw [searchFrom, run_behind hboundary hbody, if_pos rfl, ← Option.or_assoc,
        ← Option.or_assoc, Option.or_self]

end

end Pattern

end MathTyping
