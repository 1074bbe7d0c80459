import MathTyping.Proofs.Bracket.Matching
import MathTyping.Proofs.Buffer.Cuts

/-!
# Where brackets stand

A token of the scan stands in the source where its place says, and is a bracket of its kind
(`standsIn_of_mem_scan`); a matched pair joins two such tokens of its kind, one that opens and
one that closes (`exists_joined`).  The pair that is picked around a place is the first of
those of least span (`leastSpan?_filter_eq_some_iff`).
-/

namespace MathTyping

namespace Place

/-- The place behind a text. -/
def behind (pre : Text) : Place :=
  ⟨(Position.origin.advance pre).line, (Position.origin.advance pre).column, pre.bytes⟩

theorem position_behind (pre : Text) : (behind pre).position = Position.origin.advance pre := rfl

theorem after_behind (pre : Text) (c : Char) : (behind pre).after c = behind (pre ++ [c]) := by
  by_cases hc : c = '\n'
  · simp [after, behind, hc, Position.advance_append, Position.advance]
  · simp [after, behind, hc, Position.advance_append, Position.advance, Position.right]

end Place

namespace BracketToken

/-- A token is a bracket of a source, at the place that it says. -/
def StandsIn (token : BracketToken) (source : Text) : Prop :=
  ∃ before c after, source = before ++ c :: after ∧ token.place = Place.behind before ∧
    BracketKind.ofChar? c = some (token.kind, token.opens)

variable {token : BracketToken} {mode : ScanMode} {place : Place} {pre t : Text}

theorem standsIn_of_mem_ofChar? {c : Char} (h : token ∈ (ofChar? c (Place.behind pre)).toList) :
    token.StandsIn (pre ++ c :: t) := by
  rw [Option.mem_toList, ofChar?, Option.map_eq_some_iff] at h
  obtain ⟨⟨kind, opens⟩, hkind, rfl⟩ := h
  exact ⟨pre, c, t, rfl, rfl, hkind⟩

/-- Scanning on from the place behind a text finds brackets that stand behind it. -/
theorem standsIn_of_mem_scanFrom (h : token ∈ scanFrom mode place t)
    (hplace : place = Place.behind pre) : token.StandsIn (pre ++ t) := by
  fun_induction scanFrom mode place t generalizing pre with
  | case1 => contradiction
  | case2 place c =>
      subst hplace
      exact standsIn_of_mem_ofChar? h
  | case3 => contradiction
  | case4 mode place c d t after hmark ih =>
      subst hplace
      have hrest := ih h (by rw [Place.after_behind, Place.after_behind])
      simpa using hrest
  | case5 mode place c d t hmark ih =>
      subst hplace
      rcases List.mem_append.mp h with hhere | hlater
      · split at hhere
        · exact standsIn_of_mem_ofChar? hhere
        · contradiction
      · have hrest := ih hlater (Place.after_behind pre c)
        simpa using hrest

theorem standsIn_of_mem_scan (h : token ∈ scan t) : token.StandsIn t := by
  have hstart : Place.origin = Place.behind [] := rfl
  exact standsIn_of_mem_scanFrom h hstart

end BracketToken

namespace BracketPair

/-- A pair joins two brackets of its kind. -/
structure Joins (pair : BracketPair) (opening closing : BracketToken) : Prop where
  opens : opening.opens = true
  closes : closing.opens = false
  opening_kind : opening.kind = pair.kind
  closing_kind : closing.kind = pair.kind
  opening_place : pair.opening = opening.place
  closing_place : pair.closing = closing.place

/-- A pair joins a bracket that waited or came later with a later one. -/
theorem exists_joined_of_mem_matchFrom {pair : BracketPair} {waiting : List OpenBracket}
    {tokens : List BracketToken} (hwaiting : ∀ w ∈ waiting, w.token.opens = true)
    (h : pair ∈ matchFrom waiting tokens) :
    ∃ opening closing, pair.Joins opening closing ∧
      (opening ∈ waiting.map (·.token) ∨ opening ∈ tokens) ∧ closing ∈ tokens := by
  induction waiting, tokens using matching_induction with
  | nil waiting => contradiction
  | opening waiting token tokens hopens ih =>
      rw [matchFrom_opening hopens] at h
      obtain ⟨opening, closing, hjoins, hopening, hclosing⟩ :=
        ih (List.forall_mem_cons.mpr ⟨hopens, hwaiting⟩) h
      refine ⟨opening, closing, hjoins, ?_, List.mem_cons_of_mem _ hclosing⟩
      rcases hopening with hwait | hlater
      · rcases List.mem_cons.mp hwait with rfl | hwait
        · exact Or.inr List.mem_cons_self
        · exact Or.inl hwait
      · exact Or.inr (List.mem_cons_of_mem _ hlater)
  | lone waiting token tokens hcloses hnone ih =>
      rw [matchFrom_lone hcloses hnone] at h
      obtain ⟨opening, closing, hjoins, hopening, hclosing⟩ := ih hwaiting h
      exact ⟨opening, closing, hjoins, hopening.imp_right (List.mem_cons_of_mem _),
        List.mem_cons_of_mem _ hclosing⟩
  | paired passed partner left token tokens hcloses hpassed hkind ih =>
      rw [matchFrom_partner hcloses hpassed hkind] at h
      rcases List.mem_cons.mp h with rfl | hlater
      · exact ⟨partner.token, token,
          ⟨hwaiting partner (by simp), hcloses, hkind, rfl, rfl, rfl⟩,
          Or.inl (List.mem_map_of_mem (by simp)), List.mem_cons_self⟩
      · have hfewer := (List.sublist_cons_self partner left).append_left passed
        obtain ⟨opening, closing, hjoins, hopening, hclosing⟩ :=
          ih (fun w hw => hwaiting w (hfewer.subset hw)) hlater
        refine ⟨opening, closing, hjoins, ?_, List.mem_cons_of_mem _ hclosing⟩
        exact hopening.imp (fun hwait => (hfewer.map _).subset hwait) (List.mem_cons_of_mem _)

/-- A pair of a source joins two brackets that stand in it. -/
theorem exists_joined {pair : BracketPair} {source : Text} (h : pair ∈ ofSource source) :
    ∃ opening closing, pair.Joins opening closing ∧ opening.StandsIn source ∧
      closing.StandsIn source := by
  have hnone : ∀ w ∈ ([] : List OpenBracket), w.token.opens = true := by simp
  obtain ⟨opening, closing, hjoins, hopening, hclosing⟩ := exists_joined_of_mem_matchFrom hnone h
  have hmem : opening ∈ BracketToken.scan source := hopening.resolve_left (by simp)
  exact ⟨opening, closing, hjoins, BracketToken.standsIn_of_mem_scan hmem,
    BracketToken.standsIn_of_mem_scan hclosing⟩

/-! ### The first pair of least span -/

/-- A pair is, among those of a list that satisfy a condition, the first of least span. -/
def FirstLeast (pairs : List BracketPair) (condition : BracketPair → Prop) (p : BracketPair) :
    Prop :=
  condition p ∧ ∃ before after, pairs = before ++ p :: after ∧
    (∀ q ∈ before, condition q → p.span < q.span) ∧ ∀ q ∈ after, condition q → p.span ≤ q.span

variable {pairs : List BracketPair} {condition : BracketPair → Bool} {p q : BracketPair}

theorem leastSpan?_eq_none_iff : leastSpan? pairs = none ↔ pairs = [] := by
  cases pairs with
  | nil => simp [leastSpan?]
  | cons p ps =>
      rw [leastSpan?]
      split
      · simp
      · split <;> simp

theorem firstLeast_of_leastSpan? (h : leastSpan? (pairs.filter condition) = some p) :
    FirstLeast pairs (condition ·) p := by
  induction pairs generalizing p with
  | nil => contradiction
  | cons r rs ih =>
      by_cases hr : condition r = true
      · rw [List.filter_cons_of_pos hr, leastSpan?] at h
        split at h
        · rename_i hnone
          obtain rfl := Option.some.inj h
          have hnobody := List.filter_eq_nil_iff.mp (leastSpan?_eq_none_iff.mp hnone)
          exact ⟨hr, [], rs, rfl, by simp, fun q hq hcondition => absurd hcondition (hnobody q hq)⟩
        · rename_i s hs
          split at h
          · rename_i hle
            obtain rfl := Option.some.inj h
            refine ⟨hr, [], rs, rfl, by simp, fun q hq hcondition => ?_⟩
            exact Nat.le_trans hle
              (span_le_of_leastSpan? _ s q hs (List.mem_filter.mpr ⟨hq, hcondition⟩))
          · rename_i hgt
            obtain rfl := Option.some.inj h
            obtain ⟨hcondition, before, after, rfl, hbefore, hafter⟩ := ih hs
            refine ⟨hcondition, r :: before, after, rfl, ?_, hafter⟩
            intro q hq hq'
            rcases List.mem_cons.mp hq with rfl | hmem
            · omega
            · exact hbefore q hmem hq'
      · rw [List.filter_cons_of_neg hr] at h
        obtain ⟨hcondition, before, after, rfl, hbefore, hafter⟩ := ih h
        refine ⟨hcondition, r :: before, after, rfl, ?_, hafter⟩
        intro q hq hq'
        rcases List.mem_cons.mp hq with rfl | hmem
        · exact absurd hq' hr
        · exact hbefore q hmem hq'

theorem FirstLeast.unique {condition : BracketPair → Prop} (hp : FirstLeast pairs condition p)
    (hq : FirstLeast pairs condition q) : p = q := by
  obtain ⟨hp, before, after, hpairs, hbefore, hafter⟩ := hp
  obtain ⟨hq, before', after', hpairs', hbefore', hafter'⟩ := hq
  rw [hpairs] at hpairs'
  rcases List.append_eq_append_iff.mp hpairs' with ⟨mid, rfl, hmid⟩ | ⟨mid, rfl, hmid⟩
  · rcases List.cons_eq_append_iff.mp hmid with ⟨rfl, heq⟩ | ⟨mid', rfl, rfl⟩
    · exact (List.cons_eq_cons.mp heq).1.symm
    · have hlt := hbefore' p (by simp) hp
      have hle := hafter q (by simp) hq
      omega
  · rcases List.cons_eq_append_iff.mp hmid with ⟨rfl, heq⟩ | ⟨mid', rfl, rfl⟩
    · exact (List.cons_eq_cons.mp heq).1
    · have hlt := hbefore q (by simp) hq
      have hle := hafter' p (by simp) hp
      omega

theorem leastSpan?_filter_eq_some_iff :
    leastSpan? (pairs.filter condition) = some p ↔ FirstLeast pairs (condition ·) p := by
  constructor
  · exact firstLeast_of_leastSpan?
  · intro h
    cases hleast : leastSpan? (pairs.filter condition) with
    | none =>
        obtain ⟨hp, before, after, rfl, -⟩ := h
        have hnobody := List.filter_eq_nil_iff.mp (leastSpan?_eq_none_iff.mp hleast)
        exact absurd hp (hnobody p (by simp))
    | some q => rw [h.unique (firstLeast_of_leastSpan? hleast)]

end BracketPair

end MathTyping
