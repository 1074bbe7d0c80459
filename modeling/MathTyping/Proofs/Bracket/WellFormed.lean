import MathTyping.Proofs.Bracket.Kinds

/-!
# Well-formed brackets

Tokens are well-formed if, read from left to right, each closing bracket is of the kind of the
nearest bracket still open, and none stays open.  These are the words of the grammar `Balanced`
(`balanced_iff_wellFormed`).

On such tokens the tolerant matching never reaches over an open bracket, so the brackets that
wait are a stack and the depth noted with each is the number of those under it (`Stacked`).  A
pair is inside another one exactly if that one was still waiting when it opened.  Hence the depth
of a pair counts the pairs around it (`depth_eq_countP`), and the least span, by which the
innermost pair is picked, is the greatest depth (`wellFormed_pairs`).
-/

namespace MathTyping

namespace BracketToken

/-- Read tokens from left to right, against the kinds of the brackets still open, the nearest one
first: each closing bracket is of the kind of the nearest one, and none stays open. -/
def wellFormed : List BracketKind → List BracketToken → Bool
  | unclosed, [] => unclosed.isEmpty
  | unclosed, token :: tokens =>
      if token.opens then wellFormed (token.kind :: unclosed) tokens
      else
        match unclosed with
        | [] => false
        | nearest :: others => nearest == token.kind && wellFormed others tokens

variable {unclosed others : List BracketKind} {nearest : BracketKind} {token : BracketToken}
  {tokens : List BracketToken}

theorem wellFormed_nil_iff : wellFormed unclosed [] = true ↔ unclosed = [] := by
  rw [wellFormed, List.isEmpty_iff]

theorem wellFormed_opening (hopens : token.opens = true) :
    wellFormed unclosed (token :: tokens) = wellFormed (token.kind :: unclosed) tokens := by
  simp [wellFormed, hopens]

theorem not_wellFormed_closing (hcloses : token.opens = false) :
    wellFormed [] (token :: tokens) = false := by
  simp [wellFormed, hcloses]

theorem wellFormed_closing_iff (hcloses : token.opens = false) :
    wellFormed (nearest :: others) (token :: tokens) = true ↔
      nearest = token.kind ∧ wellFormed others tokens = true := by
  simp [wellFormed, hcloses]

end BracketToken

namespace BracketPair

open BracketToken (wellFormed wellFormed_nil_iff wellFormed_opening not_wellFormed_closing
  wellFormed_closing_iff)

/-! ### The words of the grammar -/

/-- Words of the grammar are read without a trace. -/
theorem Balanced.wellFormed_append {tokens : List BracketToken} (h : Balanced tokens)
    (unclosed : List BracketKind) (more : List BracketToken) :
    wellFormed unclosed (tokens ++ more) = wellFormed unclosed more := by
  induction h generalizing unclosed more with
  | nil => rfl
  | @pair opening closing inner rest hopens hcloses hkind hinner hrest ihinner ihrest =>
      rw [List.cons_append, wellFormed_opening hopens, List.append_assoc, ihinner,
        List.cons_append, Bool.eq_iff_iff, wellFormed_closing_iff hcloses, ihrest,
        and_iff_right hkind]

/-- What is read begins with a word of the grammar, and either ends there or goes on with the
bracket that closes the nearest open one. -/
theorem exists_balanced_front (tokens : List BracketToken) {unclosed : List BracketKind}
    (h : wellFormed unclosed tokens = true) :
    ∃ front behind, tokens = front ++ behind ∧ Balanced front ∧
      (unclosed = [] ∧ behind = [] ∨
        ∃ closing rest others, behind = closing :: rest ∧ closing.opens = false ∧
          unclosed = closing.kind :: others ∧ wellFormed others rest = true) := by
  match tokens with
  | [] => exact ⟨[], [], rfl, .nil, Or.inl ⟨wellFormed_nil_iff.mp h, rfl⟩⟩
  | token :: tokens =>
      by_cases hopens : token.opens = true
      · rw [wellFormed_opening hopens] at h
        obtain ⟨inner, _, htokens, hinner, ⟨hnone, -⟩ | ⟨closing, rest, others, rfl, hcloses,
          hkinds, hrest⟩⟩ := exists_balanced_front tokens h
        · contradiction
        · -- The bracket that opened is closed, and the reading goes on as before it.
          obtain ⟨hkind, rfl⟩ := List.cons_eq_cons.mp hkinds
          obtain ⟨front, behind, hbehind, hfront, hgoes⟩ := exists_balanced_front rest hrest
          exact ⟨token :: (inner ++ closing :: front), behind, by simp [htokens, hbehind],
            .pair hopens hcloses hkind hinner hfront, hgoes⟩
      · have hcloses : token.opens = false := by simpa using hopens
        cases unclosed with
        | nil =>
            rw [not_wellFormed_closing hcloses] at h
            contradiction
        | cons nearest others =>
            obtain ⟨rfl, hrest⟩ := (wellFormed_closing_iff hcloses).mp h
            exact ⟨[], token :: tokens, rfl, .nil, Or.inr ⟨token, tokens, others, rfl, hcloses, rfl,
              hrest⟩⟩
termination_by tokens.length
decreasing_by
  · simp
  · simp [htokens]
    omega

theorem balanced_iff_wellFormed {tokens : List BracketToken} :
    Balanced tokens ↔ wellFormed [] tokens = true := by
  constructor
  · intro h
    have hread := h.wellFormed_append [] []
    rw [List.append_nil] at hread
    exact hread.trans rfl
  · intro h
    obtain ⟨front, behind, rfl, hfront, ⟨-, rfl⟩ | ⟨_, _, _, -, -, hnone, -⟩⟩ :=
      exists_balanced_front tokens h
    · rwa [List.append_nil]
    · contradiction

/-! ### The matching of well-formed tokens -/

/-- The brackets that wait are closed one after the other, the nearest first, and those that open
in between before them. -/
inductive Unwinds : List OpenBracket → List BracketToken → Prop
  | nil : Unwinds [] []
  | opening {waiting : List OpenBracket} {token : BracketToken} {tokens : List BracketToken}
      (hopens : token.opens = true) (h : Unwinds (⟨token, waiting.length⟩ :: waiting) tokens) :
      Unwinds waiting (token :: tokens)
  | closing {partner : OpenBracket} {left : List OpenBracket} {token : BracketToken}
      {tokens : List BracketToken} (hcloses : token.opens = false)
      (hkind : partner.token.kind = token.kind) (h : Unwinds left tokens) :
      Unwinds (partner :: left) (token :: tokens)

section Matching

variable {waiting left : List OpenBracket} {partner : OpenBracket} {token : BracketToken}
  {tokens : List BracketToken}

theorem unwinds_of_wellFormed (h : wellFormed (waiting.map (·.token.kind)) tokens = true) :
    Unwinds waiting tokens := by
  induction tokens generalizing waiting with
  | nil =>
      obtain rfl := List.map_eq_nil_iff.mp (wellFormed_nil_iff.mp h)
      exact .nil
  | cons token tokens ih =>
      by_cases hopens : token.opens = true
      · rw [wellFormed_opening hopens] at h
        exact .opening hopens (ih h)
      · have hcloses : token.opens = false := by simpa using hopens
        cases waiting with
        | nil =>
            rw [List.map_nil, not_wellFormed_closing hcloses] at h
            contradiction
        | cons partner left =>
            obtain ⟨hkind, hrest⟩ := (wellFormed_closing_iff hcloses).mp h
            exact .closing hcloses hkind (ih hrest)

/-- A closing bracket pairs with the nearest open one, if that is of its kind. -/
theorem matchFrom_nearest (hcloses : token.opens = false) (hkind : partner.token.kind = token.kind)
    (tokens : List BracketToken) :
    matchFrom (partner :: left) (token :: tokens) =
      ⟨token.kind, partner.depth, partner.token.place, token.place⟩ :: matchFrom left tokens := by
  have hnone : ∀ o ∈ ([] : List OpenBracket), o.token.kind ≠ token.kind := by simp
  exact matchFrom_partner hcloses hnone hkind tokens

/-- The nearest open bracket is closed before all that are closed later. -/
theorem later_of_nearest {p q : BracketPair}
    (horder : Ordered (partner :: left) (token :: tokens))
    (hp : p = ⟨token.kind, partner.depth, partner.token.place, token.place⟩)
    (hq : q ∈ matchFrom left tokens) : p.closing.byte < q.closing.byte := by
  have hnone : ∀ o ∈ ([] : List OpenBracket), o.token.kind ≠ token.kind := by simp
  exact (later_cases horder hnone hp hq).1

/-- Every bracket that waits and every token is in one pair. -/
theorem brackets_matchFrom_perm (h : Unwinds waiting tokens) :
    (brackets (matchFrom waiting tokens)).Perm
      (waiting.map (·.token.place) ++ tokens.map (·.place)) := by
  induction h with
  | nil => exact .nil
  | opening hopens h ih =>
      rw [matchFrom_opening hopens]
      exact ih.trans List.perm_middle.symm
  | @closing partner left token tokens hcloses hkind h ih =>
      rw [matchFrom_nearest hcloses hkind, brackets_cons]
      exact ((ih.cons token.place).trans List.perm_middle.symm).cons partner.token.place

/-- The brackets that wait and those still to open are the ones that open the pairs. -/
theorem openings_matchFrom_perm (h : Unwinds waiting tokens) :
    ((matchFrom waiting tokens).map (·.opening)).Perm
      (waiting.map (·.token.place) ++ (tokens.filter (·.opens)).map (·.place)) := by
  induction h with
  | nil => exact .nil
  | opening hopens h ih =>
      rw [matchFrom_opening hopens, List.filter_cons_of_pos hopens]
      exact ih.trans List.perm_middle.symm
  | @closing partner left token tokens hcloses hkind h ih =>
      rw [matchFrom_nearest hcloses hkind, List.filter_cons_of_neg (by simp [hcloses])]
      exact ih.cons partner.token.place

/-! ### Depths -/

/-- The brackets that wait are a stack: the depth of each is the number of those under it. -/
def Stacked : List OpenBracket → Prop
  | [] => True
  | o :: under => o.depth = under.length ∧ Stacked under

instance (p q : BracketPair) : Decidable (p.Inside q) := inferInstanceAs (Decidable (_ ∧ _))

theorem not_inside_self (p : BracketPair) : ¬ p.Inside p := fun h => Nat.lt_irrefl _ h.1

/-- A pair is inside exactly those that were waiting under its opening bracket. -/
theorem countP_inside_nearest (h : Unwinds left tokens)
    (horder : Ordered (partner :: left) (token :: tokens)) {p : BracketPair}
    (hp : p = ⟨token.kind, partner.depth, partner.token.place, token.place⟩) :
    (matchFrom left tokens).countP (fun q => p.Inside q) = left.length := by
  have hunder : ∀ o ∈ left, o.token.place.byte < p.opening.byte := by
    rw [hp]
    exact (List.pairwise_cons.mp horder.nearest).1
  have hlater : ∀ t ∈ tokens, p.opening.byte < t.place.byte := by
    rw [hp]
    exact horder.drop.before partner List.mem_cons_self
  have hearlier : ∀ q ∈ matchFrom left tokens,
      (p.Inside q ↔ q.opening.byte < p.opening.byte) := by
    intro q hq
    exact and_iff_left (later_of_nearest horder hp hq)
  have hall : (left.map (·.token.place)).countP (·.byte < p.opening.byte) = left.length := by
    rw [List.countP_map, List.countP_eq_length]
    simpa using hunder
  have hnone : ((tokens.filter (·.opens)).map (·.place)).countP (·.byte < p.opening.byte) = 0 := by
    rw [List.countP_map, List.countP_eq_zero]
    intro t ht
    have := hlater t (List.mem_filter.mp ht).1
    simp
    omega
  calc (matchFrom left tokens).countP (fun q => p.Inside q)
      = ((matchFrom left tokens).map (·.opening)).countP (·.byte < p.opening.byte) := by
        rw [List.countP_map]
        exact List.countP_congr fun q hq => by simpa using hearlier q hq
    _ = (left.map (·.token.place) ++ (tokens.filter (·.opens)).map (·.place)).countP
          (·.byte < p.opening.byte) := (openings_matchFrom_perm h).countP_eq _
    _ = left.length := by rw [List.countP_append, hall, hnone, Nat.add_zero]

/-- The depth of a pair is the number of pairs around it. -/
theorem depth_eq_countP (h : Unwinds waiting tokens) (horder : Ordered waiting tokens)
    (hstacked : Stacked waiting) :
    ∀ p ∈ matchFrom waiting tokens,
      p.depth = (matchFrom waiting tokens).countP (fun q => p.Inside q) := by
  induction h with
  | nil => simp [matchFrom]
  | opening hopens h ih =>
      rw [matchFrom_opening hopens]
      exact ih (horder.push hopens _) ⟨rfl, hstacked⟩
  | @closing partner left token tokens hcloses hkind h ih =>
      obtain ⟨hdepth, hunder⟩ := hstacked
      rw [matchFrom_nearest hcloses hkind]
      refine List.forall_mem_cons.mpr ⟨?_, fun p hp => ?_⟩
      · rw [List.countP_cons_of_neg (by simpa using not_inside_self _),
          countP_inside_nearest h horder rfl]
        exact hdepth
      · -- The new pair is closed before the others, so none of them is inside it.
        have hfirst := later_of_nearest horder rfl hp
        have hout : ¬ p.Inside ⟨token.kind, partner.depth, partner.token.place, token.place⟩ :=
          fun hin => Nat.lt_asymm hfirst hin.2
        rw [List.countP_cons_of_neg (by simpa using hout)]
        have hclosed : Ordered ([] ++ left) tokens := horder.close
        exact ih hclosed hunder p hp

end Matching

/-! ### The pairs of a well-formed source -/

section Source

variable {source : Text} {p q : BracketPair}

theorem Inside.trans {r : BracketPair} (h : p.Inside q) (h' : q.Inside r) : p.Inside r :=
  ⟨Nat.lt_trans h'.1 h.1, Nat.lt_trans h.2 h'.2⟩

/-- What is inside a pair has one more pair around it than the pair, at least. -/
theorem countP_inside_lt {pairs : List BracketPair} (hq : q ∈ pairs) (h : p.Inside q) :
    pairs.countP (fun r => q.Inside r) < pairs.countP (fun r => p.Inside r) := by
  obtain ⟨before, after, rfl⟩ := List.append_of_mem hq
  have hmono : ∀ l : List BracketPair,
      l.countP (fun r => q.Inside r) ≤ l.countP (fun r => p.Inside r) := fun l =>
    List.countP_mono_left fun r _ hr => by simpa using h.trans (by simpa using hr)
  have hbefore := hmono before
  have hafter := hmono after
  rw [List.countP_append, List.countP_append,
    List.countP_cons_of_neg (by simpa using not_inside_self q),
    List.countP_cons_of_pos (by simpa using h)]
  omega

theorem nested_of_wellFormed (h : wellFormed [] (BracketToken.scan source) = true)
    (hp : p ∈ ofSource source) (hq : q ∈ ofSource source) (hne : p ≠ q) : p.Nested q :=
  forall_nested_iff.mpr (balanced_iff_wellFormed.mpr h).untangled p hp q hq hne

/-- A pair is around a byte offset: it opens before it and closes at or behind it. -/
theorem encloses_iff_bytes {offset : Nat} :
    p.encloses offset = true ↔ p.opening.byte < offset ∧ offset ≤ p.closing.byte := by
  simp [encloses]

theorem innermost?_eq_none_iff {pairs : List BracketPair} {offset : Nat} :
    innermost? pairs offset = none ↔ ∀ p ∈ pairs, ¬ p.encloses offset = true := by
  rw [innermost?, leastSpan?_eq_none_iff, List.filter_eq_nil_iff]

/-- The pair that is picked around an offset is inside the others. -/
theorem inside_of_innermost? (h : wellFormed [] (BracketToken.scan source) = true) {offset : Nat}
    (hp : innermost? (ofSource source) offset = some p) (hq : q ∈ ofSource source)
    (hencloses : q.encloses offset = true) (hne : q ≠ p) : p.Inside q := by
  have hmem := List.mem_filter.mp (mem_of_leastSpan? _ p hp)
  have hspan := span_le_of_leastSpan? _ p q hp (List.mem_filter.mpr ⟨hq, hencloses⟩)
  exact (nested_of_wellFormed h hmem.1 hq hne.symm).inside_of_span_le hmem.2 hencloses hspan

/-- **On well-formed brackets the innermost pair is unique, and the deepest.**  Every bracket is in
one pair, two pairs are disjoint or one is inside the other, and the depth of a pair is the
number of pairs around it.  Of the pairs around an offset the one picked is the one of greatest
depth, and it is inside all others; nothing is picked only where there is none. -/
theorem wellFormed_pairs (source : Text)
    (h : wellFormed [] (BracketToken.scan source) = true) :
    (brackets (ofSource source)).Perm ((BracketToken.scan source).map (·.place)) ∧
    (∀ p ∈ ofSource source, ∀ q ∈ ofSource source, p ≠ q → p.Nested q) ∧
    (∀ p ∈ ofSource source, p.depth = (ofSource source).countP (fun q => p.Inside q)) ∧
    ∀ offset,
      (innermost? (ofSource source) offset = none ↔
        ∀ p ∈ ofSource source, ¬ (p.opening.byte < offset ∧ offset ≤ p.closing.byte)) ∧
      (∀ p, innermost? (ofSource source) offset = some p ↔
        p ∈ ofSource source ∧ (p.opening.byte < offset ∧ offset ≤ p.closing.byte) ∧
          ∀ q ∈ ofSource source, q.opening.byte < offset ∧ offset ≤ q.closing.byte → q ≠ p →
            q.depth < p.depth) ∧
      ∀ p, innermost? (ofSource source) offset = some p → ∀ q ∈ ofSource source,
        q.opening.byte < offset ∧ offset ≤ q.closing.byte → q ≠ p → p.Inside q := by
  have hunwinds : Unwinds [] (BracketToken.scan source) := unwinds_of_wellFormed h
  have hdepth : ∀ p ∈ ofSource source,
      p.depth = (ofSource source).countP (fun q => p.Inside q) :=
    depth_eq_countP hunwinds (Ordered.of_scan source) trivial
  have hdeeper : ∀ p ∈ ofSource source, ∀ q ∈ ofSource source, p.Inside q → q.depth < p.depth := by
    intro p hp q hq hin
    rw [hdepth p hp, hdepth q hq]
    exact countP_inside_lt hq hin
  refine ⟨brackets_matchFrom_perm hunwinds, fun p hp q hq => nested_of_wellFormed h hp hq, hdepth,
    fun offset => ?_⟩
  simp only [← encloses_iff_bytes]
  refine ⟨innermost?_eq_none_iff, fun p => ⟨fun hp => ?_, ?_⟩, fun p hp q hq => ?_⟩
  · obtain ⟨hmem, hencloses⟩ := List.mem_filter.mp (mem_of_leastSpan? _ p hp)
    exact ⟨hmem, hencloses, fun q hq hq' hne =>
      hdeeper p hmem q hq (inside_of_innermost? h hp hq hq' hne)⟩
  · -- Another pair would be inside this one, and deeper.
    rintro ⟨hp, hencloses, hdeepest⟩
    obtain ⟨m, hm⟩ := Option.ne_none_iff_exists'.mp fun hnone =>
      innermost?_eq_none_iff.mp hnone p hp hencloses
    obtain ⟨hmem, hencloses'⟩ := List.mem_filter.mp (mem_of_leastSpan? _ m hm)
    by_contra hother
    have hne : m ≠ p := fun heq => hother (heq ▸ hm)
    have hless := hdeepest m hmem hencloses' hne
    have hmore := hdeeper m hmem p hp (inside_of_innermost? h hm hp hencloses hne.symm)
    omega
  · exact inside_of_innermost? h hp hq

/-- Of the three pairs around the letter the braces are the innermost, at depth two; the brackets
in the string and the comment count for nothing. -/
theorem innermost_pair_of_three :
    let source := "𝔸(\"(\" [ /* ( */ {x} ])".toList
    wellFormed [] (BracketToken.scan source) = true ∧
      innermost? (ofSource source) 20 = some ⟨.brace, 2, ⟨0, 17, 19⟩, ⟨0, 19, 21⟩⟩ ∧
      ∀ q ∈ ofSource source, q.opening.byte < 20 ∧ 20 ≤ q.closing.byte →
        q ≠ ⟨.brace, 2, ⟨0, 17, 19⟩, ⟨0, 19, 21⟩⟩ →
        Inside ⟨.brace, 2, ⟨0, 17, 19⟩, ⟨0, 19, 21⟩⟩ q := by
  intro source
  have hwell : wellFormed [] (BracketToken.scan source) = true := by decide +kernel
  have hpicked : innermost? (ofSource source) 20 = some ⟨.brace, 2, ⟨0, 17, 19⟩, ⟨0, 19, 21⟩⟩ := by
    decide +kernel
  obtain ⟨-, -, -, hoffset⟩ := wellFormed_pairs source hwell
  exact ⟨hwell, hpicked, (hoffset 20).2.2 _ hpicked⟩

end Source

end BracketPair

end MathTyping
