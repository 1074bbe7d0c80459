import Mathlib.Data.List.Pairwise
import MathTyping.Proofs.Bracket.Places

/-!
# How pairs lie to each other

A closing bracket pairs with the nearest open one of its kind, and reaches over
the open brackets of other kinds on the way.  Those stay open.  So two pairs of
one kind are apart or one is inside the other, but pairs of different kinds may
cross, as in `([)]`: the round bracket reaches over the square one, which is
paired later.

A source is untangled if no closing bracket reaches over one that is paired later.
Exactly then no pairs cross (`pairwise_nested_iff`).  Well-formed brackets, where each
closing bracket meets its partner as the nearest open one, are untangled, and so
is `( [ )`, where the square bracket stays alone.
-/

namespace MathTyping

namespace BracketToken

/-- Tokens stand in the order of their bytes. -/
def InOrder (tokens : List BracketToken) : Prop :=
  tokens.Pairwise fun a b => a.place.byte < b.place.byte

theorem byte_after (place : Place) (c : Char) : (place.after c).byte = place.byte + c.utf8Size := by
  unfold Place.after
  split <;> rfl

theorem eq_place_of_mem_ofChar? {c : Char} {place : Place} {token : BracketToken}
    (h : token ∈ (ofChar? c place).toList) : token.place = place := by
  rw [Option.mem_toList, ofChar?, Option.map_eq_some_iff] at h
  obtain ⟨k, -, rfl⟩ := h
  rfl

/-- Tokens are found at or behind the place where the scan starts. -/
theorem le_of_mem_scanFrom {mode : ScanMode} {place : Place} {t : Text} {token : BracketToken}
    (h : token ∈ scanFrom mode place t) : place.byte ≤ token.place.byte := by
  fun_induction scanFrom mode place t with
  | case1 => contradiction
  | case2 place c => exact Nat.le_of_eq (congrArg Place.byte (eq_place_of_mem_ofChar? h)).symm
  | case3 => contradiction
  | case4 mode place c d t after _ ih =>
      have := ih h
      rw [byte_after, byte_after] at this
      omega
  | case5 mode place c d t _ ih =>
      rcases List.mem_append.mp h with hhere | hlater
      · split at hhere
        · exact Nat.le_of_eq (congrArg Place.byte (eq_place_of_mem_ofChar? hhere)).symm
        · contradiction
      · have := ih hlater
        rw [byte_after] at this
        omega

theorem inOrder_scanFrom (mode : ScanMode) (place : Place) (t : Text) :
    InOrder (scanFrom mode place t) := by
  fun_induction scanFrom mode place t with
  | case1 => exact .nil
  | case2 place c => cases ofChar? c place <;> simp [InOrder]
  | case3 => exact .nil
  | case4 mode place c d t after _ ih => exact ih
  | case5 mode place c d t _ ih =>
      refine List.pairwise_append.mpr ⟨?_, ih, fun a ha b hb => ?_⟩
      · split
        · cases ofChar? c place <;> simp
        · exact .nil
      · have hle := le_of_mem_scanFrom hb
        have hpos := c.utf8Size_pos
        rw [byte_after] at hle
        split at ha
        · rw [eq_place_of_mem_ofChar? ha]
          omega
        · contradiction

end BracketToken

namespace BracketPair

/-- One pair is strictly inside another. -/
def Inside (p q : BracketPair) : Prop :=
  q.opening.byte < p.opening.byte ∧ p.closing.byte < q.closing.byte

/-- Two pairs are disjoint, or one is strictly inside the other. -/
def Nested (p q : BracketPair) : Prop :=
  p.closing.byte < q.opening.byte ∨ q.closing.byte < p.opening.byte ∨ p.Inside q ∨ q.Inside p

/-- A pair closes inside another one that it does not contain. -/
def Crosses (p q : BracketPair) : Prop :=
  p.opening.byte < q.opening.byte ∧ q.opening.byte < p.closing.byte ∧
    p.closing.byte < q.closing.byte

/-- Tell whether no closing bracket reaches over an open one that is paired later. -/
def untangled (waiting : List OpenBracket) : List BracketToken → Bool
  | [] => true
  | token :: tokens =>
      if token.opens then untangled (⟨token, waiting.length⟩ :: waiting) tokens
      else
        match waiting.find? (·.token.kind == token.kind) with
        | none => untangled waiting tokens
        | some _ =>
            let passed := waiting.takeWhile (·.token.kind != token.kind)
            let left := waiting.eraseP (·.token.kind == token.kind)
            ((matchFrom left tokens).all fun q => passed.all (·.token.place != q.opening)) &&
              untangled left tokens

section Untangled

variable {waiting passed left : List OpenBracket} {partner : OpenBracket} {token : BracketToken}

theorem untangled_opening (hopens : token.opens = true) (tokens : List BracketToken) :
    untangled waiting (token :: tokens) = untangled (⟨token, waiting.length⟩ :: waiting) tokens := by
  rw [untangled, if_pos hopens]

theorem untangled_lone (hcloses : token.opens = false)
    (hnone : ∀ o ∈ waiting, o.token.kind ≠ token.kind) (tokens : List BracketToken) :
    untangled waiting (token :: tokens) = untangled waiting tokens := by
  have hfind : waiting.find? (·.token.kind == token.kind) = none := by
    simpa [List.find?_eq_none] using hnone
  simp [untangled, hcloses, hfind]

/-- A closing bracket reaches over the open brackets of other kinds that are nearer than its
partner. -/
theorem untangled_partner_iff (hcloses : token.opens = false)
    (hpassed : ∀ o ∈ passed, o.token.kind ≠ token.kind) (hkind : partner.token.kind = token.kind)
    (tokens : List BracketToken) :
    untangled (passed ++ partner :: left) (token :: tokens) = true ↔
      (∀ q ∈ matchFrom (passed ++ left) tokens, ∀ o ∈ passed, o.token.place ≠ q.opening) ∧
        untangled (passed ++ left) tokens = true := by
  obtain ⟨hfind, herase⟩ := find?_partner left hpassed hkind
  have htake : (passed ++ partner :: left).takeWhile (·.token.kind != token.kind) = passed := by
    rw [List.takeWhile_append_of_pos (by simpa using hpassed)]
    simp [hkind]
  simp [untangled, hcloses, hfind, herase, htake]

end Untangled

/-- The waiting brackets, the nearest first, and the tokens behind them stand in order. -/
structure Ordered (waiting : List OpenBracket) (tokens : List BracketToken) : Prop where
  opens : ∀ o ∈ waiting, o.token.opens = true
  nearest : waiting.Pairwise fun a b => b.token.place.byte < a.token.place.byte
  ascending : BracketToken.InOrder tokens
  before : ∀ o ∈ waiting, ∀ t ∈ tokens, o.token.place.byte < t.place.byte

namespace Ordered

variable {waiting passed left : List OpenBracket} {partner : OpenBracket} {token : BracketToken}
  {tokens : List BracketToken}

theorem of_inOrder (h : BracketToken.InOrder tokens) : Ordered [] tokens where
  opens := by simp
  nearest := .nil
  ascending := h
  before := by simp

theorem of_scan (source : Text) : Ordered [] (BracketToken.scan source) :=
  of_inOrder (BracketToken.inOrder_scanFrom _ _ source)

/-- A token that finds no partner is left out. -/
theorem drop (h : Ordered waiting (token :: tokens)) : Ordered waiting tokens where
  opens := h.opens
  nearest := h.nearest
  ascending := (List.pairwise_cons.mp h.ascending).2
  before o ho t ht := h.before o ho t (List.mem_cons_of_mem token ht)

/-- An opening bracket is the nearest of those that wait. -/
theorem push (h : Ordered waiting (token :: tokens)) (hopens : token.opens = true) (depth : Nat) :
    Ordered (⟨token, depth⟩ :: waiting) tokens where
  opens := List.forall_mem_cons.mpr ⟨hopens, h.opens⟩
  nearest := List.pairwise_cons.mpr
    ⟨fun o ho => h.before o ho token List.mem_cons_self, h.nearest⟩
  ascending := h.drop.ascending
  before := List.forall_mem_cons.mpr ⟨(List.pairwise_cons.mp h.ascending).1, h.drop.before⟩

/-- A pair takes its opening bracket away. -/
theorem close (h : Ordered (passed ++ partner :: left) (token :: tokens)) :
    Ordered (passed ++ left) tokens := by
  have hfewer := (List.sublist_cons_self partner left).append_left passed
  exact {
    opens := fun o ho => h.opens o (hfewer.subset ho)
    nearest := h.nearest.sublist hfewer
    ascending := h.drop.ascending
    before := fun o ho => h.drop.before o (hfewer.subset ho) }

/-- The bracket that opens a pair stands between those farther away and those reached over. -/
theorem around (h : Ordered (passed ++ partner :: left) tokens) :
    (∀ o ∈ passed, partner.token.place.byte < o.token.place.byte) ∧
      ∀ o ∈ left, o.token.place.byte < partner.token.place.byte := by
  obtain ⟨-, hpartner, hpassed⟩ := List.pairwise_append.mp h.nearest
  exact ⟨fun o ho => hpassed o ho partner List.mem_cons_self, (List.pairwise_cons.mp hpartner).1⟩

end Ordered

section Later

variable {waiting passed left : List OpenBracket} {partner : OpenBracket} {token : BracketToken}
  {tokens : List BracketToken} {p q : BracketPair}

/-- How a pair lies to those that are closed later: it is apart from them or inside them, or it
crosses one of another kind, whose opening bracket it reaches over. -/
theorem later_cases (h : Ordered (passed ++ partner :: left) (token :: tokens))
    (hpassed : ∀ o ∈ passed, o.token.kind ≠ token.kind)
    (hp : p = ⟨token.kind, partner.depth, partner.token.place, token.place⟩)
    (hq : q ∈ matchFrom (passed ++ left) tokens) :
    p.closing.byte < q.closing.byte ∧
      ((p.closing.byte < q.opening.byte ∨ p.Inside q) ∧ (∀ o ∈ passed, o.token.place ≠ q.opening) ∨
        p.kind ≠ q.kind ∧ p.Crosses q ∧ ∃ o ∈ passed, o.token.place = q.opening) := by
  obtain ⟨opening, closing, hjoins, hopening, hclosing⟩ :=
    exists_joined_of_mem_matchFrom h.close.opens hq
  obtain ⟨hnearer, hfarther⟩ := h.around
  have hbehind := (List.pairwise_cons.mp h.ascending).1
  have hover : ∀ o ∈ passed, o.token.place.byte < token.place.byte := fun o ho =>
    h.before o (List.mem_append_left _ ho) token List.mem_cons_self
  have hclosed : token.place.byte < q.closing.byte := by
    rw [hjoins.closing_place]
    exact hbehind closing hclosing
  subst hp
  refine ⟨hclosed, ?_⟩
  -- The later pair opens between this one's brackets, before both of them, or behind both.
  rcases hopening with hwait | hlater
  · obtain ⟨o, ho, rfl⟩ := List.mem_map.mp hwait
    rcases List.mem_append.mp ho with hreached | hunder
    · refine Or.inr ⟨?_, ⟨?_, ?_, hclosed⟩, o, hreached, hjoins.opening_place.symm⟩
      · rw [← hjoins.opening_kind]
        exact (hpassed o hreached).symm
      · rw [hjoins.opening_place]
        exact hnearer o hreached
      · rw [hjoins.opening_place]
        exact hover o hreached
    · have hout := hfarther o hunder
      rw [← hjoins.opening_place] at hout
      refine Or.inl ⟨Or.inr ⟨hout, hclosed⟩, fun o' ho' hplace => ?_⟩
      have hin := hnearer o' ho'
      rw [hplace] at hin
      omega
  · have hapart := hbehind opening hlater
    rw [← hjoins.opening_place] at hapart
    refine Or.inl ⟨Or.inl hapart, fun o ho hplace => ?_⟩
    have hin := hover o ho
    rw [hplace] at hin
    omega

/-- The pairs come in the order of their closing brackets, and only pairs of different kinds
cross. -/
theorem pairwise_later (h : Ordered waiting tokens) :
    (matchFrom waiting tokens).Pairwise fun p q =>
      p.closing.byte < q.closing.byte ∧ (p.Nested q ∨ p.kind ≠ q.kind) := by
  induction waiting, tokens using matching_induction with
  | nil waiting => exact .nil
  | opening waiting token tokens hopens ih =>
      rw [matchFrom_opening hopens]
      exact ih (h.push hopens _)
  | lone waiting token tokens hcloses hnone ih =>
      rw [matchFrom_lone hcloses hnone]
      exact ih h.drop
  | paired passed partner left token tokens hcloses hpassed hkind ih =>
      rw [matchFrom_partner hcloses hpassed hkind]
      refine List.pairwise_cons.mpr ⟨fun q hq => ?_, ih h.close⟩
      obtain ⟨hclosed, ⟨hnested, -⟩ | ⟨hother, -⟩⟩ := later_cases h hpassed rfl hq
      · exact ⟨hclosed, Or.inl (hnested.imp_right fun hin => Or.inr (Or.inl hin))⟩
      · exact ⟨hclosed, Or.inr hother⟩

theorem Crosses.not_nested (h : p.Crosses q) : ¬ p.Nested q := by
  unfold Crosses at h
  unfold Nested Inside
  omega

/-- No pairs cross exactly if no closing bracket reaches over an open one that is paired
later. -/
theorem pairwise_nested_iff (h : Ordered waiting tokens) :
    (matchFrom waiting tokens).Pairwise Nested ↔ untangled waiting tokens = true := by
  induction waiting, tokens using matching_induction with
  | nil waiting => simp [matchFrom, untangled]
  | opening waiting token tokens hopens ih =>
      rw [matchFrom_opening hopens, untangled_opening hopens]
      exact ih (h.push hopens _)
  | lone waiting token tokens hcloses hnone ih =>
      rw [matchFrom_lone hcloses hnone, untangled_lone hcloses hnone]
      exact ih h.drop
  | paired passed partner left token tokens hcloses hpassed hkind ih =>
      rw [matchFrom_partner hcloses hpassed hkind, untangled_partner_iff hcloses hpassed hkind,
        List.pairwise_cons, ih h.close]
      refine and_congr_left fun _ => forall₂_congr fun q hq => ?_
      obtain ⟨-, ⟨hnested, hfree⟩ | ⟨-, hcross, o, ho, hplace⟩⟩ := later_cases h hpassed rfl hq
      · exact iff_of_true (hnested.imp_right fun hin => Or.inr (Or.inl hin)) hfree
      · exact iff_of_false hcross.not_nested fun hfree => hfree o ho hplace

end Later

/-! ### Well-formed brackets -/

/-- Tokens are well-formed if each closing bracket meets its partner as the nearest open one,
and none is left over. -/
inductive Balanced : List BracketToken → Prop
  | nil : Balanced []
  | pair {opening closing : BracketToken} {inner rest : List BracketToken}
      (hopens : opening.opens = true) (hcloses : closing.opens = false)
      (hkind : opening.kind = closing.kind) (hinner : Balanced inner) (hrest : Balanced rest) :
      Balanced (opening :: (inner ++ closing :: rest))

/-- Well-formed tokens leave the brackets that wait as they are. -/
theorem Balanced.untangled_append {tokens : List BracketToken} (h : Balanced tokens)
    (waiting : List OpenBracket) (more : List BracketToken) :
    untangled waiting (tokens ++ more) = untangled waiting more := by
  induction h generalizing waiting more with
  | nil => rfl
  | @pair opening closing inner rest hopens hcloses hkind hinner hrest ihinner ihrest =>
      rw [List.cons_append, List.append_assoc, List.cons_append, untangled, if_pos hopens,
        ihinner, untangled, if_neg (by simp [hcloses])]
      simp [hkind, ihrest]

theorem Balanced.untangled {tokens : List BracketToken} (h : Balanced tokens) :
    untangled [] tokens = true := by
  have hnone := h.untangled_append [] []
  rwa [List.append_nil] at hnone

/-- A square bracket that stays alone inside a round pair tangles nothing. -/
example : untangled [] (BracketToken.scan "( [ )".toList) = true := by decide

/-! ### The pairs of some tokens and of a source -/

theorem Nested.symm {p q : BracketPair} (h : p.Nested q) : q.Nested p := by
  rcases h with hbefore | hbehind | hin | hout
  · exact Or.inr (Or.inl hbefore)
  · exact Or.inl hbehind
  · exact Or.inr (Or.inr (Or.inr hin))
  · exact Or.inr (Or.inr (Or.inl hout))

/-- Of two nested pairs around one place, the one of least span is inside the other. -/
theorem Nested.inside_of_span_le {p q : BracketPair} {offset : Nat} (h : p.Nested q)
    (hp : p.encloses offset = true) (hq : q.encloses offset = true) (hle : p.span ≤ q.span) :
    p.Inside q := by
  simp only [encloses, Bool.and_eq_true, decide_eq_true_eq] at hp hq
  unfold span at hle
  unfold Nested Inside at *
  omega

theorem nested_or_kind_ne {tokens : List BracketToken} (h : BracketToken.InOrder tokens)
    {p q : BracketPair} (hp : p ∈ ofTokens tokens) (hq : q ∈ ofTokens tokens) (hne : p ≠ q) :
    p.Nested q ∨ p.kind ≠ q.kind := by
  have hlater := (pairwise_later (Ordered.of_inOrder h)).imp fun h => h.2
  have hsymm : Std.Symm fun p q : BracketPair => p.Nested q ∨ p.kind ≠ q.kind :=
    ⟨fun _ _ h => h.imp Nested.symm Ne.symm⟩
  exact hlater.forall hp hq hne

variable {source : Text}

theorem eq_or_nested_or_kind_ne {p q : BracketPair} (hp : p ∈ ofSource source)
    (hq : q ∈ ofSource source) (hne : p ≠ q) : p.Nested q ∨ p.kind ≠ q.kind :=
  nested_or_kind_ne (BracketToken.inOrder_scanFrom _ _ source) hp hq hne

/-- All pairs of a source are nested exactly if the source is untangled. -/
theorem forall_nested_iff :
    (∀ p ∈ ofSource source, ∀ q ∈ ofSource source, p ≠ q → p.Nested q) ↔
      untangled [] (BracketToken.scan source) = true := by
  rw [← pairwise_nested_iff (Ordered.of_scan source)]
  constructor
  · intro h
    refine (pairwise_later (Ordered.of_scan source)).imp_of_mem fun {p q} hp hq hlater => ?_
    refine h p hp q hq fun heq => ?_
    rw [heq] at hlater
    omega
  · intro h p hp q hq hne
    have hsymm : Std.Symm Nested := ⟨fun _ _ => Nested.symm⟩
    exact h.forall hp hq hne

/-- Two pairs of one kind are disjoint or one is strictly inside the other, and so are all
pairs exactly if no closing bracket reaches over an open one that is paired later; brackets
that are well-formed never do.  The innermost pair around a place is inside every other one
around it of its kind, and inside every other one at all if the source is untangled. -/
theorem pairs_nested (source : Text) :
    (∀ p ∈ ofSource source, ∀ q ∈ ofSource source, p ≠ q → p.kind = q.kind → p.Nested q) ∧
    ((∀ p ∈ ofSource source, ∀ q ∈ ofSource source, p ≠ q → p.Nested q) ↔
      untangled [] (BracketToken.scan source) = true) ∧
    (Balanced (BracketToken.scan source) → untangled [] (BracketToken.scan source) = true) ∧
    (∀ offset, ∀ p ∈ innermost? (ofSource source) offset, ∀ q ∈ ofSource source,
      q.encloses offset = true → p ≠ q →
      (p.kind = q.kind ∨ untangled [] (BracketToken.scan source) = true) → p.Inside q) := by
  have hkinds : ∀ p ∈ ofSource source, ∀ q ∈ ofSource source, p ≠ q → p.kind = q.kind →
      p.Nested q := fun p hp q hq hne hkind =>
    (eq_or_nested_or_kind_ne hp hq hne).resolve_right fun hother => hother hkind
  refine ⟨hkinds, forall_nested_iff, Balanced.untangled, ?_⟩
  intro offset p hinnermost q hq hencloses hne hcase
  have hmem := List.mem_filter.mp (mem_of_leastSpan? _ p hinnermost)
  have hle := span_le_of_leastSpan? _ p q hinnermost (List.mem_filter.mpr ⟨hq, hencloses⟩)
  have hnested : p.Nested q := by
    rcases hcase with hkind | huntangled
    · exact hkinds p hmem.1 q hq hne hkind
    · exact forall_nested_iff.mpr huntangled p hmem.1 q hq hne
  exact hnested.inside_of_span_le hmem.2 hencloses hle

/-- The round bracket of `([)]` closes inside the square pair, so the innermost pair behind the
square bracket is not inside the other one around that place. -/
theorem crossing_pairs : ∃ p ∈ ofSource "([)]".toList, ∃ q ∈ ofSource "([)]".toList,
    p ≠ q ∧ ¬ p.Nested q ∧ innermost? (ofSource "([)]".toList) 2 = some p ∧
      q.encloses 2 = true := by
  refine ⟨⟨.paren, 0, ⟨0, 0, 0⟩, ⟨0, 2, 2⟩⟩, by decide, ⟨.bracket, 1, ⟨0, 1, 1⟩, ⟨0, 3, 3⟩⟩,
    by decide, by decide, ?_, by decide, by decide⟩
  simp [Nested, Inside]

end BracketPair

end MathTyping
