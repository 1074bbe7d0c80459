import Mathlib.Data.List.Perm.Subperm
import MathTyping.Proofs.Bracket.Nesting

/-!
# The kinds of brackets do not mix

The open brackets of all kinds wait in one list, and a closing bracket takes its partner from
the middle of it.  Yet the kinds do not get into each other's way: of the brackets that wait,
those of one kind are, in their order, the ones that would wait if no other kind were there
(`filter_matchFrom`).  Only the depth of a pair counts the others.

A matching uses no bracket twice (`brackets_matchFrom_subperm`), whatever the tokens are.
-/

namespace MathTyping

namespace BracketPair

/-- What a pair joins: its kind and its two brackets, but not its depth. -/
def ends (p : BracketPair) : BracketKind × Place × Place := (p.kind, p.opening, p.closing)

/-- The brackets of some pairs. -/
def brackets (pairs : List BracketPair) : List Place := pairs.flatMap fun p => [p.opening, p.closing]

@[simp] theorem brackets_cons (p : BracketPair) (pairs : List BracketPair) :
    brackets (p :: pairs) = p.opening :: p.closing :: brackets pairs := rfl

/-! ### One kind alone -/

/-- The tokens of the brackets of one kind among those that wait. -/
def waitingOf (kind : BracketKind) (waiting : List OpenBracket) : List BracketToken :=
  (waiting.map (·.token)).filter (·.kind = kind)

theorem waitingOf_cons (kind : BracketKind) (o : OpenBracket) (waiting : List OpenBracket) :
    waitingOf kind (o :: waiting) =
      if o.token.kind = kind then o.token :: waitingOf kind waiting else waitingOf kind waiting := by
  simp [waitingOf, List.filter_cons]

theorem waitingOf_append (kind : BracketKind) (passed left : List OpenBracket) :
    waitingOf kind (passed ++ left) = waitingOf kind passed ++ waitingOf kind left := by
  simp [waitingOf]

theorem waitingOf_eq_nil {kind : BracketKind} {waiting : List OpenBracket}
    (h : ∀ o ∈ waiting, o.token.kind ≠ kind) : waitingOf kind waiting = [] := by
  simpa [waitingOf, List.filter_eq_nil_iff] using h

/-- Matching against the brackets of all kinds, and looking at the pairs of one of them, is
matching the tokens of that kind against the brackets of that kind. -/
theorem filter_matchFrom (kind : BracketKind) (waiting : List OpenBracket)
    (tokens : List BracketToken) (alone : List OpenBracket)
    (halone : waitingOf kind waiting = alone.map (·.token)) :
    ((matchFrom waiting tokens).filter (·.kind = kind)).map ends =
      (matchFrom alone (tokens.filter (·.kind = kind))).map ends := by
  induction waiting, tokens using matching_induction generalizing alone with
  | nil waiting => rfl
  | opening waiting token tokens hopens ih =>
      rw [matchFrom_opening hopens]
      by_cases hkind : token.kind = kind
      · rw [List.filter_cons_of_pos (by simpa using hkind), matchFrom_opening hopens]
        refine ih _ ?_
        rw [waitingOf_cons, if_pos hkind, halone, List.map_cons]
      · rw [List.filter_cons_of_neg (by simpa using hkind)]
        refine ih _ ?_
        rw [waitingOf_cons, if_neg hkind, halone]
  | lone waiting token tokens hcloses hnone ih =>
      rw [matchFrom_lone hcloses hnone]
      by_cases hkind : token.kind = kind
      · subst hkind
        have hempty : alone = [] := by
          rw [waitingOf_eq_nil hnone] at halone
          exact List.map_eq_nil_iff.mp halone.symm
        rw [List.filter_cons_of_pos (by simp), matchFrom_lone hcloses (by simp [hempty])]
        exact ih _ halone
      · rw [List.filter_cons_of_neg (by simpa using hkind)]
        exact ih _ halone
  | paired passed partner left token tokens hcloses hpassed hpartner ih =>
      rw [matchFrom_partner hcloses hpassed hpartner]
      rw [waitingOf_append, waitingOf_cons] at halone
      by_cases hkind : token.kind = kind
      · -- The partner is the nearest bracket of the kind, so it is the first one that waits alone.
        subst hkind
        rw [waitingOf_eq_nil hpassed, List.nil_append, if_pos hpartner] at halone
        obtain ⟨nearest, others, rfl, hnearest, hothers⟩ := List.map_eq_cons_iff.mp halone.symm
        have hfirst : nearest.token.kind = token.kind := by rw [hnearest, hpartner]
        rw [List.filter_cons_of_pos (by simp), List.filter_cons_of_pos (by simp),
          ← List.nil_append (nearest :: others),
          matchFrom_partner hcloses (by simp) hfirst, List.map_cons, List.map_cons,
          ih others ?_]
        · rw [ends, ends, hnearest, List.nil_append]
        · rw [waitingOf_append, waitingOf_eq_nil hpassed, List.nil_append, hothers]
      · rw [List.filter_cons_of_neg (by simpa using hkind),
          List.filter_cons_of_neg (by simpa using hkind)]
        refine ih _ ?_
        rw [waitingOf_append, ← halone, if_neg (hpartner ▸ hkind)]

/-! ### Each bracket once -/

/-- The pairs are made of brackets that waited and of tokens, and no bracket is in two of
them. -/
theorem brackets_matchFrom_subperm (waiting : List OpenBracket) (tokens : List BracketToken) :
    (brackets (matchFrom waiting tokens)).Subperm
      (waiting.map (·.token.place) ++ tokens.map (·.place)) := by
  induction waiting, tokens using matching_induction with
  | nil waiting => exact List.nil_subperm
  | opening waiting token tokens hopens ih =>
      rw [matchFrom_opening hopens]
      exact ih.trans List.perm_middle.symm.subperm
  | lone waiting token tokens hcloses hnone ih =>
      rw [matchFrom_lone hcloses hnone]
      exact ih.trans ((List.sublist_cons_self _ _).append_left _).subperm
  | paired passed partner left token tokens hcloses hpassed hpartner ih =>
      rw [matchFrom_partner hcloses hpassed hpartner, brackets_cons]
      have hboth := (List.subperm_cons partner.token.place).mpr
        ((List.subperm_cons token.place).mpr ih)
      refine hboth.trans (List.Perm.subperm ?_)
      simp only [List.map_append, List.map_cons]
      refine (List.Perm.cons _ List.perm_middle.symm).trans ?_
      rw [List.append_assoc, List.append_assoc]
      exact List.perm_middle.symm

theorem opening_lt_closing {waiting : List OpenBracket} {tokens : List BracketToken}
    (h : Ordered waiting tokens) :
    ∀ p ∈ matchFrom waiting tokens, p.opening.byte < p.closing.byte := by
  induction waiting, tokens using matching_induction with
  | nil waiting => simp [matchFrom]
  | opening waiting token tokens hopens ih =>
      rw [matchFrom_opening hopens]
      exact ih (h.push hopens _)
  | lone waiting token tokens hcloses hnone ih =>
      rw [matchFrom_lone hcloses hnone]
      exact ih h.drop
  | paired passed partner left token tokens hcloses hpassed hpartner ih =>
      rw [matchFrom_partner hcloses hpassed hpartner]
      refine List.forall_mem_cons.mpr ⟨?_, ih h.close⟩
      exact h.before partner (by simp) token List.mem_cons_self

theorem nodup_brackets {tokens : List BracketToken} (h : BracketToken.InOrder tokens) :
    ((ofTokens tokens).flatMap fun p => [p.opening.byte, p.closing.byte]).Nodup := by
  have htokens : ((tokens.map (·.place)).map (·.byte)).Nodup :=
    List.pairwise_map.mpr (List.pairwise_map.mpr (h.imp Nat.ne_of_lt))
  obtain ⟨used, hperm, hused⟩ := brackets_matchFrom_subperm [] tokens
  have hbrackets : ((brackets (ofTokens tokens)).map (·.byte)).Nodup :=
    (hperm.map _).nodup_iff.mp ((hused.map _).nodup htokens)
  simpa [brackets, List.map_flatMap] using hbrackets

/-- **Brackets of different kinds are matched as if the others were not there**, and each bracket
at most once, for all tokens in the order of their bytes as a scan gives them: the pairs of a
kind are those of its own tokens, no byte is an end of two pairs, each pair opens before it
closes, the pairs come in the order of their closing brackets, and those of one kind are
disjoint or nested. -/
theorem kinds_matched_apart :
    (∀ source, BracketToken.InOrder (BracketToken.scan source)) ∧
    ∀ tokens, BracketToken.InOrder tokens →
      (∀ kind, ((ofTokens tokens).filter (·.kind = kind)).map ends =
        (ofTokens (tokens.filter (·.kind = kind))).map ends) ∧
      ((ofTokens tokens).flatMap fun p => [p.opening.byte, p.closing.byte]).Nodup ∧
      (∀ p ∈ ofTokens tokens, p.opening.byte < p.closing.byte) ∧
      (ofTokens tokens).Pairwise (fun p q => p.closing.byte < q.closing.byte) ∧
      (∀ p ∈ ofTokens tokens, ∀ q ∈ ofTokens tokens, p ≠ q → p.kind = q.kind → p.Nested q) := by
  refine ⟨BracketToken.inOrder_scanFrom _ _, fun tokens h => ⟨?_, ?_, ?_, ?_, ?_⟩⟩
  · exact fun kind => filter_matchFrom kind [] tokens [] rfl
  · exact nodup_brackets h
  · exact opening_lt_closing (Ordered.of_inOrder h)
  · exact (pairwise_later (Ordered.of_inOrder h)).imp fun hlater => hlater.1
  · exact fun p hp q hq hne hkind =>
      (nested_or_kind_ne h hp hq hne).resolve_right fun hother => hother hkind

end BracketPair

end MathTyping
