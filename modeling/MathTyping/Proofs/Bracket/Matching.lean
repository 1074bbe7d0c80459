import MathTyping.Bracket.Match

/-!
# The matching, token by token

A token meets the open brackets in one of three ways: it opens and is the nearest of them, it
closes and finds no open bracket of its kind, or it closes and takes the nearest one of its kind
away, wherever that stands.  There is one equation for each, and `matching_induction` is the
induction along a list of tokens by these three.
-/

namespace MathTyping

namespace BracketPair

variable {waiting passed left : List OpenBracket} {partner : OpenBracket} {token : BracketToken}

theorem matchFrom_opening (hopens : token.opens = true) (tokens : List BracketToken) :
    matchFrom waiting (token :: tokens) = matchFrom (⟨token, waiting.length⟩ :: waiting) tokens := by
  rw [matchFrom, if_pos hopens]

theorem matchFrom_lone (hcloses : token.opens = false)
    (hnone : ∀ o ∈ waiting, o.token.kind ≠ token.kind) (tokens : List BracketToken) :
    matchFrom waiting (token :: tokens) = matchFrom waiting tokens := by
  have hfind : waiting.find? (·.token.kind == token.kind) = none := by
    simpa [List.find?_eq_none] using hnone
  simp [matchFrom, hcloses, hfind]

/-- The nearest bracket of a kind is found, and taking it away leaves the others. -/
theorem find?_partner (left : List OpenBracket) (hpassed : ∀ o ∈ passed, o.token.kind ≠ token.kind)
    (hkind : partner.token.kind = token.kind) :
    (passed ++ partner :: left).find? (·.token.kind == token.kind) = some partner ∧
      (passed ++ partner :: left).eraseP (·.token.kind == token.kind) = passed ++ left := by
  have hbefore : passed.find? (·.token.kind == token.kind) = none := by
    simpa [List.find?_eq_none] using hpassed
  constructor
  · rw [List.find?_append, hbefore, Option.none_or, List.find?_cons_of_pos (by simpa using hkind)]
  · rw [List.eraseP_append_right _ (by simpa using hpassed),
      List.eraseP_cons_of_pos (by simpa using hkind)]

theorem matchFrom_partner (hcloses : token.opens = false)
    (hpassed : ∀ o ∈ passed, o.token.kind ≠ token.kind) (hkind : partner.token.kind = token.kind)
    (tokens : List BracketToken) :
    matchFrom (passed ++ partner :: left) (token :: tokens) =
      ⟨token.kind, partner.depth, partner.token.place, token.place⟩ ::
        matchFrom (passed ++ left) tokens := by
  obtain ⟨hfind, herase⟩ := find?_partner left hpassed hkind
  simp [matchFrom, hcloses, hfind, herase]

/-- Among the open brackets there is none of a kind, or there is a nearest one. -/
theorem exists_partner (waiting : List OpenBracket) (kind : BracketKind) :
    (∀ o ∈ waiting, o.token.kind ≠ kind) ∨
      ∃ passed partner left, waiting = passed ++ partner :: left ∧
        (∀ o ∈ passed, o.token.kind ≠ kind) ∧ partner.token.kind = kind := by
  cases hfind : waiting.find? (·.token.kind == kind) with
  | none => exact Or.inl (by simpa [List.find?_eq_none] using hfind)
  | some partner =>
      obtain ⟨hkind, passed, left, rfl, hpassed⟩ := List.find?_eq_some_iff_append.mp hfind
      exact Or.inr ⟨passed, partner, left, rfl, by simpa using hpassed, by simpa using hkind⟩

theorem matching_induction {motive : List OpenBracket → List BracketToken → Prop}
    (nil : ∀ waiting, motive waiting [])
    (opening : ∀ waiting token tokens, token.opens = true →
      motive (⟨token, waiting.length⟩ :: waiting) tokens → motive waiting (token :: tokens))
    (lone : ∀ waiting token tokens, token.opens = false →
      (∀ o ∈ waiting, o.token.kind ≠ token.kind) → motive waiting tokens →
        motive waiting (token :: tokens))
    (paired : ∀ passed partner left token tokens, token.opens = false →
      (∀ o ∈ passed, o.token.kind ≠ token.kind) → partner.token.kind = token.kind →
        motive (passed ++ left) tokens → motive (passed ++ partner :: left) (token :: tokens))
    (waiting : List OpenBracket) (tokens : List BracketToken) : motive waiting tokens := by
  induction tokens generalizing waiting with
  | nil => exact nil waiting
  | cons token tokens ih =>
      by_cases htoken : token.opens = true
      · exact opening waiting token tokens htoken (ih _)
      · have hcloses : token.opens = false := by simpa using htoken
        rcases exists_partner waiting token.kind with
          hnone | ⟨passed, partner, left, rfl, hpassed, hkind⟩
        · exact lone waiting token tokens hcloses hnone (ih waiting)
        · exact paired passed partner left token tokens hcloses hpassed hkind (ih _)

end BracketPair

end MathTyping
