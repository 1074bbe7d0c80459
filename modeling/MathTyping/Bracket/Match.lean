import MathTyping.Bracket.Token

/-!
# Matching brackets

A closing bracket pairs with the nearest open one of its kind, wherever that
stands among the open brackets.  Brackets that stay alone are dropped.
-/

namespace MathTyping

/-- An opening bracket that waits for its partner, with the number of brackets
that were open before it. -/
structure OpenBracket where
  token : BracketToken
  depth : Nat
deriving DecidableEq, Repr

namespace BracketPair

/-- Match tokens against the open brackets, the nearest one first. -/
def matchFrom (waiting : List OpenBracket) : List BracketToken → List BracketPair
  | [] => []
  | token :: tokens =>
      if token.opens then matchFrom (⟨token, waiting.length⟩ :: waiting) tokens
      else
        match waiting.find? (·.token.kind == token.kind) with
        | none => matchFrom waiting tokens
        | some partner =>
            ⟨token.kind, partner.depth, partner.token.place, token.place⟩ ::
              matchFrom (waiting.eraseP (·.token.kind == token.kind)) tokens

/-- Match a list of tokens, the pairs in the order of their closing brackets. -/
def ofTokens (tokens : List BracketToken) : List BracketPair := matchFrom [] tokens

/-- Find the matched pairs of a source. -/
def ofSource (source : Text) : List BracketPair := ofTokens (BracketToken.scan source)

end BracketPair

end MathTyping
