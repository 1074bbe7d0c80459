import MathTyping.Region
import MathTyping.Bracket
import MathTyping.Query

/-!
# Decorations

A decoration marks a range of the document with a style class.  Every bracket
of the region is marked, the pair around the cursor a second time, and so is
the text of the query that the popup answers.
-/

namespace MathTyping

/-- A range of the document with a style class. -/
structure Highlight where
  range : Range
  className : Text
deriving DecidableEq, Repr, Inhabited

namespace Highlight

/-- The class of the text of a query. -/
def triggerClass : Text := "mathmate-trigger".toList

/-- The class of every bracket of a kind. -/
def bracketClass (kind : BracketKind) : Text := "mathmate-bracket-".toList ++ kind.name.toList

/-- The class of the pair around the cursor. -/
def enclosingClass (kind : BracketKind) : Text :=
  "mathmate-bracket-enclosing-".toList ++ kind.name.toList

/-- Every class of brackets. -/
def bracketClasses : List Text :=
  BracketKind.all.flatMap fun k => [bracketClass k, enclosingClass k]

/-- Every class. -/
def allClasses : List Text := bracketClasses ++ [triggerClass]

/-- Mark the bracket at a position. -/
def bracket (p : Position) (className : Text) : Highlight := ⟨Range.onLine p 1, className⟩

/-- The positions of the two brackets of a pair of a region. -/
def projectPair (region : Region) (pair : BracketPair) : Position × Position :=
  (region.ofLocal pair.opening.position, region.ofLocal pair.closing.position)

/-- Mark both brackets of a pair. -/
def ofPair (region : Region) (className : Text) (pair : BracketPair) : List Highlight :=
  let (opening, closing) := projectPair region pair
  [bracket opening className, bracket closing className]

/-- Mark the brackets of a region, and the pair around the cursor again. -/
def ofPairs (region : Region) (pairs : List BracketPair) (enclosing : Option BracketPair) :
    List Highlight :=
  pairs.flatMap (fun p => ofPair region (bracketClass p.kind) p) ++
    enclosing.toList.flatMap (fun p => ofPair region (enclosingClass p.kind) p)

/-- Mark the text of a query. -/
def ofQuery (q : Query) : Highlight := ⟨q.range, triggerClass⟩

end Highlight

end MathTyping
