import MathTyping.Region
import MathTyping.Render
import MathTyping.Offset

/-!
# The bracket cache

The region around the cursor and, once they are answered, its bracket pairs.
An answer counts only if it is for the content of the latest region.
-/

namespace MathTyping

/-- What a refresh of the cache did.  Pairs stay valid when a region only moves. -/
inductive Refresh where
  | unchanged
  | moved
  | cleared
  | requested (content : Text)
deriving DecidableEq, Repr

/-- The latest region, and its pairs if they arrived. -/
structure BracketCache where
  region : Option Region
  pairs : Option (List BracketPair)
deriving DecidableEq, Repr, Inhabited

namespace BracketCache

/-- The cache outside math. -/
def empty : BracketCache := ⟨none, none⟩

/-- Tell whether the cached region has a content. -/
def holds (cache : BracketCache) (content : Text) : Bool :=
  cache.region.any fun r => r.content == content

/-- Cache the region that is now around the cursor. -/
def refresh (cache : BracketCache) (region : Option Region) : BracketCache × Refresh :=
  if cache.region = region then (cache, .unchanged)
  else
    match region with
    | none => (empty, .cleared)
    | some r =>
        if cache.holds r.content ∧ cache.pairs.isSome then (⟨some r, cache.pairs⟩, .moved)
        else (⟨some r, none⟩, .requested r.content)

/-- Take the answer for a content, and tell whether it was current.  A failure
leaves no pairs. -/
def commit (cache : BracketCache) (content : Text) (result : Rendered (List BracketPair)) :
    BracketCache × Bool :=
  if cache.holds content then
    match result with
    | .ok pairs => (⟨cache.region, some pairs⟩, true)
    | .error _ => (⟨cache.region, none⟩, true)
  else (cache, false)

/-- The innermost pair around the cursor: after its opening bracket and not after
its closing one. -/
def enclosing? (cache : BracketCache) (cursor : Position) : Option BracketPair := do
  let region ← cache.region
  let pairs ← cache.pairs
  let place ← region.toLocal? cursor
  BracketPair.innermost? pairs (region.content.offsetOf place)

end BracketCache

end MathTyping
