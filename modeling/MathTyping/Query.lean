import MathTyping.Position

/-!
# Queries

A query is the text right before the cursor that asks for suggestions: a symbol
name, shorthand or LaTeX command, or a snippet name that ends with an at sign
and may carry an argument in parentheses.
-/

namespace MathTyping

/-- What a query asks for. -/
inductive QueryKind where
  | symbol
  | snippet
deriving DecidableEq, Repr, Inhabited

namespace QueryKind

/-- The name of a kind. -/
def name : QueryKind → String
  | symbol => "symbol"
  | snippet => "snippet"

/-- The kind of a name. -/
def ofName? (t : Text) : Option QueryKind :=
  [symbol, snippet].find? fun k => k.name.toList == t

end QueryKind

/-- A query: the typed name, the argument of a snippet with its parentheses, and
the position of the first character. -/
structure Query where
  kind : QueryKind
  word : Text
  argument : Option Text
  start : Position
deriving DecidableEq, Repr, Inhabited

namespace Query

/-- The code units that the argument occupies. -/
def argumentUnits (q : Query) : Nat :=
  match q.argument with
  | none => 0
  | some a => a.units

/-- The code units that a query occupies, the at sign included. -/
def length (q : Query) : Nat :=
  q.word.units + q.argumentUnits + (if q.kind = .snippet then 1 else 0)

/-- The range that a query occupies. -/
def range (q : Query) : Range := Range.onLine q.start q.length

/-- Remove one pair of parentheses around a text, if both are there. -/
def unwrap (argument : Text) : Text :=
  match argument with
  | '(' :: rest => if rest.getLast? = some ')' then rest.dropLast else argument
  | _ => argument

/-- The argument without its parentheses. -/
def argumentInput? (q : Query) : Option Text := q.argument.map unwrap

end Query

end MathTyping
