import MathTyping.Decimal

/-!
# JSON values

The value tree of JSON.  Object members keep their order and may repeat a name;
it is for the reader of an object to refuse or to choose.  A string literal whose
escapes name half of a surrogate pair stands for no text.  It is kept as a value
that no reader takes, and so is an object with such a name for a member.
-/

namespace MathTyping

/-- A JSON value. -/
inductive Json where
  | null
  | bool (value : Bool)
  | integer (value : Int)
  | decimal (value : Decimal)
  | string (value : Text)
  | broken
  | array (items : List Json)
  | object (members : List (Text × Json))
deriving Inhabited

namespace Json

/-- Write a natural number. -/
def nat (n : Nat) : Json := integer n

/-- Write an optional value, with null for none. -/
def optional (write : α → Json) : Option α → Json
  | none => null
  | some a => write a

/-- Write a list as an array. -/
def list (write : α → Json) (items : List α) : Json := array (items.map write)

/-- Write an object from members named by literals. -/
def record (members : List (String × Json)) : Json :=
  object (members.map fun m => (m.1.toList, m.2))

/-- The members of an object. -/
def members? : Json → Option (List (Text × Json))
  | object ms => some ms
  | _ => none

/-- The items of an array. -/
def items? : Json → Option (List Json)
  | array is => some is
  | _ => none

/-- Find the last member of an object with a name. -/
def get? (j : Json) (name : String) : Option Json :=
  match j with
  | object ms => (ms.reverse.find? fun m => m.1 == name.toList).map (·.2)
  | _ => none

end Json

end MathTyping
