import MathTyping.Json

/-!
# Values with a JSON form

A type with a JSON form can be written as JSON and read back.  Objects are read
by name: unknown members are ignored, and a member that occurs twice is refused.
What a user writes by hand may also be an array, read by position.  How freely
that may be done differs from notation to notation.  Natural numbers are those
of 64 bits.
-/

namespace MathTyping

/-- A type whose values can be written as JSON and read back. -/
class JsonForm (α : Type) where
  toJson : α → Json
  ofJson? : Json → Option α

export JsonForm (toJson)

/-- Read a value from JSON. -/
def readJson? [JsonForm α] (j : Json) : Option α := JsonForm.ofJson? j

namespace Json

/-- The members of an object that is being read. -/
abbrev Members := List (Text × Json)

/-- The values under a name. -/
def valuesOf (ms : Members) (name : String) : List Json :=
  (ms.filter fun m => m.1 == name.toList).map (·.2)

/-- How freely a notation lets records and names be written. -/
structure Leniency where
  /-- Whether a record written as an array may go on after the last field. -/
  surplus : Bool
  /-- What may stand under a name that is written as the only member of an object. -/
  payload : Json → Bool

namespace Leniency

/-- The rule of JSON: an array ends with the last field, and null stands under a name. -/
def json : Leniency where
  surplus := false
  payload
    | .null => true
    | _ => false

/-- The rule of TOML, which has no null: an empty table or array stands under a name,
and what follows the last field of an array is ignored. -/
def toml : Leniency where
  surplus := true
  payload
    | .object [] => true
    | .array [] => true
    | _ => false

/-- The rule within a record that tells its type: an empty object is as good as null. -/
def typed : Leniency where
  surplus := false
  payload
    | .null => true
    | .object [] => true
    | _ => false

/-- The rule for the type of a record: what follows it in an array is left for later. -/
def typeFirst : Leniency where
  surplus := true
  payload _ := false

end Leniency

/-- The members of a record: those of an object, or the items of an array in the
order of the names, the last ones perhaps missing. -/
def fields? (rule : Leniency) (names : List String) : Json → Option Members
  | .object ms => some ms
  | .array items =>
      if rule.surplus || items.length ≤ names.length then
        some ((names.map String.toList).zip items)
      else none
  | _ => none

/-- The members of a record of which an array has to name every field, although an
object may leave one out. -/
def allFields? (names : List String) : Json → Option Members
  | .array items =>
      if items.length = names.length then some ((names.map String.toList).zip items) else none
  | j => j.fields? .json names

/-- The type that a record tells: a member of an object, or the first item of an array. -/
def type? (j : Json) : Option Text := do
  let ms ← j.fields? .typeFirst ["type"]
  match valuesOf ms "type" with
  | [.string t] => some t
  | _ => none

/-- Read a name: a string, or an object with that name for its only member. -/
def named? (rule : Leniency) (ofName? : Text → Option α) : Json → Option α
  | .string t => ofName? t
  | .object [(t, payload)] => if rule.payload payload then ofName? t else none
  | _ => none

/-- Read a member that must be there, in the given way. -/
def requiredBy? (read : Json → Option α) (ms : Members) (name : String) : Option α :=
  match valuesOf ms name with
  | [j] => read j
  | _ => none

/-- Read a member that may be missing, but not null, in the given way. -/
def defaultedBy? (read : Json → Option α) (ms : Members) (name : String) (default : α) :
    Option α :=
  match valuesOf ms name with
  | [] => some default
  | [j] => read j
  | _ => none

/-- Read a member that must be there. -/
def required? [JsonForm α] (ms : Members) (name : String) : Option α :=
  requiredBy? readJson? ms name

/-- Read a member that may be missing, but not null. -/
def defaulted? [JsonForm α] (ms : Members) (name : String) (default : α) : Option α :=
  defaultedBy? readJson? ms name default

/-- Read a member that may be missing or null. -/
def optional? [JsonForm α] (ms : Members) (name : String) : Option (Option α) :=
  match valuesOf ms name with
  | [] => some none
  | [.null] => some none
  | [j] => (readJson? j).map some
  | _ => none

/-- Read a list of values. -/
def listOf? (read : Json → Option α) : List Json → Option (List α)
  | [] => some []
  | j :: js => do
      let a ← read j
      let as ← listOf? read js
      pure (a :: as)

/-- Read an array of values. -/
def arrayOf? (read : Json → Option α) (j : Json) : Option (List α) :=
  j.items?.bind (listOf? read)

/-- A member that is left out when there is no value. -/
def present [JsonForm α] (name : String) : Option α → List (String × Json)
  | none => []
  | some a => [(name, toJson a)]

end Json

instance : JsonForm Bool where
  toJson := .bool
  ofJson?
    | .bool b => some b
    | _ => none

instance : JsonForm Nat where
  toJson n := .integer n
  ofJson?
    | .integer n => if 0 ≤ n ∧ n < Int.pow 2 64 then some n.toNat else none
    | _ => none

instance : JsonForm Int where
  toJson := .integer
  ofJson?
    | .integer n => if -Int.pow 2 63 ≤ n ∧ n < Int.pow 2 63 then some n else none
    | _ => none

instance : JsonForm Text where
  toJson := .string
  ofJson?
    | .string t => some t
    | _ => none

instance [JsonForm α] : JsonForm (List α) where
  toJson items := .array (items.map toJson)
  ofJson? := Json.arrayOf? readJson?

instance [JsonForm α] : JsonForm (Option α) where
  toJson := Json.optional toJson
  ofJson?
    | .null => some none
    | j => (readJson? j).map some

/-- The form of a type whose values are named: the name. -/
@[reducible] def namedForm (name : α → String) (ofName? : Text → Option α) : JsonForm α where
  toJson a := .string (name a).toList
  ofJson? := Json.named? .json ofName?

end MathTyping
