import MathTyping.Text.Search

/-!
# Decimal numbers

A binary number of double precision is an integer times a power of two.  From
this exact form a number is written with a fixed count of places, or with the
fewest digits that lie closer to it than to any other number of its precision.
All roundings are done on natural numbers.
-/

namespace MathTyping

/-- Divide and round to the nearest integer, halves to the even one. -/
def roundDiv (num den : Nat) : Nat :=
  let q := num / den
  let r := num % den
  if 2 * r < den then q
  else if den < 2 * r then q + 1
  else if q % 2 = 0 then q else q + 1

/-- A number in decimal notation: sign, digits, and the power of ten they count. -/
structure Decimal where
  negative : Bool
  digits : Nat
  exponent : Int
deriving DecidableEq, Repr, Inhabited

/-- A number as an integer times a power of two. -/
structure Binary where
  negative : Bool
  mantissa : Nat
  exponent : Int
deriving DecidableEq, Repr, Inhabited

namespace Binary

/-- Take a finite double apart. -/
def ofFloat (x : Float) : Binary :=
  let bits := x.toBits.toNat
  let fraction := bits % Nat.pow 2 52
  let power : Nat := bits / Nat.pow 2 52 % 2048
  let negative := decide (Nat.pow 2 63 ≤ bits)
  if power = 0 then ⟨negative, fraction, -1074⟩
  else ⟨negative, Nat.pow 2 52 + fraction, (power : Int) - 1075⟩

/-- Give the absolute value times `10 ^ power` as a fraction of natural numbers. -/
def scaled (b : Binary) (power : Int) : Nat × Nat :=
  (b.mantissa * Nat.pow 2 b.exponent.toNat * Nat.pow 10 power.toNat,
    Nat.pow 2 (-b.exponent).toNat * Nat.pow 10 (-power).toNat)

/-- Tell whether `digits * 10 ^ exponent` is read back as this number: it lies
no further than half a step away, the ends included for even mantissas. -/
def readsBack (b : Binary) (digits : Nat) (exponent : Int) : Bool :=
  -- Both sides are counted in quarters of a step of the mantissa.  Below a power
  -- of two the steps are half as long, but not below the smallest normal number.
  let below := if b.mantissa = Nat.pow 2 52 ∧ -1074 < b.exponent then 1 else 2
  let unit := Nat.pow 2 b.exponent.toNat * Nat.pow 10 (-exponent).toNat
  let value := 4 * digits * Nat.pow 10 exponent.toNat * Nat.pow 2 (-b.exponent).toNat
  let low := (4 * b.mantissa - below) * unit
  let high := (4 * b.mantissa + 2) * unit
  if b.mantissa % 2 = 0 then decide (low ≤ value) && decide (value ≤ high)
  else decide (low < value) && decide (value < high)

/-- Look for a decimal on the grid `10 ^ exponent` that is read back as this number. -/
def onGrid? (b : Binary) (exponent : Int) : Option Nat :=
  let (num, den) := b.scaled (-exponent)
  let near := roundDiv num den
  let floor := num / den
  -- The nearest point comes first: if any neighbour is read back, it is.
  [near, floor, floor + 1].find? fun d => b.readsBack d exponent

/-- Find the coarsest grid, from `exponent` down, that holds a decimal read back
as this number. -/
def shortestFrom (b : Binary) (exponent : Int) : Nat → Decimal
  | 0 => ⟨b.negative, 0, 0⟩
  | fuel + 1 =>
      match b.onGrid? exponent with
      | some d => if d = 0 then shortestFrom b (exponent - 1) fuel else ⟨b.negative, d, exponent⟩
      | none => shortestFrom b (exponent - 1) fuel

/-- Write a number with the fewest digits that are read back as it. -/
def shortest (b : Binary) : Decimal :=
  if b.mantissa = 0 then ⟨b.negative, 0, 0⟩ else b.shortestFrom 310 640

/-- Write a number with a fixed count of places after the point. -/
def fixed (b : Binary) (places : Nat) : Text :=
  let (num, den) := b.scaled places
  let n := roundDiv num den
  let whole := Text.ofNat (n / Nat.pow 10 places)
  let part := Text.ofNat (n % Nat.pow 10 places)
  (if b.negative then ['-'] else []) ++ whole ++
    '.' :: (List.replicate (places - part.length) '0' ++ part)

/-- Write a double with a fixed count of places; one that is not finite has a word. -/
def fixedFloat (x : Float) (places : Nat) : Text :=
  if x.isNaN then "NaN".toList
  else if x.isInf then (if x < 0 then "-inf" else "inf").toList
  else (ofFloat x).fixed places

end Binary

namespace Decimal

/-- Write digits with an exponent when the number is below 0.00001 or at least
10^16, and with a point and at least one place otherwise. -/
def toText (d : Decimal) : Text :=
  let digits := Text.ofNat d.digits
  let point : Int := digits.length + d.exponent
  let sign : Text := if d.negative then ['-'] else []
  sign ++
    if d.digits = 0 then "0.0".toList
    else if 0 ≤ d.exponent && point ≤ 16 then
      digits ++ List.replicate d.exponent.toNat '0' ++ ".0".toList
    else if 0 < point && point ≤ 16 then
      digits.take point.toNat ++ '.' :: digits.drop point.toNat
    else if -5 < point && point ≤ 0 then
      "0.".toList ++ List.replicate (-point).toNat '0' ++ digits
    else
      let power := point - 1
      digits.take 1 ++ (if digits.length = 1 then [] else '.' :: digits.drop 1) ++
        'e' :: (if power < 0 then ['-'] else []) ++ Text.ofNat power.natAbs

/-- Keep the leading digits that fit into 64 bits. -/
def leading (digits : Nat) (exponent : Int) : Nat × Int :=
  if digits < 0x10000000000000000 then (digits, exponent) else leading (digits / 10) (exponent + 1)

/-- Move the point of a double: multiply or divide by a power of ten. -/
def shift (x : Float) (exponent : Int) : Float :=
  if x == 0 then x
  else if 0 ≤ exponent then x * Float.ofScientific 1 false exponent.toNat
  -- There is no double near a larger power of ten than 10^308.
  else if -308 ≤ exponent then x / Float.ofScientific 1 false (-exponent).toNat
  else shift (x / Float.ofScientific 1 false 308) (exponent + 308)
termination_by (-exponent).toNat

/-- Read a decimal as a double: round the leading digits, then move the point, which
rounds again. -/
def toFloat (d : Decimal) : Float :=
  let (digits, exponent) := leading d.digits d.exponent
  let x := shift digits.toFloat exponent
  if d.negative then -x else x

/-- Tell whether the absolute value is too large for a double: it is at least half
a step above the largest one. -/
def overflows (d : Decimal) : Bool :=
  let point : Int := (Text.ofNat d.digits).length + d.exponent
  -- The bound has 309 digits before the point; only there the digits matter.
  if d.digits = 0 ∨ point < 309 then false
  else if 309 < point then true
  else
    decide ((Nat.pow 2 54 - 1) * Nat.pow 2 970 * Nat.pow 10 (-d.exponent).toNat ≤
      d.digits * Nat.pow 10 d.exponent.toNat)

end Decimal

end MathTyping
