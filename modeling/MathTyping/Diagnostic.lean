import MathTyping.Text.Search

/-!
# Diagnostics

A problem that a renderer reports about a source: how severe it is, which bytes
it covers, the message, the calls that led to it and hints for mending it.
-/

namespace MathTyping

/-- The severity of a diagnostic. -/
inductive Severity where
  | error
  | warning
deriving DecidableEq, Repr, Inhabited

namespace Severity

/-- The name of a severity. -/
def name : Severity → String
  | error => "error"
  | warning => "warning"

/-- The number that stands for a severity. -/
def code : Severity → Int
  | error => 1
  | warning => 2

/-- The severity of a number. -/
def ofCode? (n : Int) : Option Severity := [error, warning].find? fun s => s.code == n

end Severity

/-- The bytes from `start` to `stop` of a source. -/
structure ByteSpan where
  start : Nat
  stop : Nat
deriving DecidableEq, Repr, Inhabited

/-- A problem reported by a renderer. -/
structure Diagnostic where
  severity : Severity
  span : ByteSpan
  message : Text
  trace : List Text
  hints : List Text
deriving DecidableEq, Repr, Inhabited

namespace Diagnostic

/-- An error without trace and hints. -/
def ofError (span : ByteSpan) (message : Text) : Diagnostic := ⟨.error, span, message, [], []⟩

end Diagnostic

end MathTyping
