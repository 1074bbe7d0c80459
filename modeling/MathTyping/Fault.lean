import MathTyping.Text.Search
import MathTyping.Text.Quoted

/-!
# Faults

A fault says where something failed and why, and may carry named details.  Its
cause is unknown, a message, a notice meant for the user, or another fault.  A
notice stays reachable however often its fault is wrapped.
-/

namespace MathTyping

/-- A message the user is expected to act on. -/
structure Notice where
  source : Text
  message : Text
deriving DecidableEq, Repr, Inhabited

/-- Where a fault arose, with named details. -/
structure FaultSite where
  location : Text
  details : List (Text × Text)
deriving DecidableEq, Repr, Inhabited

/-- A failure, told by its cause. -/
inductive Fault where
  | unexplained (site : FaultSite)
  | message (site : FaultSite) (text : Text)
  | notice (site : FaultSite) (notice : Notice)
  | within (site : FaultSite) (inner : Fault)
deriving DecidableEq, Repr, Inhabited

namespace Fault

/-- The site of a fault. -/
def site : Fault → FaultSite
  | unexplained s => s
  | message s _ => s
  | notice s _ => s
  | within s _ => s

/-- The location of a fault. -/
def location (f : Fault) : Text := f.site.location

/-- The details of a fault. -/
def details (f : Fault) : List (Text × Text) := f.site.details

/-- Find the notice that a fault or one of its inner faults carries. -/
def notice? : Fault → Option Notice
  | unexplained _ => none
  | message _ _ => none
  | notice _ n => some n
  | within _ inner => inner.notice?

/-- Write a location in front of what follows, if there is one. -/
def locationText (s : FaultSite) : Text :=
  if s.location.isEmpty then [] else s.location ++ ": ".toList

/-- Write one named detail. -/
def detailText (d : Text × Text) : Text :=
  '(' :: (Text.quoted d.1 ++ ", ".toList ++ Text.quoted d.2 ++ [')'])

/-- Write the details of a site after a fault, if there are any. -/
def detailsText (s : FaultSite) : Text :=
  if s.details.isEmpty then []
  else " with [".toList ++ Text.join ", ".toList (s.details.map detailText) ++ [']']

/-- Write a fault on one line: location, cause, details. -/
def toText : Fault → Text
  | unexplained s => locationText s ++ "error".toList ++ detailsText s
  | message s m => locationText s ++ m ++ detailsText s
  | notice s n => locationText s ++ n.source ++ ": ".toList ++ n.message ++ detailsText s
  | within s inner => locationText s ++ inner.toText ++ detailsText s

/-- Keep of a fault only its text, as the message of a new one. -/
def restate (site : FaultSite) (f : Fault) : Fault := message site f.toText

/-- Give the text shown to a user: a plain message as it is, any other fault in full. -/
def userText : Fault → Text
  | message _ m => m
  | f => f.toText

end Fault

end MathTyping
