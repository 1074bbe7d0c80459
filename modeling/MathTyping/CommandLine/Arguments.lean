import MathTyping.Position

/-!
# Arguments of the command line

Options come as `--name value` or `--name=value` and at most once, flags as
`--name`; everything after `--` is an operand.  The options that hold for every
command may stand before or after the name of the command, the later one
winning.
-/

namespace MathTyping

namespace CommandLine

/-- What a command accepts: options with a value, and flags. -/
structure Grammar where
  options : List String
  flags : List String

/-- The options, flags and operands found. -/
structure Found where
  options : List (Text × Text)
  flags : List Text
  operands : List Text
deriving DecidableEq, Repr, Inhabited

namespace Found

/-- Nothing found. -/
def empty : Found := ⟨[], [], []⟩

/-- Add an option that was not given before. -/
def addOption? (f : Found) (name value : Text) : Option Found :=
  if f.options.any (·.1 == name) then none
  else some { f with options := f.options ++ [(name, value)] }

/-- Add a flag that was not given before. -/
def addFlag? (f : Found) (name : Text) : Option Found :=
  if f.flags.contains name then none else some { f with flags := f.flags ++ [name] }

/-- Add an operand. -/
def addOperand (f : Found) (operand : Text) : Found :=
  { f with operands := f.operands ++ [operand] }

/-- The value of an option. -/
def option? (f : Found) (name : String) : Option Text :=
  (f.options.find? (·.1 == name.toList)).map (·.2)

end Found

/-- Tell whether a name is among some names. -/
def named (names : List String) (name : Text) : Bool := names.any (·.toList == name)

/-- Tell whether an argument is an option; a single hyphen is an operand. -/
def isOption (arg : Text) : Bool := arg.head? == some '-' && arg != ['-']

/-- Add the flags of a group of single letters; only `v`, for `verbose`, is known. -/
def addLetters? (f : Found) : Text → Option Found
  | [] => some f
  | c :: cs => if c = 'v' then (f.addFlag? "verbose".toList).bind (addLetters? · cs) else none

/-- Read arguments up to the first operand or, for `all`, to the end.  Gives the
arguments left. -/
def scan (g : Grammar) (all : Bool) (f : Found) : List Text → Option (Found × List Text)
  | [] => some (f, [])
  | arg :: rest =>
      if arg = ['-', '-'] then
        if all then some (rest.foldl Found.addOperand f, []) else none
      else
        match arg with
        | '-' :: '-' :: body =>
            match Text.cut? ['='] body with
            | some (name, value) =>
                if named g.options name then (f.addOption? name value).bind (scan g all · rest)
                else none
            | none =>
                if named g.flags body then (f.addFlag? body).bind (scan g all · rest)
                else if named g.options body then
                  match rest with
                  | [] => none
                  | value :: later =>
                      -- A value that looks like an option must be joined by `=`.
                      if isOption value then none
                      else (f.addOption? body value).bind (scan g all · later)
                else none
        | _ =>
            if isOption arg then (addLetters? f arg.tail).bind (scan g all · rest)
            else if all then scan g all (f.addOperand arg) rest
            else some (f, arg :: rest)

/-- Read a natural number of 64 bits, perhaps after a plus sign. -/
def readNumber? (t : Text) : Option Nat :=
  let digits := if t.head? = some '+' then t.tail else t
  if digits.isEmpty || !digits.all Char.isDigit then none
  else
    let n := digits.foldl (fun n c => n * 10 + (c.toNat - 48)) 0
    if n < Nat.pow 2 64 then some n else none

/-- Read an optional number. -/
def numberOr? (f : Found) (name : String) (default : Nat) : Option Nat :=
  match f.option? name with
  | none => some default
  | some t => readNumber? t

/-- A document and a position in it. -/
structure Target where
  file : Text
  cursor : Position
deriving DecidableEq, Repr, Inhabited

/-- What a command line asks for. -/
inductive Action where
  | region (target : Target)
  | brackets (target : Target)
  | symbols (query : Text) (limit : Nat)
  | trigger (target : Target)
  | replay (target : Target) (keys : Text) (effects : Bool)
deriving DecidableEq, Repr, Inhabited

/-- A command line that was understood. -/
structure Invocation where
  config : Option Text
  action : Action
deriving DecidableEq, Repr, Inhabited

/-- The options of every command. -/
def common : Grammar := ⟨["config"], ["verbose"]⟩

/-- The options of the commands that look at a position. -/
def cursorGrammar : Grammar := ⟨["line", "ch"] ++ common.options, common.flags⟩

/-- The options of a command. -/
def grammar (command : Text) : Grammar :=
  if command = "symbols".toList then ⟨"limit" :: common.options, common.flags⟩
  else if command = "replay".toList then
    ⟨"keys" :: cursorGrammar.options, "effects" :: cursorGrammar.flags⟩
  else cursorGrammar

/-- Read the document and the position. -/
def target? (f : Found) : Option Target := do
  let line ← numberOr? f "line" 0
  let column ← numberOr? f "ch" 0
  match f.operands with
  | [file] => if file.isEmpty then none else pure ⟨file, line, column⟩
  | _ => none

/-- Read what a command asks for. -/
def action? (command : Text) (f : Found) : Option Action :=
  if command = "region".toList then (target? f).map .region
  else if command = "brackets".toList then (target? f).map .brackets
  else if command = "trigger".toList then (target? f).map .trigger
  else if command = "symbols".toList then do
    let limit ← numberOr? f "limit" 20
    match f.operands with
    | [query] => pure (.symbols query limit)
    | _ => none
  else if command = "replay".toList then do
    let target ← target? f
    pure (.replay target ((f.option? "keys").getD []) (f.flags.contains "effects".toList))
  else none

/-- Read a command line. -/
def Invocation.ofArguments? (args : List Text) : Option Invocation := do
  let (before, rest) ← scan common false .empty args
  match rest with
  | [] => none
  | command :: rest =>
      let (found, _) ← scan (grammar command) true .empty rest
      let action ← action? command found
      -- An empty path is refused even if a later one would win.
      let early := before.option? "config"
      let late := found.option? "config"
      if early = some [] ∨ late = some [] then none else pure ⟨late.or early, action⟩

end CommandLine

end MathTyping
