import MathTyping.CommandLine.Arguments
import MathTyping.Config.Load
import MathTyping.Json.Printer
import MathTyping.Json.Session
import MathTyping.Render.Local
import MathTyping.Symbol.Catalogue
import MathTyping.Scripts
import MathTyping.Geometry
import MathTyping.Host

/-!
# The command line

Inspects what a session sees at a position of a document, and replays key
presses on it.  The configuration is loaded before the command runs.  A command
line that is not understood ends with status 2, a file that cannot be read or a
malformed configuration with status 1.
-/

namespace MathTyping

namespace CommandLine

/-- How a run ended: its status, and what it wrote. -/
structure Result where
  status : Nat
  output : Text
deriving DecidableEq, Repr, Inhabited

/-- The content of a file, if it can be read. -/
abbrev ReadFile := Text → Option Text

/-- End a text with a line feed. -/
def line (t : Text) : Text := t ++ ['\n']

/-- The setup of a session: the catalogue of symbols, and no scripts. -/
def setup (config : Config) : Setup := ⟨config, SymbolCatalogue.index, noScripts⟩

/-- Write the region around a position. -/
def showRegion (b : Buffer) (cursor : Position) : Text :=
  line (Json.optional toJson (Region.locate? b cursor)).pretty

/-- Write a bracket pair, marking the one around the cursor. -/
def showPair (region : Region) (enclosing : Option BracketPair) (p : BracketPair) : Text :=
  let (opening, closing) := Highlight.projectPair region p
  line ((if enclosing = some p then ['*'] else [' ']) ++ ' ' :: p.kind.name.toList ++
    ' ' :: opening.toText ++ ' ' :: closing.toText ++ " depth ".toList ++ Text.ofNat p.depth)

/-- Write the bracket pairs around a position. -/
def showBrackets (b : Buffer) (cursor : Position) : Text :=
  let cursor := b.clamp cursor
  match Region.locate? b cursor with
  | none => line ("no math at ".toList ++ cursor.toText)
  | some region =>
      let pairs := BracketPair.ofSource region.content
      let enclosing := (BracketCache.mk (some region) (some pairs)).enclosing? cursor
      pairs.flatMap (showPair region enclosing)

/-- Write a search result. -/
def showMatch (m : SymbolMatch) : Text :=
  line (m.kind.name.toList ++ ' ' :: m.key ++ ' ' :: m.symbol.glyph ++ " (".toList ++
    m.symbol.mathClass.name ++ [')'])

/-- Write the first results of a search in the catalogue. -/
def showSymbols (query : Text) (limit : Nat) : Text :=
  ((SymbolCatalogue.index.search query).take limit).flatMap showMatch

/-- Write a number of pixels. -/
def pixels (x : Float) : Json := .decimal (Binary.ofFloat x).shortest

/-- Write a popup with the point that it hangs at. -/
def popupJson (view : PopupView) : Json :=
  let point := ScreenPoint.below .standard view.range
  .record [("popup", toJson view),
    ("position", .record [("x", pixels point.x), ("y", pixels point.y)])]

/-- Find the popup that some effects show. -/
def shownPopup? (effects : List Effect) : Option PopupView :=
  effects.findSome? fun
    | .showPopup view => some view
    | _ => none

/-- Write the popup that a session shows at a position. -/
def showTrigger (config : Config) (b : Buffer) (cursor : Position) : Text :=
  let (_, reaction) := Session.handle (setup config) .initial (.changed ⟨b.text, cursor⟩)
  match shownPopup? reaction.effects with
  | some view => line (popupJson view).pretty
  | none => line ("no query at ".toList ++ cursor.toText)

/-- Press the key that a word names, or type the word. -/
def pressWord (env : HostSetup) (h : Host) (word : Text) : Host :=
  let chord := Chord.ofText word
  match chord.key with
  | .named _ => h.typeText env word
  | _ => (h.press env chord).1

/-- Replay words one after another.  Gives the host and, for `effects`, the effects
of each word as lines of JSON. -/
def replayWords (env : HostSetup) (effects : Bool) (h : Host) : List Text → Host × Text
  | [] => (h, [])
  | word :: words =>
      let h := (pressWord env h word).settle env
      let written := if effects then h.journal.flatMap fun e => line e.toJson.compact else []
      let h := if effects then { h with journal := [] } else h
      let (h, later) := replayWords env effects h words
      (h, written ++ later)

/-- Replay keys on a document and write what the user sees in the end. -/
def showReplay (config : Config) (b : Buffer) (cursor : Position) (keys : Text) (effects : Bool) :
    Text :=
  let env : HostSetup := ⟨setup config, LocalRenderer.renderer⟩
  let (h, written) := replayWords env effects (Host.initial.load env b.text cursor) keys.words
  written ++ h.screen.describe

/-- Carry out an action on a document, if the document can be read. -/
def onDocument (read : ReadFile) (target : Target) (act : Buffer → Position → Text) : Result :=
  match read target.file with
  | none => ⟨1, []⟩
  | some text => ⟨0, act ⟨text⟩ target.cursor⟩

/-- Carry out an action. -/
def act (read : ReadFile) (config : Config) : Action → Result
  | .region target => onDocument read target showRegion
  | .brackets target => onDocument read target showBrackets
  | .symbols query limit => ⟨0, showSymbols query limit⟩
  | .trigger target => onDocument read target (showTrigger config)
  | .replay target keys effects =>
      onDocument read target fun b cursor => showReplay config b cursor keys effects

/-- The configuration of an invocation. -/
def configOf (read : ReadFile) (path : Option Text) : Except ConfigFault Config :=
  match path with
  | none => .ok .standard
  | some p => Config.load p (read p)

/-- Run a command line. -/
def run (read : ReadFile) (args : List Text) : Result :=
  match Invocation.ofArguments? args with
  | none => ⟨2, []⟩
  | some invocation =>
      match configOf read invocation.config with
      | .error _ => ⟨1, []⟩
      | .ok config => act read config invocation.action

/-- The document that an action reads. -/
def Action.file? : Action → Option Text
  | .region target => some target.file
  | .brackets target => some target.file
  | .symbols _ _ => none
  | .trigger target => some target.file
  | .replay target _ _ => some target.file

/-- The files that a command line may read. -/
def files (args : List Text) : List Text :=
  match Invocation.ofArguments? args with
  | none => []
  | some invocation => invocation.config.toList ++ invocation.action.file?.toList

end CommandLine

end MathTyping
