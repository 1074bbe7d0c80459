import MathTyping.Session.Event
import MathTyping.BracketCache
import MathTyping.Preview
import MathTyping.Config
import MathTyping.Query.Detect
import MathTyping.Equation

/-!
# Sessions

A session follows one editor.  It keeps the document, the caret and the
selection as last reported, and the states of the popup, the bracket cache and
the preview.  Each event is answered by one step, built from smaller ones; the
effects of a sequence of steps are those of each in turn.
-/

namespace MathTyping

/-- What does not change during a session. -/
structure Setup where
  config : Config
  symbols : SymbolIndex
  evaluate : Evaluator

namespace Setup

/-- What the popup draws on. -/
def sources (setup : Setup) : Sources :=
  ⟨setup.config.snippets, setup.symbols, setup.evaluate, setup.config.unicodeSymbols⟩

end Setup

/-- The state of a session.  `popup` is the view last shown; `generation` counts
the moves of the caret. -/
structure Session where
  buffer : Buffer
  cursor : Position
  selection : Option Range
  completion : Completion
  popup : Option PopupView
  brackets : BracketCache
  preview : Preview
  generation : Nat
deriving DecidableEq

/-- A step of a session: the next state and the effects. -/
abbrev Session.Step := Session → Session × List Effect

namespace Session

/-- The session over an empty document. -/
def initial : Session where
  buffer := ⟨[]⟩
  cursor := .origin
  selection := none
  completion := .idle
  popup := none
  brackets := .empty
  preview := .initial
  generation := 0

/-- Take one step after another. -/
def andThen (first second : Step) : Step := fun s =>
  let (t, effects) := first s
  let (u, more) := second t
  (u, effects ++ more)

/-- Replace the bracket decorations by those of the cached pairs. -/
def paintEffects (s : Session) : List Effect :=
  match s.brackets.region, s.brackets.pairs with
  | some region, some pairs =>
      [.removeHighlights Highlight.bracketClasses,
        .addHighlights (Highlight.ofPairs region pairs (s.brackets.enclosing? s.cursor))]
  | _, _ => []

/-- Tell the host how the popup differs from the view last shown. -/
def syncPopup : Step := fun s =>
  let view := PopupView.of? s.completion
  if view = s.popup then (s, [])
  else
    match view with
    | none =>
        ({ s with popup := none },
          [.closePopup, .removeHighlights [Highlight.triggerClass]])
    | some shown =>
        -- The popup and the preview hang at the same place, and the popup wins.
        let (preview, update) := s.preview.hide
        ({ s with popup := some shown, preview := preview },
          (if update = .hide then [.hidePreview] else []) ++
            [.removeHighlights [Highlight.triggerClass], .showPopup shown] ++
            s.completion.query?.toList.map fun q => .addHighlights [Highlight.ofQuery q])

/-- The query to suggest for: only inside math, and never inside code. -/
def currentQuery? (s : Session) : Option Query :=
  if (Region.locate? s.buffer s.cursor).isNone || CodeContext.inCode s.buffer s.cursor then none
  else Query.detectAt? s.buffer s.cursor

/-- Recompute the suggestions. -/
def updateCompletion (setup : Setup) : Step := fun s =>
  syncPopup { s with completion := s.completion.update setup.sources s.currentQuery? }

/-- Reconsider the preview. -/
def updatePreview (setup : Setup) : Step := fun s =>
  if setup.config.inlinePreview then
    let (preview, update) :=
      s.preview.update setup.config.previewProcessor s.buffer s.cursor s.completion.isOpen
    ({ s with preview := preview },
      match update with
      | .keep => []
      | .hide => [.hidePreview]
      | .render request => [.request (.preview request)])
  else (s, [])

/-- Follow the region around the cursor. -/
def refreshBrackets : Step := fun s =>
  let (brackets, refresh) := s.brackets.refresh (Region.locate? s.buffer s.cursor)
  let t := { s with brackets := brackets }
  (t, match refresh with
    | .unchanged => t.paintEffects
    | .moved => t.paintEffects
    | .cleared => [.removeHighlights Highlight.bracketClasses]
    | .requested content =>
        [.removeHighlights Highlight.bracketClasses, .request (.brackets content)])

/-- Follow a change of the document or the caret. -/
def refresh (setup : Setup) : Step :=
  andThen (updateCompletion setup) (andThen (updatePreview setup) refreshBrackets)

/-- Take over a changed document. -/
def changed (setup : Setup) (snapshot : Snapshot) : Step := fun s =>
  let buffer : Buffer := ⟨snapshot.text⟩
  refresh setup
    { s with buffer := buffer, cursor := buffer.clamp snapshot.cursor, selection := none }

/-- Ask for another repaint once the editor has settled after a move. -/
def deferRepaint (setup : Setup) : Step := fun s =>
  let generation := s.generation + 1
  ({ s with generation := generation },
    if s.brackets.region.isSome then [.defer setup.config.repaintDelay generation] else [])

/-- Follow a move of the caret. -/
def cursorMoved (setup : Setup) (cursor : Position) : Step := fun s =>
  andThen (refresh setup) (deferRepaint setup)
    { s with cursor := s.buffer.clamp cursor, selection := none }

/-- Put the ends of a range in order. -/
def ordered (p q : Position) : Range := if p ≤ q then ⟨p, q⟩ else ⟨q, p⟩

/-- Follow a selection.  The caret is at its `stop`; an empty one is not kept. -/
def selectionChanged (setup : Setup) (range : Range) : Step := fun s =>
  let anchor := s.buffer.clamp range.start
  let head := s.buffer.clamp range.stop
  let (t, effects) := cursorMoved setup head s
  -- The move has dropped the old selection; the new one is kept only now.
  let selection := ordered anchor head
  ({ t with selection := if selection.isEmpty then none else some selection }, effects)

/-- Carry an answer of the popup to the host. -/
def outcome (o : Outcome) (s : Session) : Session × Reaction :=
  let (t, effects) := syncPopup s
  (t, ⟨o.handled,
    o.notice?.toList.map .notice ++ o.splice?.toList.map .splice ++ effects⟩)

/-- The wrapping of the selection that a typed shortcut asks for, inside math. -/
def shortcut? (setup : Setup) (s : Session) (chord : Chord) : Option Splice := do
  let selection ← s.selection
  let c ← chord.typed?
  let shortcut ← setup.config.shortcuts.find? c
  let _ ← Region.locate? s.buffer s.cursor
  pure (shortcut.apply selection (s.buffer.slice selection))

/-- The jump that a tab asks for, inside math. -/
def tabJump? (setup : Setup) (s : Session) (chord : Chord) : Option Splice :=
  if chord.key = .tab ∧ !(chord.ctrl || chord.alt || chord.command) ∧ setup.config.tabJump then
    (Region.locate? s.buffer s.cursor).map fun region =>
      Equation.jump s.buffer region s.cursor (if chord.shift then .backward else .forward)
  else none

/-- Answer a key: the open popup comes first, then shortcuts, then jumps. -/
def keyDown (setup : Setup) (chord : Chord) (s : Session) : Session × Reaction :=
  if s.completion.isOpen then
    let (completion, o) := s.completion.onKey setup.sources chord s.cursor
    outcome o { s with completion := completion }
  else
    match s.shortcut? setup chord with
    | some splice => ({ s with selection := none }, ⟨true, [.splice splice]⟩)
    | none =>
        match s.tabJump? setup chord with
        | some splice => (s, ⟨true, [.splice splice]⟩)
        | none => (s, ⟨false, []⟩)

/-- Answer a click on a candidate. -/
def select (setup : Setup) (index : Nat) (s : Session) : Session × Reaction :=
  let (completion, o) := s.completion.choose setup.sources index s.cursor
  outcome o { s with completion := completion }

/-- The effects of a command. -/
def commandEffects (s : Session) : Command → List Effect
  | .boxEquation => (Equation.box? s.buffer s.cursor).toList.map .splice
  | .selectEquation => (Equation.select? s.buffer s.cursor).toList.map .setSelection

/-- Show the answer to a preview request. -/
def showPreview (anchor : Position) : Rendered Rendering → Effect
  | .ok result => .showPreview anchor result.svg
  | .error diagnostics => .showPreviewError anchor diagnostics

/-- Take the answer of a renderer; one that was superseded is dropped. -/
def rendered (reply : RenderReply) : Step := fun s =>
  match reply with
  | .brackets content result =>
      let (brackets, current) := s.brackets.commit content result
      let t := { s with brackets := brackets }
      (t, if current then t.paintEffects else [])
  | .preview ticket result =>
      let (preview, current) := s.preview.commit ticket
      ({ s with preview := preview },
        if current then preview.anchor?.toList.map fun anchor => showPreview anchor result else [])

/-- Take down the popup, the preview and every decoration. -/
def close : Step := fun s =>
  ({ s with
      generation := s.generation + 1
      completion := .idle
      popup := none
      selection := none
      brackets := .empty
      preview := s.preview.hide.1 },
    [.closePopup, .hidePreview, .removeHighlights Highlight.allClasses])

/-- Answer with the effects of a step, leaving the event to the editor. -/
def unhandled (step : Step) (s : Session) : Session × Reaction :=
  let (t, effects) := step s
  (t, ⟨false, effects⟩)

/-- Answer an event. -/
def handle (setup : Setup) (s : Session) : Event → Session × Reaction
  | .changed snapshot => unhandled (changed setup snapshot) s
  | .cursorMoved cursor => unhandled (cursorMoved setup cursor) s
  | .selectionChanged range => unhandled (selectionChanged setup range) s
  | .keyDown chord => keyDown setup chord s
  | .hover index => unhandled syncPopup { s with completion := s.completion.hover index }
  | .select index => select setup index s
  | .repaint generation => (s, ⟨false, if generation = s.generation then s.paintEffects else []⟩)
  | .focus true => (s, ⟨false, []⟩)
  | .focus false => unhandled close s
  | .command command => (s, ⟨false, s.commandEffects command⟩)
  | .rendered reply => unhandled (rendered reply) s
  | .close => unhandled close s

end Session

end MathTyping
