import MathTyping.Session.Dispatch

/-!
# A simulated editor

The host of a session: it keeps the document, the caret, the decorations, the
popup and the preview pane, carries out every effect and reports the changes
back.  An event to report waits in a queue, and the changes that its effects
cause join the end of the queue; the host goes on until the queue is empty.
-/

namespace MathTyping

/-- What the preview pane shows. -/
inductive PreviewPane where
  | rendered (anchor : Position) (svg : Text)
  | failed (anchor : Position) (diagnostics : List Diagnostic)
deriving DecidableEq, Repr

/-- What the user sees of an editor. -/
structure Screen where
  buffer : Buffer
  cursor : Position
  selection : Option Range
  highlights : List Highlight
  popup : Option PopupView
  preview : Option PreviewPane
  notices : List Notice
deriving DecidableEq

/-- An editor driven by a session.  `deferred` holds the repaints that are due,
and `journal` the effects carried out, both oldest first. -/
structure Host where
  session : Session
  screen : Screen
  deferred : List Nat
  journal : List Effect

/-- The parts of a host that do not change. -/
structure HostSetup where
  setup : Setup
  renderer : Renderer

namespace Screen

/-- The screen of an empty editor. -/
def initial : Screen := ⟨⟨[]⟩, .origin, none, [], none, none, []⟩

/-- The document and caret, as reported to the session. -/
def snapshot (v : Screen) : Snapshot := ⟨v.buffer.text, v.cursor⟩

/-- Carry out an effect, and give the change to report. -/
def apply (v : Screen) : Effect → Screen × Option Event
  | .splice s =>
      let (buffer, cursor) := s.apply v.buffer
      let w := { v with buffer := buffer, cursor := cursor, selection := none }
      (w, some (if s.edit.isSome then .changed w.snapshot else .cursorMoved w.cursor))
  | .setSelection range =>
      ({ v with cursor := range.stop, selection := some range }, some (.selectionChanged range))
  | .showPopup view => ({ v with popup := some view }, none)
  | .closePopup => ({ v with popup := none }, none)
  | .addHighlights highlights => ({ v with highlights := v.highlights ++ highlights }, none)
  | .removeHighlights classes =>
      ({ v with highlights := v.highlights.filter fun h => !classes.contains h.className }, none)
  | .request _ => (v, none)
  | .showPreview anchor svg => ({ v with preview := some (.rendered anchor svg) }, none)
  | .showPreviewError anchor diagnostics =>
      ({ v with preview := some (.failed anchor diagnostics) }, none)
  | .hidePreview => ({ v with preview := none }, none)
  | .notice n => ({ v with notices := v.notices ++ [n] }, none)
  | .defer _ _ => (v, none)

/-- The document with a bar at the caret. -/
def marked (v : Screen) : Text :=
  let offset := v.buffer.toByte v.cursor
  Text.takeBytes offset v.buffer.text ++ '|' :: Text.dropBytes offset v.buffer.text

/-- The ranges decorated with a class. -/
def highlighted (v : Screen) (className : Text) : List Range :=
  (v.highlights.filter (·.className == className)).map (·.range)

/-- Describe the popup, one line for each item. -/
def popupLines (view : PopupView) : List Text :=
  ("popup ".toList ++ view.kind.name.toList ++ " at ".toList ++ view.range.toText) ::
    view.items.zipIdx.map fun (item, index) =>
      [' ', if view.selected = some index then '>' else ' ', ' '] ++ item.label

/-- Describe the preview pane. -/
def previewLines : PreviewPane → List Text
  | .rendered anchor svg => ["preview at ".toList ++ anchor.toText ++ ": ".toList ++ svg]
  | .failed anchor diagnostics =>
      diagnostics.map fun d =>
        "preview error at ".toList ++ anchor.toText ++ ": ".toList ++ d.message

/-- Describe what the user sees, line by line. -/
def describe (v : Screen) : Text :=
  let lines : List Text :=
    [v.marked] ++
      v.highlights.map (fun h => "highlight ".toList ++ h.range.toText ++ ' ' :: h.className) ++
      v.popup.toList.flatMap popupLines ++
      v.preview.toList.flatMap previewLines ++
      v.selection.toList.map (fun r => "selection ".toList ++ r.toText) ++
      v.notices.map fun n => "notice ".toList ++ n.source ++ ": ".toList ++ n.message
  lines.flatMap (· ++ ['\n'])

end Screen

namespace Host

/-- An empty editor. -/
def initial : Host := ⟨.initial, .initial, [], []⟩

instance : Inhabited Host := ⟨initial⟩

/-- Carry out an effect: note it down, and keep the repaint that it asks for. -/
def apply (h : Host) (e : Effect) : Host × Option Event :=
  let (screen, event) := h.screen.apply e
  let due := match e with
    | .defer _ generation => [generation]
    | _ => []
  (⟨h.session, screen, h.deferred ++ due, h.journal ++ [e]⟩, event)

/-- Carry out effects in order, and list the changes to report. -/
def applyAll (h : Host) : List Effect → Host × List Event
  | [] => (h, [])
  | e :: es =>
      let (h, event) := h.apply e
      let (h, events) := h.applyAll es
      (h, event.toList ++ events)

/-- Report one event and carry out the effects.  Tells whether the event was
handled, and lists the changes to report next. -/
def step (env : HostSetup) (h : Host) (event : Event) : Host × Bool × List Event :=
  let (session, reaction) := h.session.dispatch env.setup env.renderer event
  let (h, events) := { h with session := session }.applyAll reaction.effects
  (h, reaction.handled, events)

/-- Report the first event of a queue, and put the changes that it causes at the end.  `handled`
is what became of the first event of all, once that is reported. -/
def reportNext (env : HostSetup) :
    Host × List Event × Option Bool → Id (Host × List Event × Option Bool ⊕ Host × Option Bool)
  | (h, [], handled) => pure (.inr (h, handled))
  | (h, event :: queue, handled) =>
      let (h, answer, caused) := h.step env event
      pure (.inl (h, queue ++ caused, some (handled.getD answer)))

/-- Report the events of a queue, and those that come of them, until it is empty.  Nothing here
bounds their number; that the loop ends is due to what sessions answer. -/
def drain (env : HostSetup) (h : Host) (queue : List Event) (handled : Option Bool) :
    Host × Option Bool :=
  (repeatM (reportNext env) (h, queue, handled)).run

/-- Report an event and every change that comes of it, and tell whether the event was
handled. -/
def run (env : HostSetup) (h : Host) (event : Event) : Host × Bool :=
  let (h, handled) := drain env h [event] none
  (h, handled.getD false)

/-- Report an event, handled or not. -/
def tell (env : HostSetup) (h : Host) (event : Event) : Host := (h.run env event).1

/-- Replace the document and put the caret at a position. -/
def load (env : HostSetup) (h : Host) (text : Text) (cursor : Position) : Host :=
  let buffer : Buffer := ⟨text⟩
  let screen :=
    { h.screen with buffer := buffer, cursor := buffer.clamp cursor, selection := none }
  tell env { h with screen := screen } (.changed screen.snapshot)

/-- Replace the document by a text in which the first bar marks the caret; without
one the caret goes to the end. -/
def openMarked (env : HostSetup) (h : Host) (marked : Text) : Host :=
  match Text.cut? ['|'] marked with
  | some (before, after) =>
      let buffer : Buffer := ⟨before ++ after⟩
      h.load env buffer.text (buffer.ofByte before.bytes)
  | none => h.load env marked (Buffer.ofByte ⟨marked⟩ marked.bytes)

/-- Type a text over the selection, or at the caret. -/
def insert (v : Screen) (text : Text) : Screen :=
  let range := v.selection.getD ⟨v.cursor, v.cursor⟩
  { v with
    buffer := v.buffer.replace range text
    cursor := v.buffer.afterReplace range text
    selection := none }

/-- Report the document after a change made by the editor itself. -/
def changedBy (v : Screen) : Option (Screen × Event) := some (v, .changed v.snapshot)

/-- Report the caret after a move made by the editor itself. -/
def movedTo (v : Screen) (cursor : Position) : Option (Screen × Event) :=
  some ({ v with cursor := cursor }, .cursorMoved cursor)

/-- What the editor does with a key that the session let through. -/
def defaultAction (v : Screen) (chord : Chord) : Option (Screen × Event) :=
  match chord.typed? with
  | some c => changedBy (insert v [c])
  | none =>
      let byte := v.buffer.toByte v.cursor
      match chord.key with
      | .enter => changedBy (insert v ['\n'])
      | .tab => changedBy (insert v ['\t'])
      | .backspace =>
          (Text.takeBytes byte v.buffer.text).getLast?.bind fun c =>
            let range : Range := ⟨v.buffer.ofByte (byte - c.utf8Size), v.cursor⟩
            changedBy { v with
              buffer := v.buffer.replace range []
              cursor := v.buffer.afterReplace range [] }
      | .left =>
          (Text.takeBytes byte v.buffer.text).getLast?.bind fun c =>
            movedTo v (v.buffer.ofByte (byte - c.utf8Size))
      | .right =>
          (Text.dropBytes byte v.buffer.text).head?.bind fun c =>
            movedTo v (v.buffer.ofByte (byte + c.utf8Size))
      | _ => none

/-- Press a key.  A key that the session does not take is left to the editor. -/
def press (env : HostSetup) (h : Host) (chord : Chord) : Host × Bool :=
  let (h, handled) := h.run env (.keyDown chord)
  if handled then (h, true)
  else
    match defaultAction h.screen chord with
    | none => (h, false)
    | some (screen, event) => (tell env { h with screen := screen } event, false)

/-- Press the keys of a text one by one. -/
def typeText (env : HostSetup) (h : Host) (text : Text) : Host :=
  text.foldl (fun h c => (h.press env (.plain (.char c))).1) h

/-- Click at a position. -/
def click (env : HostSetup) (h : Host) (p : Position) : Host :=
  let cursor := h.screen.buffer.clamp p
  tell env { h with screen := { h.screen with cursor := cursor, selection := none } }
    (.cursorMoved cursor)

/-- Select a range, the caret at its end. -/
def select (env : HostSetup) (h : Host) (r : Range) : Host :=
  let range : Range := ⟨h.screen.buffer.clamp r.start, h.screen.buffer.clamp r.stop⟩
  tell env { h with screen := { h.screen with cursor := range.stop, selection := some range } }
    (.selectionChanged range)

/-- Let every delay elapse. -/
def settle (env : HostSetup) (h : Host) : Host :=
  h.deferred.foldl (fun h generation => tell env h (.repaint generation)) { h with deferred := [] }

end Host

end MathTyping
