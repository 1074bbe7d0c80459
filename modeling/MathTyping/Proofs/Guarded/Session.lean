import MathTyping.Proofs.Guarded.Equation
import MathTyping.Proofs.Session.OpenPopup

/-!
# Guarded sessions

Every step of a session is written once more with guarded operations.  A guarded session stops
at the first slice, index, bound, subtraction or remainder outside its domain, so what it
answers to a list of events is an error unless every partial operation on the way is defined.

The guarded steps give what the steps of the session give.  All but one do so for any state:
an event brings its positions into the document before anything is read there, and the region
that a step works on is located in the same step.  Only a key needs something that earlier
events have left, namely the candidates of an open popup.  So the invariant of a run is that
an open popup is stocked, and no run stops (`session_never_fails`).
-/

namespace MathTyping

namespace Guarded

/-! ### The pair around the cursor -/

/-- Count the bytes from the opening to the closing bracket. -/
def span (p : BracketPair) : Guarded Nat := minus p.closing.byte p.opening.byte

/-- Pick the first pair of least span. -/
def leastSpan? : List BracketPair → Guarded (Option BracketPair)
  | [] => pure none
  | p :: ps => do
      let here ← span p
      match ← leastSpan? ps with
      | none => pure (some p)
      | some q => do
          let there ← span q
          pure (if here ≤ there then some p else some q)

/-- The innermost pair around the cursor. -/
def enclosing? (cache : BracketCache) (cursor : Position) : Guarded (Option BracketPair) :=
  match cache.region, cache.pairs with
  | some region, some pairs =>
      match region.toLocal? cursor with
      | some place => leastSpan? (pairs.filter (·.encloses (region.content.offsetOf place)))
      | none => pure none
  | _, _ => pure none

theorem leastSpan?_eq {ps : List BracketPair} (h : ∀ p ∈ ps, p.opening.byte ≤ p.closing.byte) :
    leastSpan? ps = pure (BracketPair.leastSpan? ps) := by
  induction ps with
  | nil => rfl
  | cons p ps ih =>
      obtain ⟨hp, hps⟩ := List.forall_mem_cons.mp h
      rw [leastSpan?, ih hps, span, minus_of_le hp, pure_bind, pure_bind, BracketPair.leastSpan?]
      cases hleast : BracketPair.leastSpan? ps with
      | none => rfl
      | some q =>
          have hq := hps q (BracketPair.mem_of_leastSpan? ps q hleast)
          dsimp only
          rw [span, minus_of_le hq, pure_bind]
          rfl

/-- Pairs may come from anywhere; around an offset they are in order. -/
theorem enclosing?_eq (cache : BracketCache) (cursor : Position) :
    enclosing? cache cursor = pure (cache.enclosing? cursor) := by
  rw [enclosing?, BracketCache.enclosing?]
  cases cache.region with
  | none => rfl
  | some region =>
      cases cache.pairs with
      | none => rfl
      | some pairs =>
          dsimp only [Option.bind_eq_bind, Option.bind_some]
          cases region.toLocal? cursor with
          | none => rfl
          | some place =>
              refine leastSpan?_eq fun p hp => ?_
              have hencloses := (List.mem_filter.mp hp).2
              rw [BracketPair.encloses, Bool.and_eq_true, decide_eq_true_eq,
                decide_eq_true_eq] at hencloses
              omega

/-! ### Steps -/

/-- A guarded step of a session. -/
abbrev Step := Session → Guarded (Session × List Effect)

/-- Take one step after another. -/
def andThen (first second : Step) : Step := fun s => do
  let (t, effects) ← first s
  let (u, more) ← second t
  pure (u, effects ++ more)

/-- A guarded step is safe if it always gives what a step of the session gives. -/
def Follows (guarded : Step) (step : Session.Step) : Prop := ∀ s, guarded s = pure (step s)

theorem Follows.andThen {first second : Step} {step later : Session.Step}
    (hfirst : Follows first step) (hsecond : Follows second later) :
    Follows (andThen first second) (Session.andThen step later) := by
  intro s
  rw [Guarded.andThen, hfirst s, pure_bind]
  dsimp only
  rw [hsecond, pure_bind]
  rfl

/-- Replace the bracket decorations by those of the cached pairs. -/
def paintEffects (s : Session) : Guarded (List Effect) :=
  match s.brackets.region, s.brackets.pairs with
  | some region, some pairs => do
      let enclosing ← enclosing? s.brackets s.cursor
      pure [.removeHighlights Highlight.bracketClasses,
        .addHighlights (Highlight.ofPairs region pairs enclosing)]
  | _, _ => pure []

/-- The query to suggest for: only inside math, and never inside code. -/
def currentQuery? (s : Session) : Guarded (Option Query) := do
  let region ← locate? s.buffer s.cursor
  if region.isNone then pure none
  else do
    let code ← inCode s.buffer s.cursor
    if code then pure none else detectAt? s.buffer s.cursor

/-- Recompute the suggestions. -/
def updateCompletion (setup : Setup) : Step := fun s => do
  let query ← currentQuery? s
  pure (Session.syncPopup { s with completion := s.completion.update setup.sources query })

/-- Reconsider the preview after a change. -/
def updateShown (p : Preview) (processor : Text) (b : Buffer) (cursor : Position)
    (popupOpen : Bool) : Guarded (Preview × PreviewUpdate) := do
  match ← equation? b cursor popupOpen with
  | none => pure p.hide
  | some r =>
      if p.shown = some (r.content, r.stop) then pure (p, .keep)
      else
        let ticket := p.ticket + 1
        pure (⟨ticket, some ticket, some (r.content, r.stop)⟩,
          .render ⟨ticket, r.content, .inline, processor⟩)

/-- Reconsider the preview. -/
def updatePreview (setup : Setup) : Step := fun s =>
  if setup.config.inlinePreview then do
    let (preview, update) ←
      updateShown s.preview setup.config.previewProcessor s.buffer s.cursor s.completion.isOpen
    pure ({ s with preview := preview },
      match update with
      | .keep => []
      | .hide => [.hidePreview]
      | .render request => [.request (.preview request)])
  else pure (s, [])

/-- Follow the region around the cursor. -/
def refreshBrackets : Step := fun s => do
  let region ← locate? s.buffer s.cursor
  let (brackets, refresh) := s.brackets.refresh region
  let t := { s with brackets := brackets }
  let effects ← match refresh with
    | .unchanged => paintEffects t
    | .moved => paintEffects t
    | .cleared => pure [.removeHighlights Highlight.bracketClasses]
    | .requested content =>
        pure [.removeHighlights Highlight.bracketClasses, .request (.brackets content)]
  pure (t, effects)

/-- Follow a change of the document or the caret. -/
def refresh (setup : Setup) : Step :=
  andThen (updateCompletion setup) (andThen (updatePreview setup) refreshBrackets)

/-- Take over a changed document. -/
def changed (setup : Setup) (snapshot : Snapshot) : Step := fun s => do
  let buffer : Buffer := ⟨snapshot.text⟩
  let cursor ← clamp buffer snapshot.cursor
  refresh setup { s with buffer := buffer, cursor := cursor, selection := none }

/-- Follow a move of the caret. -/
def cursorMoved (setup : Setup) (cursor : Position) : Step := fun s => do
  let place ← clamp s.buffer cursor
  andThen (refresh setup) (fun t => pure (Session.deferRepaint setup t))
    { s with cursor := place, selection := none }

/-- Follow a selection. -/
def selectionChanged (setup : Setup) (range : Range) : Step := fun s => do
  let anchor ← clamp s.buffer range.start
  let head ← clamp s.buffer range.stop
  let (t, effects) ← cursorMoved setup head s
  let selection := Session.ordered anchor head
  pure ({ t with selection := if selection.isEmpty then none else some selection }, effects)

/-- Take the answer of a renderer. -/
def rendered (reply : RenderReply) : Step := fun s =>
  match reply with
  | .brackets content result => do
      let (brackets, current) := s.brackets.commit content result
      let t := { s with brackets := brackets }
      let effects ← if current then paintEffects t else pure []
      pure (t, effects)
  | .preview _ _ => pure (Session.rendered reply s)

theorem paintEffects_eq (s : Session) : paintEffects s = pure s.paintEffects := by
  rw [paintEffects, enclosing?_eq, Session.paintEffects]
  cases s.brackets.region with
  | none => rfl
  | some region => cases s.brackets.pairs <;> rfl

theorem currentQuery?_eq (s : Session) : currentQuery? s = pure s.currentQuery? := by
  rw [currentQuery?, locate?_eq, pure_bind, inCode_eq, detectAt?_eq, Session.currentQuery?]
  cases Region.locate? s.buffer s.cursor with
  | none => rfl
  | some region => cases CodeContext.inCode s.buffer s.cursor <;> rfl

theorem follows_updateCompletion (setup : Setup) :
    Follows (updateCompletion setup) (Session.updateCompletion setup) := by
  intro s
  rw [updateCompletion, currentQuery?_eq, pure_bind]
  rfl

theorem updateShown_eq (p : Preview) (processor : Text) (b : Buffer) (cursor : Position)
    (popupOpen : Bool) :
    updateShown p processor b cursor popupOpen =
      pure (p.update processor b cursor popupOpen) := by
  rw [updateShown, equation?_eq, pure_bind, Preview.update]
  cases Preview.equation? b cursor popupOpen with
  | none => rfl
  | some r =>
      dsimp only
      split <;> rfl

theorem follows_updatePreview (setup : Setup) :
    Follows (updatePreview setup) (Session.updatePreview setup) := by
  intro s
  rw [updatePreview, updateShown_eq, pure_bind, Session.updatePreview]
  split <;> rfl

theorem follows_refreshBrackets : Follows refreshBrackets Session.refreshBrackets := by
  intro s
  rw [refreshBrackets, locate?_eq, pure_bind, Session.refreshBrackets]
  rcases s.brackets.refresh (Region.locate? s.buffer s.cursor) with ⟨brackets, refresh⟩
  dsimp only
  cases refresh with
  | unchanged | moved =>
      dsimp only
      rw [paintEffects_eq, pure_bind]
  | cleared | requested => rfl

theorem follows_refresh (setup : Setup) : Follows (refresh setup) (Session.refresh setup) :=
  (follows_updateCompletion setup).andThen
    ((follows_updatePreview setup).andThen follows_refreshBrackets)

theorem follows_changed (setup : Setup) (snapshot : Snapshot) :
    Follows (changed setup snapshot) (Session.changed setup snapshot) := by
  intro s
  rw [changed, clamp_eq, pure_bind, follows_refresh setup]
  rfl

theorem follows_cursorMoved (setup : Setup) (cursor : Position) :
    Follows (cursorMoved setup cursor) (Session.cursorMoved setup cursor) := by
  intro s
  have hdefer : Follows (fun t => pure (Session.deferRepaint setup t))
      (Session.deferRepaint setup) := fun t => rfl
  rw [cursorMoved, clamp_eq, pure_bind, (follows_refresh setup).andThen hdefer]
  rfl

theorem follows_selectionChanged (setup : Setup) (range : Range) :
    Follows (selectionChanged setup range) (Session.selectionChanged setup range) := by
  intro s
  rw [selectionChanged, clamp_eq, pure_bind, clamp_eq, pure_bind, follows_cursorMoved setup,
    pure_bind]
  rfl

theorem follows_rendered (reply : RenderReply) :
    Follows (rendered reply) (Session.rendered reply) := by
  intro s
  cases reply with
  | brackets content result =>
      rw [rendered, Session.rendered]
      rcases s.brackets.commit content result with ⟨brackets, current⟩
      dsimp only
      rw [paintEffects_eq]
      cases current <;> rfl
  | preview ticket result => rfl

/-! ### Keys, clicks and commands -/

/-- The wrapping of the selection that a typed shortcut asks for, inside math. -/
def shortcut? (setup : Setup) (s : Session) (chord : Chord) : Guarded (Option Splice) := do
  let some selection := s.selection | pure none
  let some c := chord.typed? | pure none
  let some shortcut ← findShortcut? setup.config.shortcuts c | pure none
  let some _ ← locate? s.buffer s.cursor | pure none
  let selected ← slice s.buffer selection
  some <$> applyShortcut shortcut selection selected

/-- The jump that a tab asks for, inside math. -/
def tabJump? (setup : Setup) (s : Session) (chord : Chord) : Guarded (Option Splice) :=
  if chord.key = .tab ∧ !(chord.ctrl || chord.alt || chord.command) ∧ setup.config.tabJump then do
    let some region ← locate? s.buffer s.cursor | pure none
    some <$> jump s.buffer region s.cursor (if chord.shift then .backward else .forward)
  else pure none

/-- Answer a key: the open popup comes first, then shortcuts, then jumps. -/
def keyDown (setup : Setup) (chord : Chord) (s : Session) : Guarded (Session × Reaction) :=
  if s.completion.isOpen then do
    let (completion, o) ← onKey setup.sources s.completion chord s.cursor
    pure (Session.outcome o { s with completion := completion })
  else do
    match ← shortcut? setup s chord with
    | some splice => pure ({ s with selection := none }, ⟨true, [.splice splice]⟩)
    | none =>
        match ← tabJump? setup s chord with
        | some splice => pure (s, ⟨true, [.splice splice]⟩)
        | none => pure (s, ⟨false, []⟩)

/-- Answer a click on a candidate. -/
def select (setup : Setup) (index : Nat) (s : Session) : Guarded (Session × Reaction) := do
  let (completion, o) ← choose setup.sources s.completion index s.cursor
  pure (Session.outcome o { s with completion := completion })

/-- The effects of a command. -/
def commandEffects (s : Session) : Command → Guarded (List Effect)
  | .boxEquation => do
      let splice ← box? s.buffer s.cursor
      pure (splice.toList.map .splice)
  | .selectEquation => do
      let range ← select? s.buffer s.cursor
      pure (range.toList.map .setSelection)

theorem shortcut?_eq (setup : Setup) (s : Session) (chord : Chord) :
    shortcut? setup s chord = pure (s.shortcut? setup chord) := by
  rw [shortcut?, Session.shortcut?]
  cases s.selection with
  | none => rfl
  | some selection =>
      cases chord.typed? with
      | none => rfl
      | some c =>
          dsimp only [Option.bind_eq_bind, Option.bind_some]
          rw [findShortcut?_eq, pure_bind]
          cases setup.config.shortcuts.find? c with
          | none => rfl
          | some shortcut =>
              dsimp only [Option.bind_some]
              rw [locate?_eq, pure_bind, slice_eq, pure_bind, applyShortcut_eq, map_pure]
              cases Region.locate? s.buffer s.cursor <;> rfl

theorem tabJump?_eq (setup : Setup) (s : Session) (chord : Chord) :
    tabJump? setup s chord = pure (s.tabJump? setup chord) := by
  rw [tabJump?, Session.tabJump?]
  split
  · rw [locate?_eq, pure_bind]
    cases hregion : Region.locate? s.buffer s.cursor with
    | none => rfl
    | some region =>
        dsimp only
        rw [jump_eq _ _ (toByte_le_of_locate? hregion), map_pure]
        rfl
  · rfl

/-- An open popup must have candidates for the keys that move or take one. -/
theorem keyDown_eq (setup : Setup) (chord : Chord) {s : Session} (h : Stocked s.completion) :
    keyDown setup chord s = pure (Session.keyDown setup chord s) := by
  rw [keyDown, Session.keyDown, onKey_eq _ _ _ h, pure_bind, shortcut?_eq, pure_bind,
    tabJump?_eq, pure_bind]
  split
  · rfl
  · cases s.shortcut? setup chord with
    | some splice => rfl
    | none => cases s.tabJump? setup chord <;> rfl

theorem select_eq (setup : Setup) (index : Nat) (s : Session) :
    select setup index s = pure (Session.select setup index s) := by
  rw [select, choose_eq, pure_bind]
  rfl

theorem commandEffects_eq (s : Session) (command : Command) :
    commandEffects s command = pure (s.commandEffects command) := by
  cases command with
  | boxEquation =>
      rw [commandEffects, box?_eq, pure_bind]
      rfl
  | selectEquation =>
      rw [commandEffects, select?_eq, pure_bind]
      rfl

/-! ### Events -/

/-- Answer with the effects of a step, leaving the event to the editor. -/
def unhandled (step : Step) (s : Session) : Guarded (Session × Reaction) := do
  let (t, effects) ← step s
  pure (t, ⟨false, effects⟩)

/-- Answer an event. -/
def handle (setup : Setup) (s : Session) : Event → Guarded (Session × Reaction)
  | .changed snapshot => unhandled (changed setup snapshot) s
  | .cursorMoved cursor => unhandled (cursorMoved setup cursor) s
  | .selectionChanged range => unhandled (selectionChanged setup range) s
  | .keyDown chord => keyDown setup chord s
  | .select index => select setup index s
  | .repaint generation => do
      let effects ← if generation = s.generation then paintEffects s else pure []
      pure (s, ⟨false, effects⟩)
  | .command command => do
      let effects ← commandEffects s command
      pure (s, ⟨false, effects⟩)
  | .rendered reply => unhandled (rendered reply) s
  -- The other events only change what is shown.
  | .hover index => pure (Session.handle setup s (.hover index))
  | .focus gained => pure (Session.handle setup s (.focus gained))
  | .close => pure (Session.handle setup s .close)

/-- Answer events one after another. -/
def run (setup : Setup) : List Event → Session → Guarded (Session × List Reaction)
  | [], s => pure (s, [])
  | event :: events, s => do
      let (t, reaction) ← handle setup s event
      let (u, reactions) ← run setup events t
      pure (u, reaction :: reactions)

theorem unhandled_eq {guarded : Step} {step : Session.Step} (h : Follows guarded step)
    (s : Session) : unhandled guarded s = pure (Session.unhandled step s) := by
  rw [unhandled, h s, pure_bind]
  rfl

/-- A session whose popup is stocked answers every event. -/
theorem handle_eq (setup : Setup) (event : Event) {s : Session} (h : Stocked s.completion) :
    handle setup s event = pure (Session.handle setup s event) := by
  cases event with
  | changed snapshot => exact unhandled_eq (follows_changed setup snapshot) s
  | cursorMoved cursor => exact unhandled_eq (follows_cursorMoved setup cursor) s
  | selectionChanged range => exact unhandled_eq (follows_selectionChanged setup range) s
  | keyDown chord => exact keyDown_eq setup chord h
  | select index => exact select_eq setup index s
  | repaint generation =>
      rw [handle, paintEffects_eq, Session.handle]
      split <;> rfl
  | command command =>
      rw [handle, commandEffects_eq, pure_bind]
      rfl
  | rendered reply => exact unhandled_eq (follows_rendered reply) s
  | hover | focus | close => rfl

/-- Events leave the popup stocked: they compute it anew, or take no candidate away. -/
theorem stocked_handle (setup : Setup) (event : Event) {s : Session} (h : Stocked s.completion) :
    Stocked (Session.handle setup s event).1.completion := by
  rcases Session.computed_or_kept_hear setup event s with ⟨-, earlier, hcomputed⟩ | hkept
  · have hstocked := stocked_update setup.sources earlier
      (Session.hear setup event s).1.currentQuery?
    rwa [← hcomputed] at hstocked
  · exact h.retained hkept.completion

end Guarded

namespace Session

/-- Answer events one after another, and list the reactions. -/
def react (setup : Setup) : List Event → Session → Session × List Reaction
  | [], s => (s, [])
  | event :: events, s =>
      let (t, reaction) := handle setup s event
      let (u, reactions) := react setup events t
      (u, reaction :: reactions)

end Session

namespace Guarded

theorem run_eq (setup : Setup) (events : List Event) {s : Session} (h : Stocked s.completion) :
    run setup events s = pure (Session.react setup events s) := by
  induction events generalizing s with
  | nil => rfl
  | cons event events ih =>
      have hlater := ih (stocked_handle setup event h)
      rw [run, handle_eq setup event h, pure_bind]
      dsimp only
      rw [hlater, pure_bind]
      rfl

/-- No list of events takes a session out of the domain of an operation: for every
configuration, table of symbols and evaluator of scripts, and for every list of events, with
positions, ranges, indices and answers of any kind, all slices are in order, in bounds and at
boundaries of characters, all indices are in range, all bounds are in order, and no
subtraction underflows. -/
theorem session_never_fails (setup : Setup) (events : List Event) :
    run setup events .initial = pure (Session.react setup events .initial) :=
  run_eq setup events trivial

end Guarded

end MathTyping
