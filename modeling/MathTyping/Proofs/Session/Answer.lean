import MathTyping.Proofs.Session.Step

/-!
# The answers to all events

Events come in a few kinds, and their answers in six forms.  Every answer has one
of the forms, so that an invariant of a session is proved form by form, and an
event that is answered differently one day changes this file only.
-/

namespace MathTyping

namespace Event

/-- Tell whether an event reports the document, the caret or the selection. -/
def isReport : Event → Bool
  | .changed _ | .cursorMoved _ | .selectionChanged _ => true
  | _ => false

/-- Tell whether an event takes the session down. -/
def isTeardown : Event → Bool
  | .focus gained => !gained
  | .close => true
  | _ => false

/-- Tell whether an event carries the answer of a renderer. -/
def isRendered : Event → Bool
  | .rendered _ => true
  | _ => false

/-- Tell whether an event is none of these: a key, the pointer, a command or the clock. -/
def isInput (event : Event) : Bool :=
  !(event.isReport || event.isTeardown || event.isRendered)

theorem isInput_iff {event : Event} :
    event.isInput ↔
      event.isReport = false ∧ event.isTeardown = false ∧ event.isRendered = false := by
  simp [isInput, and_assoc]

theorem isReport_of_isTeardown {event : Event} (h : event.isTeardown) :
    event.isReport = false := by
  cases event <;> first | rfl | contradiction

end Event

namespace Session

/-- The forms of an answer: what the session becomes, and the effects.

Reports of the document, the caret or the selection are followed; keys, clicks and the
pointer may change the popup; other events leave the view alone, repaint it, carry an answer
of a renderer, or take the session down. -/
inductive Answer (setup : Setup) (s : Session) : Event → Session × List Effect → Prop
  | follow {event : Event} (buffer : Buffer) (cursor : Position) (selection : Option Range)
      (generation : Nat) (quiet : List Effect) (hevent : event.isReport)
      (hquiet : ∀ e ∈ quiet, e.isSilent) (hasks : Effect.requests quiet = []) :
      Answer setup s event
        ({ (refresh setup { s with buffer := buffer, cursor := cursor, selection := none }).1 with
            selection := selection, generation := generation },
          (refresh setup { s with buffer := buffer, cursor := cursor, selection := none }).2 ++
            quiet)
  | popup {event : Event} (completion : Completion) (quiet : List Effect)
      (hevent : event.isInput) (hquiet : ∀ e ∈ quiet, e.isSilent)
      (hasks : Effect.requests quiet = []) :
      Answer setup s event
        ((syncPopup { s with completion := completion }).1,
          quiet ++ (syncPopup { s with completion := completion }).2)
  | quiet {event : Event} (selection : Option Range) (quiet : List Effect)
      (hevent : event.isInput) (hquiet : ∀ e ∈ quiet, e.isSilent)
      (hasks : Effect.requests quiet = []) :
      Answer setup s event ({ s with selection := selection }, quiet)
  | repaint (generation : Nat) : Answer setup s (.repaint generation) (s, s.paintEffects)
  | rendered (reply : RenderReply) : Answer setup s (.rendered reply) (rendered reply s)
  | close {event : Event} (hevent : event.isTeardown) : Answer setup s event (close s)

/-- A refresh is followed by nothing else. -/
private theorem answer_refresh (setup : Setup) (s : Session) {event : Event}
    (hevent : event.isReport) (buffer : Buffer) (cursor : Position) :
    Answer setup s event
      (refresh setup { s with buffer := buffer, cursor := cursor, selection := none }) := by
  have h : ∀ selection generation, Answer setup s event (_, _) := fun selection generation =>
    Answer.follow buffer cursor selection generation [] hevent (by simp) rfl
  -- A session is the one with its own fields, which is costly to see on a whole refresh.
  generalize refresh setup { s with buffer := buffer, cursor := cursor, selection := none } = r
    at h ⊢
  have hsame := h r.1.selection r.1.generation
  rw [List.append_nil] at hsame
  exact hsame

private theorem answer_outcome (setup : Setup) (s : Session) {event : Event}
    (hevent : event.isInput) (completion : Completion) (o : Outcome) :
    Answer setup s event
      ((outcome o { s with completion := completion }).1,
        (outcome o { s with completion := completion }).2.effects) := by
  have hforms : ∀ e ∈ o.notice?.toList.map Effect.notice ++ o.splice?.toList.map Effect.splice,
      e.isSilent ∧ e.request? = none := by
    intro e hmem
    rcases List.mem_append.mp hmem with h | h
    · obtain ⟨n, -, rfl⟩ := List.mem_map.mp h
      exact ⟨rfl, rfl⟩
    · obtain ⟨splice, -, rfl⟩ := List.mem_map.mp h
      exact ⟨rfl, rfl⟩
  exact Answer.popup completion _ hevent (fun e hmem => (hforms e hmem).1)
    (Effect.requests_eq_nil fun e hmem => (hforms e hmem).2)

/-- Every answer has one of the forms. -/
theorem answer_hear (setup : Setup) (event : Event) (s : Session) :
    Answer setup s event (hear setup event s) := by
  cases event with
  | changed snapshot =>
      exact answer_refresh setup s rfl ⟨snapshot.text⟩
        (Buffer.clamp ⟨snapshot.text⟩ snapshot.cursor)
  | cursorMoved cursor =>
      exact Answer.follow s.buffer (s.buffer.clamp cursor) _ _ _ rfl
        (deferRepaint_isSilent setup _) (requests_deferRepaint setup _)
  | selectionChanged range =>
      exact Answer.follow s.buffer (s.buffer.clamp (s.buffer.clamp range.stop)) _ _ _ rfl
        (deferRepaint_isSilent setup _) (requests_deferRepaint setup _)
  | keyDown chord =>
      simp only [hear, handle, keyDown]
      split
      · exact answer_outcome setup s rfl _ _
      · split
        · exact Answer.quiet none _ rfl (by simp [Effect.isSilent]) rfl
        · split
          · exact Answer.quiet s.selection _ rfl (by simp [Effect.isSilent]) rfl
          · exact Answer.quiet s.selection _ rfl (by simp) rfl
  | hover index => exact Answer.popup (s.completion.hover index) [] rfl (by simp) rfl
  | select index => exact answer_outcome setup s rfl _ _
  | repaint generation =>
      simp only [hear, handle]
      split
      · exact Answer.repaint generation
      · exact Answer.quiet s.selection _ rfl (by simp) rfl
  | focus gained =>
      cases gained with
      | true => exact Answer.quiet s.selection _ rfl (by simp) rfl
      | false => exact Answer.close rfl
  | command command =>
      exact Answer.quiet s.selection _ rfl (commandEffects_isSilent s command)
        (requests_commandEffects s command)
  | rendered reply => exact Answer.rendered reply
  | close => exact Answer.close rfl

/-- Every event decorates with known classes only. -/
theorem hear_addsOnly (setup : Setup) (event : Event) (s : Session) :
    ∀ e ∈ (hear setup event s).2, e.AddsOnly Highlight.allClasses := by
  intro e hmem
  have hanswer := answer_hear setup event s
  generalize hear setup event s = answer at hanswer hmem
  cases hanswer with
  | follow buffer cursor selection generation quiet hevent hquiet =>
      rcases List.mem_append.mp hmem with hmem | hmem
      · rcases List.mem_append.mp hmem with hmem | hmem
        · exact (syncPopup_onPanes _ e hmem).addsOnly
        · rcases List.mem_append.mp hmem with hmem | hmem
          · exact (updatePreview_onPanes setup _ e hmem).addsOnly
          · exact (refreshBrackets_onBrackets _ e hmem).addsOnly
      · exact Effect.addsOnly_of_isSilent _ (hquiet e hmem)
  | popup completion quiet hevent hquiet =>
      rcases List.mem_append.mp hmem with hmem | hmem
      · exact Effect.addsOnly_of_isSilent _ (hquiet e hmem)
      · exact (syncPopup_onPanes _ e hmem).addsOnly
  | quiet selection quiet hevent hquiet => exact Effect.addsOnly_of_isSilent _ (hquiet e hmem)
  | repaint generation => exact (paintEffects_onBrackets s e hmem).addsOnly
  | rendered reply =>
      cases reply with
      | brackets content result =>
          exact (rendered_brackets_onBrackets content result s e hmem).addsOnly
      | preview ticket result =>
          exact (rendered_preview_onPanes ticket result s e hmem).addsOnly
  | close hevent =>
      simp only [close, List.mem_cons, List.not_mem_nil, or_false] at hmem
      rcases hmem with rfl | rfl | rfl <;> trivial

end Session

end MathTyping
