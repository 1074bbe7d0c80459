import MathTyping.Proofs.Host.Operation
import MathTyping.Proofs.Session.RequestQueue

/-!
# The queue of events

A host reports an event, and the change that one of its effects makes waits in a queue to be
reported as well.  In each turn the first event of the queue is dispatched, and the changes that
it causes join the end.  Nothing in this bounds the number of turns.

Two turns are enough, and they end where `run` does (`turns_run`): an event causes at most one
change, and a change that an effect has made is followed without another edit (`editing_caused`).
There is no other end (`Loop.Ends.unique`).  So every operation of a user is a number of changes of
the editor itself, each reported by a loop that ends (`works_perform`).
-/

namespace MathTyping

namespace Host

open Effect (editing)

/-! ### The loop -/

/-- Events on their way through the queue: those dispatched so far, and whether the first of them
was handled. -/
structure Loop where
  host : Host
  queue : List Event
  dispatched : List Event
  handled : Option Bool

namespace Loop

/-- Dispatch the first event of the queue. -/
def turn (env : HostSetup) (p : Loop) : Loop :=
  match p.queue with
  | [] => p
  | event :: queue =>
      let (h, handled, caused) := p.host.step env event
      ⟨h, queue ++ caused, p.dispatched ++ [event], some (p.handled.getD handled)⟩

/-- The queue of an event to report. -/
def start (h : Host) (event : Event) : Loop := ⟨h, [event], [], none⟩

/-- The loop gets from an event to an empty queue, one turn for each event dispatched. -/
def Ends (env : HostSetup) (h : Host) (event : Event) (dispatched : List Event) (t : Host)
    (handled : Bool) : Prop :=
  (turn env)^[dispatched.length] (start h event) = ⟨t, [], dispatched, some handled⟩

end Loop

variable {env : HostSetup} {h t u : Host} {event : Event} {e : Effect}

/-- The queue is empty after the event and the change that it causes, and the host is where `run`
has put it. -/
theorem turns_run (env : HostSetup) (h : Host) (event : Event) :
    Loop.Ends env h event (event :: (h.step env event).2.2) (h.run env event).1
      (h.run env event).2 := by
  have hfirst : Loop.turn env (.start h event) =
      ⟨(h.step env event).1, (h.step env event).2.2, [event], some (h.step env event).2.1⟩ := rfl
  rw [Loop.Ends, List.length_cons, Function.iterate_succ_apply, hfirst, handled_run]
  rcases events_step env h event with hnone | ⟨change, hreport, hone⟩
  · rw [run_of_quiet hnone, hnone]
    rfl
  · -- The change is reported in one more turn, which adds nothing to the queue.
    have hlast : ((h.step env event).1.step env change).2.2 = [] := (step_report env _ hreport).2
    rw [run_of_report hone, hone, List.length_singleton, Function.iterate_one, Loop.turn]
    dsimp only
    rw [hlast]
    rfl

/-- Once the queue is empty nothing happens any more, so the loop ends in one way only. -/
theorem Loop.Ends.unique {dispatched others : List Event} {handled other : Bool}
    (hends : Loop.Ends env h event dispatched t handled)
    (hother : Loop.Ends env h event others u other) :
    others = dispatched ∧ (u, other) = (t, handled) := by
  have hstays (turns : Nat) (t : Host) (dispatched : List Event) (handled : Bool) :
      (Loop.turn env)^[turns] ⟨t, [], dispatched, some handled⟩ =
        ⟨t, [], dispatched, some handled⟩ :=
    Function.iterate_fixed rfl turns
  have hmeet := Function.Commute.iterate_iterate_self (Loop.turn env) others.length
    dispatched.length (.start h event)
  rw [hends, hother, hstays, hstays] at hmeet
  obtain ⟨rfl, -, rfl, hhandled⟩ := Loop.mk.inj hmeet
  exact ⟨rfl, congrArg _ (Option.some.inj hhandled).symm⟩

/-- At most two events are dispatched for one that is reported. -/
theorem length_dispatched_le (env : HostSetup) (h : Host) (event : Event) :
    (event :: (h.step env event).2.2).length ≤ 2 := by
  rcases events_step env h event with hnone | ⟨change, -, hone⟩
  · rw [hnone]
    exact Nat.le_succ 1
  · rw [hone]
    exact Nat.le_refl 2

/-! ### Changes that effects make -/

/-- What carrying out an effect causes is a report of the document, the caret or the
selection. -/
theorem isReport_caused {v : Screen} {change : Event} (h : (v.apply e).2 = some change) :
    change.isReport := by
  cases e with
  | splice splice =>
      obtain rfl := Option.some.inj h
      split <;> rfl
  | setSelection range =>
      obtain rfl := Option.some.inj h
      rfl
  | _ => contradiction

/-- A session follows a change that an effect has made without another splice or selection. -/
theorem editing_caused {v : Screen} {change : Event} (h : (v.apply e).2 = some change)
    (setup : Setup) (renderer : Renderer) (s : Session) :
    editing (s.dispatch setup renderer change).2.effects = [] := by
  rw [Session.editing_dispatch]
  rcases Session.editing_hear setup change s with hnone | ⟨hinput, -⟩
  · exact hnone
  · have hreport := isReport_caused h
    rw [(Event.isInput_iff.mp hinput).1] at hreport
    contradiction

/-! ### Operations -/

/-- A change of the editor itself, or the choice of repaints to make, which its session has not
heard of yet. -/
structure Unreported (h t : Host) : Prop where
  session : t.session = h.session
  view : t.screen.view = h.screen.view
  journal : t.journal = h.journal

/-- The editor gets from `h` to `t` by changes of its own and by reports.  Each event that it
reports stands in the list with the events that its loop dispatched. -/
inductive Works (env : HostSetup) : Host → List (Event × List Event) → Host → Prop
  | done (h : Host) : Works env h [] h
  | change {h u t : Host} {reports : List (Event × List Event)} (hown : Unreported h u)
      (hlater : Works env u reports t) : Works env h reports t
  | report {h u t : Host} {event : Event} {dispatched : List Event} {handled : Bool}
      {reports : List (Event × List Event)} (hends : Loop.Ends env h event dispatched u handled)
      (hlater : Works env u reports t) : Works env h ((event, dispatched) :: reports) t

theorem Works.trans {first second : List (Event × List Event)} (hfirst : Works env h first u)
    (hsecond : Works env u second t) : Works env h (first ++ second) t := by
  induction hfirst with
  | done h => exact hsecond
  | change hown hlater ih => exact .change hown (ih hsecond)
  | report hends hlater ih => exact .report hends (ih hsecond)

/-- The editor gets from `h` to `t`, and every report that it makes on the way is over after at
most two events. -/
def WorksBriefly (env : HostSetup) (h t : Host) : Prop :=
  ∃ reports, Works env h reports t ∧ ∀ r ∈ reports, r.2.length ≤ 2

theorem WorksBriefly.refl (env : HostSetup) (h : Host) : WorksBriefly env h h :=
  ⟨[], .done h, fun _ hmem => absurd hmem List.not_mem_nil⟩

theorem WorksBriefly.trans (hfirst : WorksBriefly env h u) (hsecond : WorksBriefly env u t) :
    WorksBriefly env h t := by
  obtain ⟨first, hworks, hbrief⟩ := hfirst
  obtain ⟨second, hmore, hlater⟩ := hsecond
  refine ⟨first ++ second, hworks.trans hmore, fun r hmem => ?_⟩
  exact (List.mem_append.mp hmem).elim (hbrief r) (hlater r)

theorem Unreported.worksBriefly (hown : Unreported h t) : WorksBriefly env h t :=
  ⟨[], .change hown (.done t), fun _ hmem => absurd hmem List.not_mem_nil⟩

theorem worksBriefly_run (env : HostSetup) (h : Host) (event : Event) :
    WorksBriefly env h (h.run env event).1 := by
  refine ⟨[(event, event :: (h.step env event).2.2)], .report (turns_run env h event) (.done _),
    fun r hmem => ?_⟩
  rw [List.mem_singleton.mp hmem]
  exact length_dispatched_le env h event

/-- A change of the editor itself is reported at once. -/
theorem Unreported.worksBriefly_tell (hown : Unreported h u) (event : Event) :
    WorksBriefly env h (u.tell env event) :=
  hown.worksBriefly.trans (worksBriefly_run env u event)

/-- An editor may change its document, its caret and its selection. -/
theorem unreported_screen (h : Host) (w : Screen) (hview : w.view = h.screen.view) :
    Unreported h { h with screen := w } :=
  ⟨rfl, hview, rfl⟩

theorem unreported_defaultAction {w : Screen} {chord : Chord}
    (haction : defaultAction h.screen chord = some (w, event)) :
    Unreported h { h with screen := w } := by
  refine unreported_screen h w ?_
  rcases defaultAction_cases haction with
    ⟨-, text, rfl, -⟩ | ⟨c, -, -, rfl, -⟩ | ⟨c, -, -, rfl, -⟩ | ⟨c, -, -, rfl, -⟩ <;> rfl

theorem worksBriefly_press (env : HostSetup) (h : Host) (chord : Chord) :
    WorksBriefly env h (h.press env chord).1 := by
  have hkey := worksBriefly_run env h (.keyDown chord)
  rcases press_cases env h chord with ⟨-, hpress⟩ | ⟨w, event, -, haction, hpress⟩
  · rw [hpress]
    exact hkey
  · rw [hpress]
    exact hkey.trans ((unreported_defaultAction haction).worksBriefly_tell event)

theorem worksBriefly_load (env : HostSetup) (h : Host) (text : Text) (cursor : Position) :
    WorksBriefly env h (h.load env text cursor) := by
  rw [load]
  refine (unreported_screen h _ ?_).worksBriefly_tell _
  rfl

/-- Every operation is a number of reports, and each of them is over after at most two events. -/
theorem works_perform (env : HostSetup) (h : Host) (operation : Operation) :
    WorksBriefly env h (h.perform env operation) := by
  cases operation with
  | openMarked marked =>
      simp only [perform, openMarked]
      split <;> exact worksBriefly_load env h _ _
  | load text cursor => exact worksBriefly_load env h text cursor
  | typeText text =>
      exact typeText_keeps (P := WorksBriefly env h) text
        (fun host c hstart => hstart.trans (worksBriefly_press env host _)) (.refl env h)
  | press chord => exact worksBriefly_press env h _
  | key chord => exact worksBriefly_press env h chord
  | click p =>
      rw [perform, click]
      refine (unreported_screen h _ ?_).worksBriefly_tell _
      rfl
  | select range =>
      rw [perform, select]
      refine (unreported_screen h _ ?_).worksBriefly_tell _
      rfl
  | settle =>
      have hdue : Unreported h { h with deferred := [] } := ⟨rfl, rfl, rfl⟩
      exact settle_keeps (P := WorksBriefly env h)
        (fun host generation hstart => hstart.trans (worksBriefly_run env host _))
        hdue.worksBriefly
  | hover index => exact worksBriefly_run env h (.hover index)
  | choose index => exact worksBriefly_run env h (.select index)
  | command command => exact worksBriefly_run env h (.command command)
  | blur => exact worksBriefly_run env h (.focus false)

/-! ### Both queues -/

/-- Both queues run empty, in every state.  A dispatched event is over when each of its requests
has been answered, once and in order, and no request is left among its effects; an answer asks
for nothing.  The loop of a host ends at what `run` gives, after two events at most and in no other
way, since a change that an effect makes is followed without another edit; and an operation of a
user is a number of such reports. -/
theorem queues_run_empty (setup : Setup) (renderer : Renderer) :
    (∀ s event,
      let dispatched := s.dispatch setup renderer event
      (∃ turns, (Session.Service.turn setup renderer)^[turns] (.start setup s event) =
        ⟨dispatched.1, [], dispatched.2.effects, Effect.requests (Session.hear setup event s).2⟩) ∧
      Effect.requests dispatched.2.effects = []) ∧
    (∀ s reply, Effect.requests (Session.hear setup (.rendered reply) s).2 = []) ∧
    (∀ h event,
      let dispatched := event :: (h.step ⟨setup, renderer⟩ event).2.2
      Loop.Ends ⟨setup, renderer⟩ h event dispatched (h.run ⟨setup, renderer⟩ event).1
        (h.run ⟨setup, renderer⟩ event).2 ∧ dispatched.length ≤ 2 ∧
          ∀ others t handled, Loop.Ends ⟨setup, renderer⟩ h event others t handled →
            others = dispatched ∧ (t, handled) = h.run ⟨setup, renderer⟩ event) ∧
    (∀ h operation, ∃ reports,
      Works ⟨setup, renderer⟩ h reports (h.perform ⟨setup, renderer⟩ operation) ∧
        ∀ r ∈ reports, r.2.length ≤ 2) ∧
    ∀ (v : Screen) e change, (v.apply e).2 = some change →
      ∀ s : Session, editing (s.dispatch setup renderer change).2.effects = [] := by
  refine ⟨fun s event => ?_, fun s reply => Session.requests_rendered reply s,
    fun h event => ?_, fun h operation => ?_,
    fun v e change hcaused s => editing_caused hcaused setup renderer s⟩
  · exact ⟨Session.turns_dispatch setup renderer s event,
      Session.requests_dispatch setup renderer s event⟩
  · exact ⟨turns_run ⟨setup, renderer⟩ h event, length_dispatched_le ⟨setup, renderer⟩ h event,
      fun others t handled => (turns_run ⟨setup, renderer⟩ h event).unique⟩
  · exact works_perform ⟨setup, renderer⟩ h operation

end Host

end MathTyping
