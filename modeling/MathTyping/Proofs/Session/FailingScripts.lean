import MathTyping.Proofs.Session.Reached
import MathTyping.Proofs.Session.PopupEdits

/-!
# Scripts that fail

A script runs when a script snippet is executed: by enter, by a tab once its name is typed in
full, or by a click.  Neither key executes a snippet that still needs its argument, and a click
does.  `executed?` says this once.

Whether a script runs cannot be seen in the answer of the evaluator, which is a function.  It
is seen in what depends on it: an event runs a script on an input if the answer to that one
question makes a difference (`RunsScript`).  That is so exactly if the event executes a snippet
with this script and this input (`runsScript_iff`), and then a failure is told to the user under
the name of the snippet and takes down the popup, with all else left as it was.
-/

namespace MathTyping

namespace Snippet

variable {s : Snippet} {q : Query} {evaluate other : Evaluator}

/-- What a snippet expands to depends on nothing but the answer to its own script. -/
theorem execute_congr (h : s.script →
    other s.content q.argumentInput? = evaluate s.content q.argumentInput?) :
    s.execute q other = s.execute q evaluate := by
  rw [execute, execute, template, template]
  cases hscript : s.script with
  | false => rfl
  | true => rw [if_pos rfl, if_pos rfl, h hscript]

theorem execute_of_script (hscript : s.script) (evaluate : Evaluator) :
    s.execute q evaluate =
      ((evaluate s.content q.argumentInput?).mapError s.scriptFault).map (expand q) := by
  rw [execute, template, if_pos hscript]

/-- The user is told of a failed script under the name of its snippet. -/
theorem noticeOf_scriptFault (s : Snippet) (f : Fault) :
    Outcome.noticeOf (s.scriptFault f) = ⟨s.name, f.userText⟩ := rfl

end Snippet

namespace Suggestions

/-- The candidate that an event is about: the chosen one for a key, or the one clicked on. -/
def picked? (found : Suggestions Snippet) : Event → Option Snippet
  | .keyDown _ => found.chosen?
  | .select index => found.candidates[index]?
  | _ => none

/-- Tell whether an event executes the candidate that it is about. -/
def executes (found : Suggestions Snippet) (s : Snippet) : Event → Bool
  | .keyDown chord =>
      !(s.wantsArgument && found.query.argument.isNone) &&
        match chord.key with
        | .enter => true
        | .tab | .right => s.name == found.query.word
        | _ => false
  | .select _ => true
  | _ => false

/-- The candidate that an event executes. -/
def executed? (found : Suggestions Snippet) (event : Event) : Option Snippet :=
  (found.picked? event).filter (found.executes · event)

theorem executed?_eq_some_iff {found : Suggestions Snippet} {event : Event} {s : Snippet} :
    found.executed? event = some s ↔
      found.picked? event = some s ∧ found.executes s event := by
  rw [executed?, Option.filter_eq_some_iff]

end Suggestions

namespace Completion

variable {src : Sources} {found : Suggestions Snippet} {chord : Chord} {cursor : Position}
  {s : Snippet} {other : Evaluator}

/-! ### Keys -/

/-- Completing a snippet executes it if its name is typed in full and no argument is missing. -/
theorem completeSnippet_congr
    (h : (!(s.wantsArgument && found.query.argument.isNone) && s.name == found.query.word) →
      s.execute found.query other = s.execute found.query src.evaluate) :
    completeSnippet { src with evaluate := other } found s = completeSnippet src found s := by
  have hsame : s.complete found.query other = s.complete found.query src.evaluate := by
    unfold Snippet.complete
    dsimp only
    split
    · next hexecutes => exact h hexecutes
    · rfl
  rw [completeSnippet, completeSnippet, hsame]

theorem completeSnippet_of_executes
    (h : !(s.wantsArgument && found.query.argument.isNone) && s.name == found.query.word)
    (src : Sources) :
    (completeSnippet src found s).2 = .ofExcept (s.execute found.query src.evaluate) ∧
      ∀ f, s.execute found.query src.evaluate = .error f →
        (completeSnippet src found s).1 = idle := by
  rw [completeSnippet, Snippet.complete, if_pos h]
  cases s.execute found.query src.evaluate with
  | ok splice =>
      refine ⟨rfl, fun f hf => ?_⟩
      contradiction
  | error f => exact ⟨rfl, fun _ _ => rfl⟩

/-- A key that executes a snippet answers with its expansion, and closes the popup if there is
none. -/
theorem snippetKey_of_executed (h : found.executed? (.keyDown chord) = some s) (src : Sources)
    (cursor : Position) :
    (snippetKey src found chord cursor).2 = .ofExcept (s.execute found.query src.evaluate) ∧
      ∀ f, s.execute found.query src.evaluate = .error f →
        (snippetKey src found chord cursor).1 = idle := by
  obtain ⟨hchosen, hexecutes⟩ := Suggestions.executed?_eq_some_iff.mp h
  simp only [Suggestions.picked?] at hchosen
  cases hkey : chord.key with
  | tab | right =>
      simp only [Suggestions.executes, hkey] at hexecutes
      simp only [snippetKey, hkey, hchosen]
      exact completeSnippet_of_executes hexecutes src
  | enter =>
      simp only [Suggestions.executes, hkey, Bool.and_true, Bool.not_eq_true'] at hexecutes
      have hgiven : ¬ (s.wantsArgument && found.query.argument.isNone) = true := by
        rw [hexecutes]
        exact Bool.false_ne_true
      simp only [snippetKey, hkey, hchosen, if_neg hgiven]
      exact ⟨trivial, fun _ _ => trivial⟩
  | _ => simp [Suggestions.executes, hkey] at hexecutes

/-- Scripts are of no concern to a key except through the snippet that it executes. -/
theorem snippetKey_congr (h : ∀ s, found.executed? (.keyDown chord) = some s →
      s.execute found.query other = s.execute found.query src.evaluate) :
    snippetKey { src with evaluate := other } found chord cursor =
      snippetKey src found chord cursor := by
  have hexecuted : ∀ s, found.chosen? = some s → found.executes s (.keyDown chord) →
      s.execute found.query other = s.execute found.query src.evaluate :=
    fun s hchosen hexecutes =>
      h s (Suggestions.executed?_eq_some_iff.mpr ⟨hchosen, hexecutes⟩)
  cases hkey : chord.key with
  | tab | right =>
      simp only [snippetKey, hkey]
      cases hchosen : found.chosen? with
      | none => rfl
      | some s =>
          refine completeSnippet_congr fun hname => hexecuted s hchosen ?_
          simpa only [Suggestions.executes, hkey] using hname
  | enter =>
      simp only [snippetKey, hkey]
      cases hchosen : found.chosen? with
      | none => rfl
      | some s =>
          dsimp only
          by_cases hmissing : (s.wantsArgument && found.query.argument.isNone) = true
          · rw [if_pos hmissing, if_pos hmissing]
            refine completeSnippet_congr fun hname => ?_
            simp [hmissing] at hname
          · have hexecutes : found.executes s (.keyDown chord) := by
              simp only [Suggestions.executes, hkey, eq_false_of_ne_true hmissing]
              rfl
            rw [if_neg hmissing, if_neg hmissing, hexecuted s hchosen hexecutes]
  | _ => simp only [snippetKey, hkey]

end Completion

namespace Session

variable {config : Config} {symbols : SymbolIndex} {setup : Setup} {s : Session}
  {found : Suggestions Snippet} {event : Event} {body : Text} {input : Option Text}

/-- An event runs a script on an input: what it does depends on the answer to that question. -/
def RunsScript (setup : Setup) (s : Session) (event : Event) (body : Text)
    (input : Option Text) : Prop :=
  ∃ other : Evaluator, (∀ b i, (b, i) ≠ (body, input) → other b i = setup.evaluate b i) ∧
    handle { setup with evaluate := other } s event ≠ handle setup s event

/-- While snippets are offered a key is for the popup. -/
theorem handle_keyDown_of_snippets (hopen : s.completion = .snippets found) (setup : Setup)
    (chord : Chord) :
    handle setup s (.keyDown chord) =
      let (completion, o) := Completion.snippetKey setup.sources found chord s.cursor
      outcome o { s with completion := completion } := by
  rw [handle_keyDown_of_open (by rw [hopen]; rfl), hopen]
  rfl

/-- An event that executes a snippet carries the expansion to the host, and closes the popup if
there is none. -/
theorem handle_of_executed {snippet : Snippet} (hopen : s.completion = .snippets found)
    (h : found.executed? event = some snippet) (setup : Setup) :
    ∃ completion, handle setup s event =
        outcome (.ofExcept (snippet.execute found.query setup.evaluate))
          { s with completion := completion } ∧
      ∀ f, snippet.execute found.query setup.evaluate = .error f → completion = .idle := by
  cases event with
  | keyDown chord =>
      obtain ⟨houtcome, hidle⟩ := Completion.snippetKey_of_executed h setup.sources s.cursor
      exact ⟨_, (handle_keyDown_of_snippets hopen setup chord).trans
        (congrArg (outcome · _) houtcome), hidle⟩
  | select index =>
      have hpicked : found.candidates[index]? = some snippet :=
        (Suggestions.executed?_eq_some_iff.mp h).1
      refine ⟨.idle, ?_, fun _ _ => rfl⟩
      simp only [handle, select, hopen, Completion.choose, hpicked]
      rfl
  | _ => simp [Suggestions.executed?, Suggestions.picked?] at h

/-- Scripts are of no concern to an event except through the snippet that it executes. -/
theorem handle_congr {other : Evaluator} (hopen : s.completion = .snippets found)
    (h : ∀ snippet, found.executed? event = some snippet →
      snippet.execute found.query other = snippet.execute found.query setup.evaluate) :
    handle { setup with evaluate := other } s event = handle setup s event := by
  cases event with
  | keyDown chord =>
      have hsame : Completion.snippetKey { setup.sources with evaluate := other } found chord
          s.cursor = Completion.snippetKey setup.sources found chord s.cursor :=
        Completion.snippetKey_congr h
      rw [handle_keyDown_of_snippets hopen, handle_keyDown_of_snippets hopen, ← hsame]
      rfl
  | select index =>
      simp only [handle, select, hopen, Completion.choose]
      cases hpicked : found.candidates[index]? with
      | none => rfl
      | some snippet =>
          have hsame := h snippet (Suggestions.executed?_eq_some_iff.mpr ⟨hpicked, rfl⟩)
          simp only [Setup.sources, hsame]
  | focus gained => cases gained <;> rfl
  | _ => rfl

/-- The splice of an event that executes a snippet is its expansion. -/
theorem splices_of_executed {snippet : Snippet} (hopen : s.completion = .snippets found)
    (h : found.executed? event = some snippet) (setup : Setup) :
    (handle setup s event).2.effects.filterMap Effect.splice? =
      (snippet.execute found.query setup.evaluate).toOption.toList := by
  obtain ⟨completion, hanswer, -⟩ := handle_of_executed hopen h setup
  rw [hanswer, splices_outcome]
  cases snippet.execute found.query setup.evaluate <;> rfl

/-- The scripts that an event runs are those of the snippet that it executes. -/
theorem runsScript_iff (hopen : s.completion = .snippets found) :
    RunsScript setup s event body input ↔
      ∃ snippet, found.executed? event = some snippet ∧ snippet.script ∧
        snippet.content = body ∧ found.query.argumentInput? = input := by
  constructor
  · rintro ⟨other, hagree, hdiffers⟩
    by_contra hnone
    refine hdiffers (handle_congr hopen fun snippet hexecuted => ?_)
    refine Snippet.execute_congr fun hscript => ?_
    refine hagree _ _ fun hsame => hnone ⟨snippet, hexecuted, hscript, ?_⟩
    exact ⟨congrArg Prod.fst hsame, congrArg Prod.snd hsame⟩
  · rintro ⟨snippet, hexecuted, hscript, rfl, rfl⟩
    -- Of two evaluators that answer the question with a text and with a fault, one differs.
    let answering (answer : Except Fault Text) : Evaluator := fun b i =>
      if (b, i) = (snippet.content, found.query.argumentInput?) then answer
      else setup.evaluate b i
    have hagree : ∀ answer b i, (b, i) ≠ (snippet.content, found.query.argumentInput?) →
        answering answer b i = setup.evaluate b i := fun answer b i hne => if_neg hne
    have hsplices : ∀ answer,
        (handle { setup with evaluate := answering answer } s event).2.effects.filterMap
          Effect.splice? = ((answer.mapError snippet.scriptFault).map
            (Snippet.expand found.query)).toOption.toList := by
      intro answer
      rw [splices_of_executed hopen hexecuted, Snippet.execute_of_script hscript]
      simp only [answering, if_pos]
    by_contra hnever
    have hsame : ∀ answer,
        handle { setup with evaluate := answering answer } s event = handle setup s event :=
      fun answer => by
        by_contra hdiffers
        exact hnever ⟨answering answer, hagree answer, hdiffers⟩
    have hexpanded := hsplices (.ok [])
    have hfailed := hsplices (.error default)
    rw [hsame] at hexpanded hfailed
    rw [hexpanded] at hfailed
    contradiction

/-- **A failing script edits nothing and closes the popup.**  In a reached session with snippets
offered, let a key or a click run a script that fails.  The script is that of the chosen snippet,
and the answer is a notice under the name of the snippet, without a splice, and the end of the
popup with its decoration; nothing else of the session changes. -/
theorem failing_script_closes_popup {evaluate : Evaluator} {f : Fault}
    (hreached : Reached config symbols s) (hopen : s.completion = .snippets found)
    (hruns : RunsScript ⟨config, symbols, evaluate⟩ s event body input)
    (hfails : evaluate body input = .error f) :
    ∃ snippet, found.picked? event = some snippet ∧ snippet.script ∧ snippet.content = body ∧
      found.query.argumentInput? = input ∧
      handle ⟨config, symbols, evaluate⟩ s event =
        ({ s with completion := .idle, popup := none },
          ⟨true, [.notice ⟨snippet.name, f.userText⟩, .closePopup,
            .removeHighlights [Highlight.triggerClass]]⟩) := by
  obtain ⟨snippet, hexecuted, hscript, rfl, rfl⟩ := (runsScript_iff hopen).mp hruns
  refine ⟨snippet, (Suggestions.executed?_eq_some_iff.mp hexecuted).1, hscript, rfl, rfl, ?_⟩
  have herror : snippet.execute found.query evaluate = .error (snippet.scriptFault f) := by
    rw [Snippet.execute_of_script hscript, hfails]
    rfl
  obtain ⟨completion, hanswer, hidle⟩ :=
    handle_of_executed hopen hexecuted ⟨config, symbols, evaluate⟩
  obtain rfl : completion = .idle := hidle _ herror
  have hshown : PopupView.of? .idle ≠ s.popup := by
    rw [hreached.synced, hopen]
    exact (Option.some_ne_none _).symm
  rw [hanswer, herror, Outcome.ofExcept, Snippet.noticeOf_scriptFault, outcome, syncPopup,
    if_neg hshown]
  rfl

/-- A setup with one script snippet, in an editor that cannot run scripts. -/
def scriptSetup : Setup :=
  { plainSetup with
    config := { Config.standard with
      snippets := [{ Snippet.standard with
        name := "sum".toList, content := "return n".toList, script := true }] } }

/-- Half of the name of the script snippet is typed in math, with its argument; then the name is
completed by a tab. -/
def completeScriptName : List Event :=
  [.changed ⟨"$su(3)@$".toList, ⟨0, 7⟩⟩, .keyDown (.plain .tab),
    .changed ⟨"$sum(3)@$".toList, ⟨0, 8⟩⟩]

/-- A second tab runs the script, and the user is told that it cannot be run. -/
theorem unsupported_script_told :
    let s := after scriptSetup completeScriptName
    let told : Notice := ⟨"sum".toList, "scripts are not supported by this editor".toList⟩
    ∃ found, Reached scriptSetup.config scriptSetup.symbols s ∧ s.completion = .snippets found ∧
      RunsScript scriptSetup s (.keyDown (.plain .tab)) "return n".toList (some ['3']) ∧
      scriptSetup.evaluate "return n".toList (some ['3']) = .error (.message
        ⟨"evaluate".toList, []⟩ "scripts are not supported by this editor".toList) ∧
      handle scriptSetup s (.keyDown (.plain .tab)) =
        ({ s with completion := .idle, popup := none },
          ⟨true, [.notice told, .closePopup, .removeHighlights [Highlight.triggerClass]]⟩) := by
  intro s told
  let snippet : Snippet := { Snippet.standard with
    name := "sum".toList, content := "return n".toList, script := true }
  let found : Suggestions Snippet :=
    ⟨⟨.snippet, "sum".toList, some "(3)".toList, ⟨0, 1⟩⟩, [snippet], some 0⟩
  have hopen : s.completion = .snippets found := by decide +kernel
  have hreached := reached_after scriptSetup completeScriptName
  have hruns : RunsScript scriptSetup s (.keyDown (.plain .tab)) "return n".toList (some ['3']) :=
    (runsScript_iff hopen).mpr ⟨snippet, by decide, rfl, rfl, by decide⟩
  obtain ⟨picked, hpicked, -, -, -, hanswer⟩ :=
    failing_script_closes_popup hreached hopen hruns rfl
  obtain rfl : snippet = picked := Option.some.inj hpicked
  exact ⟨found, hreached, hopen, hruns, rfl, hanswer⟩

end Session

end MathTyping
