import MathTyping.Proofs.Session.Reached
import MathTyping.Proofs.Popup.Edits

/-!
# The edits of an open popup

A session hands a key or a click to the open popup together with its caret, and
carries at most one splice back to the host.  The caret is always a place of the
document, and the query of the popup is the one detected there, so the query
stands in the document and the splice stays inside it.
-/

namespace MathTyping

namespace Effect

/-- The splice of an effect. -/
def splice? : Effect → Option Splice
  | .splice s => some s
  | _ => none

theorem OnPanes.splice?_eq_none {e : Effect} (h : e.OnPanes) : e.splice? = none := by
  cases e <;> first | rfl | exact h.elim

end Effect

namespace Session

/-! ### The caret -/

/-- After every run the caret is a place of the document. -/
theorem clamp_cursor_after (setup : Setup) (events : List Event) :
    (after setup events).buffer.clamp (after setup events).cursor =
      (after setup events).cursor :=
  (reached_after setup events).clamp_cursor

/-- After every run the query of an open popup stands in the document before the caret. -/
theorem exists_stands_after (setup : Setup) (events : List Event) {q : Query}
    (hopen : (after setup events).completion.query? = some q) :
    (after setup events).completion.Answers setup.sources q ∧
      ∃ pre post, q.Stands (after setup events).buffer (after setup events).cursor pre post := by
  rcases popupCurrent_after setup events with hidle | ⟨current, hquery, hanswers⟩
  · rw [hidle] at hopen
    contradiction
  · obtain rfl : current = q := by
      have hsame := hanswers.query?_eq
      rw [hopen] at hsame
      exact (Option.some.inj hsame).symm
    obtain ⟨-, -, hdetected⟩ := currentQuery?_eq_some_iff.mp hquery
    exact ⟨hanswers, Query.stands_of_detectAt? (clamp_cursor_after setup events) hdetected⟩

/-! ### The splices -/

/-- Of an answer of the popup only its splice reaches the document. -/
theorem splices_outcome (o : Outcome) (s : Session) :
    (outcome o s).2.effects.filterMap Effect.splice? = o.splice?.toList := by
  have hpanes : (syncPopup s).2.filterMap Effect.splice? = [] := by
    rw [List.filterMap_eq_nil_iff]
    exact fun e hmem => (syncPopup_onPanes s e hmem).splice?_eq_none
  rw [outcome]
  dsimp only
  rw [List.filterMap_append, List.filterMap_append, hpanes]
  cases o <;> rfl

/-- An open popup takes every key. -/
theorem handle_keyDown_of_open {s : Session} (hopen : s.completion.isOpen) (setup : Setup)
    (chord : Chord) :
    handle setup s (.keyDown chord) =
      outcome (s.completion.onKey setup.sources chord s.cursor).2
        { s with completion := (s.completion.onKey setup.sources chord s.cursor).1 } :=
  if_pos hopen

/-- The splices of a key are that of the popup, if it is open. -/
theorem splices_keyDown {setup : Setup} {chord : Chord} {s : Session}
    (hopen : s.completion.isOpen) :
    (hear setup (.keyDown chord) s).2.filterMap Effect.splice? =
      (s.completion.onKey setup.sources chord s.cursor).2.splice?.toList := by
  rw [hear, handle_keyDown_of_open hopen]
  exact splices_outcome _ _

theorem splices_select (setup : Setup) (index : Nat) (s : Session) :
    (hear setup (.select index) s).2.filterMap Effect.splice? =
      (s.completion.choose setup.sources index s.cursor).2.splice?.toList :=
  splices_outcome _ { s with completion := (s.completion.choose setup.sources index s.cursor).1 }

/-- **Every edit made through the popup stays inside its query.**  After every run, if the popup
is open for a query then a key or a click causes at most one splice.  The document is the text
before the start of the query, the query, and the text after the caret; the splice changes only
what stands between the first and the last, and leaves the caret there. -/
theorem popup_edit_stays_in_query (setup : Setup) (events : List Event) (event : Event)
    (q : Query) (hopen : (after setup events).completion.query? = some q)
    (hevent : (∃ chord, event = .keyDown chord) ∨ ∃ index, event = .select index) :
    let s := after setup events
    let pre := Text.takeBytes (s.buffer.toByte q.start) s.buffer.text
    let post := Text.dropBytes (s.buffer.toByte s.cursor) s.buffer.text
    let splices := (hear setup event s).2.filterMap Effect.splice?
    s.buffer.text = pre ++ q.text ++ post ∧ splices.length ≤ 1 ∧
      ∀ splice ∈ splices, splice.StaysBetween s.buffer pre post := by
  intro s pre post splices
  obtain ⟨hanswers, before, behind, hstands⟩ := exists_stands_after setup events hopen
  obtain ⟨hpre, hpost⟩ := hstands.cuts
  obtain rfl : pre = before := hpre
  obtain rfl : post = behind := hpost
  obtain ⟨o, hsplices, hstays⟩ : ∃ o : Outcome, splices = o.splice?.toList ∧
      o.StaysBetween s.buffer pre post := by
    rcases hevent with ⟨chord, rfl⟩ | ⟨index, rfl⟩
    · exact ⟨_, splices_keyDown hanswers.isOpen,
        Completion.staysBetween_onKey hanswers hstands chord⟩
    · exact ⟨_, splices_select setup index s,
        Completion.staysBetween_choose hanswers hstands index⟩
  refine ⟨hstands.text, ?_, ?_⟩
  · rw [hsplices]
    cases o.splice? <;> simp
  · intro splice hmem
    rw [hsplices] at hmem
    exact hstays splice (Option.mem_toList.mp hmem)

/-- A setup with a snippet whose expansion has two lines and characters of two units. -/
def wideSetup : Setup :=
  { plainSetup with
    config := { Config.standard with
      snippets := [{ Snippet.standard with
        name := "frac".toList, content := "𝔸\n#CURSOR𝔹".toList }] } }

/-- The name of the snippet is typed in math, behind a character of two units. -/
def typeName : List Event := [.changed ⟨"$𝔸+frac@$".toList, ⟨0, 9⟩⟩]

/-- The expansion replaces the query and nothing else, and the caret is inside it. -/
theorem expansion_stays_in_query :
    let expansion : Splice := ⟨some ⟨⟨⟨0, 4⟩, ⟨0, 9⟩⟩, "𝔸\n𝔹".toList⟩, ⟨1, 0⟩⟩
    (after wideSetup typeName).completion.query? =
        some ⟨.snippet, "frac".toList, none, ⟨0, 4⟩⟩ ∧
      (hear wideSetup (.keyDown (.plain .enter)) (after wideSetup typeName)).2.filterMap
        Effect.splice? = [expansion] ∧
      expansion.StaysBetween (after wideSetup typeName).buffer "$𝔸+".toList "$".toList := by
  have hopen : (after wideSetup typeName).completion.query? =
      some ⟨.snippet, "frac".toList, none, ⟨0, 4⟩⟩ := by
    decide +kernel
  have hsplices :
      (hear wideSetup (.keyDown (.plain .enter)) (after wideSetup typeName)).2.filterMap
        Effect.splice? = [⟨some ⟨⟨⟨0, 4⟩, ⟨0, 9⟩⟩, "𝔸\n𝔹".toList⟩, ⟨1, 0⟩⟩] := by
    decide +kernel
  have hpre : Text.takeBytes ((after wideSetup typeName).buffer.toByte ⟨0, 4⟩)
      (after wideSetup typeName).buffer.text = "$𝔸+".toList := by
    decide +kernel
  have hpost : Text.dropBytes
      ((after wideSetup typeName).buffer.toByte (after wideSetup typeName).cursor)
        (after wideSetup typeName).buffer.text = "$".toList := by
    decide +kernel
  have hstays := popup_edit_stays_in_query wideSetup typeName (.keyDown (.plain .enter)) _ hopen
    (Or.inl ⟨_, rfl⟩)
  dsimp only at hstays
  rw [hsplices, hpre, hpost] at hstays
  exact ⟨hopen, hsplices, hstays.2.2 _ List.mem_cons_self⟩

end Session

end MathTyping
