import MathTyping.Proofs.Popup.Draft
import MathTyping.Proofs.Query.Redetected
import MathTyping.Proofs.Symbol.Table

/-!
# Completing the name of a snippet

Tab writes the name of a snippet and the at sign in place of the query, and what is written
has to be read again for the popup to stay.  `completed_name_reopens` says that it is, from
the same start, for a name of letters and digits: nothing that starts earlier can be read
now that could not be read before.  The line may begin like an import by now, and then the
popup closes.

A second Tab runs the snippet.  It replaces more text than Enter would have replaced in the
first place, but the text around both queries is the same.
-/

namespace MathTyping

open Position (origin)
open Query

namespace Query

variable {b other : Buffer} {cursor caret : Position} {pre post : Text} {q p : Query}

/-! ### Reading a word again -/

/-- A line that begins like an import is asked for no snippet. -/
theorem detect?_import {t : Text} (cursor : Position)
    (himport : (t ++ ['@']).beginsWith "#import".toList) : detect? (t ++ ['@']) cursor = none := by
  rw [detect?, List.getLast?_concat]
  dsimp only
  rw [if_pos rfl, if_pos himport]

/-- Behind more than a word, a word ends no argument. -/
theorem readSnippet?_mark {part name : Text} (hname : IsWord name)
    (hpart : ¬ ∀ c ∈ part, isWordChar c) : readSnippet? (part ++ (name ++ ['@'])) = none := by
  have hmark : (part.find? fun c => !isWordChar c).isSome := by
    rw [List.find?_isSome]
    simp only [not_forall] at hpart
    obtain ⟨c, hc, hnot⟩ := hpart
    exact ⟨c, hc, by simpa using hnot⟩
  obtain ⟨c, hfound⟩ := Option.isSome_iff_exists.mp hmark
  obtain ⟨hc, word, rest, rfl, hword⟩ := List.find?_eq_some_iff_append.mp hfound
  have hc : isWordChar c = false := by simpa using hc
  rw [List.append_assoc, List.cons_append]
  cases word with
  | nil =>
      rw [List.nil_append, readSnippet?, List.takeWhile_cons_of_neg (by simp [hc])]
      rfl
  | cons first word =>
      rw [readSnippet?_word ⟨List.cons_ne_nil _ _, by simpa using hword⟩ hc, if_neg]
      · rw [Option.map_eq_none_iff]
        cases hread : readArgument? (c :: (rest ++ (name ++ ['@']))) with
        | none => rfl
        | some a =>
            obtain ⟨htext, inner, rfl⟩ := readArgument?_eq_some hread
            have hends : ((c :: rest) ++ name) ++ ['@'] = (('(' :: inner) ++ [')']) ++ ['@'] := by
              simpa using htext
            have hlast := hname.isWordChar_last (List.append_cancel_right hends).symm
            contradiction
      · simp [hname.1]

/-- A word in place of a word is read from the same start. -/
theorem Stands.firstTail_word (h : q.Stands b cursor pre post)
    (hquery : detectAt? b cursor = some q) (hkind : q.kind = .snippet)
    (hargument : q.argument = none) {name : Text} (hname : IsWord name) :
    FirstTail beforeSnippet readSnippet? true (pre.lastLine ++ (name ++ ['@'])) pre.lastLine
      (name ++ ['@']) := by
  obtain ⟨-, hread, hfirst⟩ := h.firstTail hquery hkind
  have hasked := isWord_of_readSnippet? hread
  rw [text_of_argument_eq_none hkind hargument] at hfirst
  refine hfirst.retyped fun part _ hnone => readSnippet?_mark hname fun hpart => ?_
  -- A longer word could be read before.
  have hlonger : IsWord (part ++ q.word) :=
    ⟨by simp [hasked.1], fun c hc => (List.mem_append.mp hc).elim (hpart c) (hasked.2 c)⟩
  rw [← List.append_assoc, readSnippet?_word hlonger (by decide)] at hnone
  contradiction

/-- A name in place of a snippet query is a query from the same start, unless the line begins like
an import. -/
theorem Stands.detectAt?_word (h : q.Stands b cursor pre post)
    (hquery : detectAt? b cursor = some q) (hkind : q.kind = .snippet)
    (hargument : q.argument = none) {name : Text} (hname : IsWord name) :
    detectAt? ⟨pre ++ (name ++ ['@']) ++ post⟩ (origin.advance (pre ++ (name ++ ['@']))) =
      if (pre.lastLine ++ (name ++ ['@'])).beginsWith "#import".toList then none
      else some { q with word := name } := by
  have hline : '\n' ∉ name ++ ['@'] := by simp [hname.feed_notMem]
  rw [detectAt?_advance rfl, Text.lastLine_append pre hline]
  split
  · rename_i himport
    rw [← List.append_assoc] at himport ⊢
    exact detect?_import _ himport
  · rename_i himport
    have hread := readSnippet?_word (t := []) hname (by decide : isWordChar '@' = false)
    rw [if_pos rfl] at hread
    have hstart : q.start =
        ⟨(origin.advance (pre ++ (name ++ ['@']))).line, pre.lastLine.units⟩ := by
      rw [h.start, ← Position.column_advance, Position.advance_append,
        Position.advance_of_notMem _ hline]
      rfl
    rw [detect?_of_firstTail_snippet _ (by simpa using himport)
      (h.firstTail_word hquery hkind hargument hname) hread, ← hkind, ← hargument, ← hstart]

/-- What a snippet is expanded to depends on the text around the query only. -/
theorem Stands.apply_expand (h : q.Stands b cursor pre post)
    (hother : p.Stands other caret pre post) (template : Text) :
    (Snippet.expand p template).apply other = (Snippet.expand q template).apply b := by
  rw [Snippet.expand, Snippet.expand]
  split
  · rw [h.apply_range, hother.apply_range, h.start, hother.start]
  · rw [h.apply_replacing, hother.apply_replacing]

end Query

/-- The highlighted candidate is the chosen one. -/
theorem Suggestions.chosen?_of_selected {α : Type} {found : Suggestions α} {i : Nat} {c : α}
    (hselected : found.selected = some i) (hc : found.candidates[i]? = some c) :
    found.chosen? = some c := by
  obtain ⟨hlt, -⟩ := List.getElem?_eq_some_iff.mp hc
  have hmin : min i (found.candidates.length - 1) = i := by omega
  rw [chosen?, hselected, Option.getD_some, hmin, hc]

namespace Completion

variable {src : Sources} {word : Text} {s : Snippet}

theorem mem_matchingSnippets_iff :
    s ∈ matchingSnippets src word ↔ s ∈ src.snippets ∧ s.name.contains word :=
  List.mem_filter

/-- Of snippets with distinct names, the one whose name is typed in full is highlighted. -/
theorem exists_highlighted_name {q : Query} (state : Completion)
    (hnames : (src.snippets.map (·.name)).Nodup) (hs : s ∈ src.snippets)
    (hkind : q.kind = .snippet) (hword : q.word = s.name) :
    ∃ i, state.update src (some q) = .snippets ⟨q, matchingSnippets src s.name, some i⟩ ∧
      (matchingSnippets src s.name)[i]? = some s := by
  have hmatches : s ∈ matchingSnippets src s.name :=
    mem_matchingSnippets_iff.mpr ⟨hs, (Text.contains_iff _ _).mpr (List.infix_refl _)⟩
  have hsome : ((matchingSnippets src s.name).findIdx? (·.name == s.name)).isSome := by
    rw [List.findIdx?_isSome, List.any_eq_true]
    exact ⟨s, hmatches, beq_self_eq_true _⟩
  obtain ⟨i, hi⟩ := Option.isSome_iff_exists.mp hsome
  obtain ⟨hlt, hname, -⟩ := List.findIdx?_eq_some_iff_getElem.mp hi
  have hsame := List.inj_on_of_nodup_map hnames
    (mem_matchingSnippets_iff.mp (List.getElem_mem hlt)).1 hs (beq_iff_eq.mp hname)
  refine ⟨i, ?_, by rw [List.getElem?_eq_getElem hlt, hsame]⟩
  rw [update_snippets hkind, hword, hi, Option.some_or]
  rw [hword]
  exact List.ne_nil_of_mem hmatches

end Completion

namespace Draft

variable {src : Sources} {d : Draft} {found : Suggestions Snippet} {pre post : Text} {s : Snippet}

/-! ### The two keys -/

/-- Tab writes the name of the chosen snippet and an at sign in place of the query. -/
theorem press?_name (src : Sources) (hpopup : d.popup = .snippets found)
    (hstands : found.query.Stands d.buffer d.caret pre post) (hchosen : found.chosen? = some s)
    (hscript : s.script = false) (hname : s.name ≠ found.query.word) :
    d.press? src (.plain .tab) =
      some ⟨⟨pre ++ (s.name ++ ['@']) ++ post⟩, origin.advance (pre ++ (s.name ++ ['@'])),
        (Completion.snippets found).update src
          (detectAt? ⟨pre ++ (s.name ++ ['@']) ++ post⟩
            (origin.advance (pre ++ (s.name ++ ['@']))))⟩ := by
  have hcomplete : s.complete found.query src.evaluate =
      .ok (.replacing ⟨found.query.range, s.name ++ ['@']⟩) := by
    simp [Snippet.complete, Snippet.wantsArgument, Snippet.completedArgument, hscript, hname]
  have hanswer : d.popup.onKey src (.plain .tab) d.caret =
      (.snippets found, .splice (.replacing ⟨found.query.range, s.name ++ ['@']⟩)) := by
    simp only [hpopup, Completion.onKey, Completion.snippetKey, Chord.plain, hchosen,
      Completion.completeSnippet, hcomplete]
  rw [press?_of_splice hanswer (hstands.apply_replacing _)]

/-- Tab runs a snippet whose name is there, and leaves the popup to the next query. -/
theorem press?_execute_tab (src : Sources) (hpopup : d.popup = .snippets found)
    (hchosen : found.chosen? = some s) (hscript : s.script = false)
    (hname : s.name = found.query.word) :
    ∃ later, d.press? src (.plain .tab) = some later ∧
      (later.buffer, later.caret) = (Snippet.expand found.query s.content).apply d.buffer := by
  have hcomplete : s.complete found.query src.evaluate =
      .ok (Snippet.expand found.query s.content) := by
    simp [Snippet.complete, Snippet.wantsArgument, Snippet.execute, Snippet.template, hscript,
      hname, Except.map]
  have hanswer : d.popup.onKey src (.plain .tab) d.caret =
      (.snippets found, .splice (Snippet.expand found.query s.content)) := by
    simp only [hpopup, Completion.onKey, Completion.snippetKey, Chord.plain, hchosen,
      Completion.completeSnippet, hcomplete]
  exact ⟨_, press?_of_splice hanswer rfl, rfl⟩

/-- Enter runs the chosen snippet. -/
theorem press?_execute_enter (src : Sources) (hpopup : d.popup = .snippets found)
    (hchosen : found.chosen? = some s) (hscript : s.script = false) :
    ∃ later, d.press? src (.plain .enter) = some later ∧
      (later.buffer, later.caret) = (Snippet.expand found.query s.content).apply d.buffer := by
  have hexecute : s.execute found.query src.evaluate =
      .ok (Snippet.expand found.query s.content) := by
    simp [Snippet.execute, Snippet.template, hscript, Except.map]
  have hanswer : d.popup.onKey src (.plain .enter) d.caret =
      (.idle, .splice (Snippet.expand found.query s.content)) := by
    simp [hpopup, Completion.onKey, Completion.snippetKey, Chord.plain, hchosen,
      Snippet.wantsArgument, hscript, hexecute, Outcome.ofExcept]
  exact ⟨_, press?_of_splice hanswer rfl, rfl⟩

/-- Between the same texts, Tab on a name that is there does what Enter does on any query. -/
theorem press?_tab_eq_enter (src : Sources) (later : Suggestions Snippet) {b other : Buffer}
    {caret place : Position} (hstands : found.query.Stands b caret pre post)
    (hbehind : later.query.Stands other place pre post) (hchosen : found.chosen? = some s)
    (hlater : later.chosen? = some s) (hscript : s.script = false)
    (hname : s.name = later.query.word) :
    ∃ again once, press? src ⟨other, place, .snippets later⟩ (.plain .tab) = some again ∧
      press? src ⟨b, caret, .snippets found⟩ (.plain .enter) = some once ∧
      again.buffer = once.buffer ∧ again.caret = once.caret := by
  obtain ⟨again, hagain, hexpanded⟩ :=
    press?_execute_tab (d := ⟨other, place, .snippets later⟩) src rfl hlater hscript hname
  obtain ⟨once, honce, hsame⟩ :=
    press?_execute_enter (d := ⟨b, caret, .snippets found⟩) src rfl hchosen hscript
  rw [hstands.apply_expand hbehind, ← hsame] at hexpanded
  obtain ⟨hbuffer, hcaret⟩ := Prod.mk.inj hexpanded
  exact ⟨again, once, hagain, honce, hbuffer, hcaret⟩

/-! ### Completing a name -/

/-- **A completed name of letters and digits is asked for from the same start, with its snippet
highlighted, unless the line now begins like an import**; a second Tab then does what Enter
would have done in the first place. -/
theorem completed_name_reopens (src : Sources) (b : Buffer) (cursor : Position)
    (found : Suggestions Snippet) (s : Snippet)
    (hnames : (src.snippets.map (·.name)).Nodup)
    (hquery : detectAt? b cursor = some found.query)
    (hanswers : (Completion.snippets found).Answers src found.query)
    (hargument : found.query.argument = none) (hchosen : found.chosen? = some s)
    (hscript : s.script = false) (hname : s.name ≠ found.query.word) (hword : IsWord s.name) :
    ∃ done, press? src ⟨b, b.clamp cursor, .snippets found⟩ (.plain .tab) = some done ∧
      done.buffer = b.replace found.query.range (s.name ++ ['@']) ∧
      done.caret = found.query.start.advance (s.name ++ ['@']) ∧
      if ((b.line found.query.start.line).before found.query.start.column ++
          (s.name ++ ['@'])).beginsWith "#import".toList then
        done.popup = .idle
      else
        ∃ later i again once, done.popup = .snippets later ∧
          later.query = { found.query with word := s.name } ∧
          later.selected = some i ∧ later.candidates[i]? = some s ∧
          press? src done (.plain .tab) = some again ∧
          press? src ⟨b, b.clamp cursor, .snippets found⟩ (.plain .enter) = some once ∧
          again.buffer = once.buffer ∧ again.caret = once.caret := by
  obtain ⟨-, hkind, hcandidates⟩ := hanswers
  rw [← detectAt?_clamp] at hquery
  obtain ⟨pre, post, hstands⟩ := stands_of_detectAt? (Buffer.clamp_clamp b cursor) hquery
  have hnow := hstands.detectAt?_word hquery hkind hargument hword
  have htab := press?_name (d := ⟨b, b.clamp cursor, .snippets found⟩) src rfl hstands hchosen
    hscript hname
  refine ⟨_, htab, (hstands.replace_range _).symm, ?_, ?_⟩
  · rw [hstands.start, Position.advance_append]
  · rw [hstands.before_start]
    split
    · rename_i himport
      rw [hnow, if_pos himport]
      rfl
    · rename_i himport
      rw [if_neg himport] at hnow
      have hs : s ∈ src.snippets := by
        have hm : s ∈ Completion.matchingSnippets src found.query.word := by
          rw [← hcandidates]
          exact List.mem_of_getElem? hchosen
        exact (Completion.mem_matchingSnippets_iff.mp hm).1
      obtain ⟨i, hpopup, hi⟩ := Completion.exists_highlighted_name
        (q := { found.query with word := s.name }) (.snippets found) hnames hs hkind rfl
      -- The completed query stands between the same texts as the original one.
      obtain ⟨before, hbefore, hbehind⟩ := stands_of_detectAt?_advance rfl hnow
      have htext : Query.text { found.query with word := s.name } = s.name ++ ['@'] :=
        text_of_argument_eq_none hkind hargument
      obtain rfl : pre = before := by
        rw [htext] at hbefore
        exact List.append_cancel_right hbefore
      obtain ⟨again, once, hagain, honce, hbuffer, hcaret⟩ := press?_tab_eq_enter src
        ⟨_, _, some i⟩ hstands hbehind hchosen (Suggestions.chosen?_of_selected rfl hi) hscript rfl
      rw [hnow, hpopup]
      exact ⟨_, i, again, once, rfl, rfl, rfl, hi, hagain, honce, hbuffer, hcaret⟩

/-- The second of two snippets is completed behind a wide character. -/
theorem fraction_name_reopens :
    let sums : Snippet := { Snippet.standard with name := "sfrac".toList }
    let frac : Snippet :=
      { Snippet.standard with name := "frac".toList, content := "(#CURSOR)/()".toList }
    let src : Sources := ⟨[sums, frac], .empty, fun _ _ => .ok [], true⟩
    let b : Buffer := ⟨"𝔸 + fr@".toList⟩
    let found : Suggestions Snippet :=
      ⟨⟨.snippet, "fr".toList, none, ⟨0, 5⟩⟩, [sums, frac], some 1⟩
    detectAt? b ⟨0, 8⟩ = some found.query ∧ found.chosen? = some frac ∧
      ∃ done later i again once,
        press? src ⟨b, b.clamp ⟨0, 8⟩, .snippets found⟩ (.plain .tab) = some done ∧
        done.buffer = ⟨"𝔸 + frac@".toList⟩ ∧ done.popup = .snippets later ∧
        later.query = ⟨.snippet, "frac".toList, none, ⟨0, 5⟩⟩ ∧
        later.selected = some i ∧ later.candidates[i]? = some frac ∧
        press? src done (.plain .tab) = some again ∧
        press? src ⟨b, b.clamp ⟨0, 8⟩, .snippets found⟩ (.plain .enter) = some once ∧
        again.buffer = once.buffer ∧ again.caret = once.caret := by
  intro sums frac src b found
  have hquery : detectAt? b ⟨0, 8⟩ = some found.query := by decide +kernel
  have hchosen : found.chosen? = some frac := by decide +kernel
  obtain ⟨done, htab, hbuffer, -, hrest⟩ :=
    completed_name_reopens src b ⟨0, 8⟩ found frac (by decide) hquery
      ⟨rfl, rfl, by decide +kernel⟩ rfl hchosen rfl (by decide)
      ⟨by decide, List.all_eq_true.mp (by decide)⟩
  rw [if_neg (by decide +kernel)] at hrest
  obtain ⟨later, i, again, once, hpopup, hlater, hselected, hi, hagain, honce, hsame, hcaret⟩ :=
    hrest
  exact ⟨hquery, hchosen, done, later, i, again, once, htab, hbuffer.trans (by decide +kernel),
    hpopup, hlater, hselected, hi, hagain, honce, hsame, hcaret⟩

/-- A completed name makes the line begin like an import, and the popup closes; a name with a
hyphen is asked for only from behind the hyphen. -/
theorem completed_name_lost :
    let important : Snippet := { Snippet.standard with name := "important".toList }
    let dashed : Snippet := { Snippet.standard with name := "my-frac".toList }
    let src : Sources := ⟨[important, dashed], .empty, fun _ _ => .ok [], true⟩
    let asked (word : Text) (column : Nat) (s : Snippet) : Suggestions Snippet :=
      ⟨⟨.snippet, word, none, ⟨0, column⟩⟩, [s], none⟩
    (src.snippets.map (·.name)).Nodup ∧
      detectAt? ⟨"#im@".toList⟩ ⟨0, 4⟩ = some (asked "im".toList 1 important).query ∧
      press? src ⟨⟨"#im@".toList⟩, ⟨0, 4⟩, .snippets (asked "im".toList 1 important)⟩
        (.plain .tab) = some ⟨⟨"#important@".toList⟩, ⟨0, 11⟩, .idle⟩ ∧
      detectAt? ⟨"my@".toList⟩ ⟨0, 3⟩ = some (asked "my".toList 0 dashed).query ∧
      press? src ⟨⟨"my@".toList⟩, ⟨0, 3⟩, .snippets (asked "my".toList 0 dashed)⟩
        (.plain .tab) =
          some ⟨⟨"my-frac@".toList⟩, ⟨0, 8⟩, .snippets (asked "frac".toList 3 dashed)⟩ := by
  decide +kernel

end Draft

end MathTyping
