import MathTyping.Proofs.Popup.Draft
import MathTyping.Proofs.Query.Redetected
import MathTyping.Proofs.Symbol.Table

/-!
# Taking a symbol

A symbol is taken with two keys.  Tab writes its name in place of the query, and the name is
asked for in turn; Enter writes the symbol itself.

After Tab the list starts with the symbol that was taken, but the highlight is kept as a
place in the list: `completed_symbol_chosen_iff` says when the symbol stays the chosen one.
Enter closes the popup, but then the line is read again.  A space behind the symbol keeps it
closed; a symbol that usually goes before an argument is written without one, and
`applied_symbol_closes_iff` says when it is taken for another query.
-/

namespace MathTyping

open Position (origin)
open Query

namespace Suggestions

variable {α : Type} {first : α} {rest : List α} {selected : Option Nat} {q : Query}

/-- The chosen one of a list that starts with the wanted candidate is the wanted one exactly if no
other is at the highlighted place. -/
theorem chosen?_surviving_iff {β : Type} (f : α → β) :
    ((Suggestions.mk q (first :: rest) (surviving (first :: rest) selected)).chosen?.map f =
        some (f first)) ↔
      ∀ i c, selected = some i → (first :: rest)[i]? = some c → f c = f first := by
  cases selected with
  | none => exact iff_of_true rfl fun i c h => by contradiction
  | some i =>
      by_cases hi : i < (first :: rest).length
      · have hsome : (first :: rest)[i]? = some (first :: rest)[i] := List.getElem?_eq_getElem hi
        have hmin : min i ((first :: rest).length - 1) = i := by omega
        have hchosen : (Suggestions.mk q (first :: rest)
            (surviving (first :: rest) (some i))).chosen? = some (first :: rest)[i] := by
          rw [chosen?, surviving, Option.filter_some, if_pos (by simpa using hi)]
          dsimp only [Option.getD_some]
          rw [hmin, hsome]
        rw [hchosen, Option.map_some, Option.some.injEq]
        constructor
        · rintro h j c hj hc
          obtain rfl := Option.some.inj hj
          rwa [← Option.some.inj (hsome.symm.trans hc)]
        · exact fun h => h i _ rfl hsome
      · have hnone : (first :: rest)[i]? = none := List.getElem?_eq_none (Nat.le_of_not_lt hi)
        refine iff_of_true ?_ fun j c hj hc => ?_
        · rw [chosen?, surviving, Option.filter_some, if_neg (by simpa using hi)]
          simp
        · obtain rfl := Option.some.inj hj
          rw [hnone] at hc
          contradiction

end Suggestions

theorem isRun_isNameChar_iff {w : Text} :
    isRun isNameChar w ↔
      2 ≤ w.length ∧ ∀ c ∈ w, ('a' ≤ c ∧ c ≤ 'z') ∨ ('A' ≤ c ∧ c ≤ 'Z') ∨ c = '.' := by
  simp only [isRun_iff, isNameChar_iff]

theorem SymbolIndex.Nameable.isRun_name {symbols : List SymbolRecord} (h : Nameable symbols)
    {s : SymbolRecord} (hs : s ∈ symbols) : isRun isNameChar s.name :=
  isRun_isNameChar_iff.mpr (h.letters s hs)

namespace Draft

variable {src : Sources} {d : Draft} {found : Suggestions SymbolMatch} {pre post : Text}
  {m : SymbolMatch}

/-! ### The two keys -/

/-- Enter writes the chosen symbol in place of the query. -/
theorem press?_apply (src : Sources) (hpopup : d.popup = .symbols found)
    (hstands : found.query.Stands d.buffer d.caret pre post) (hchosen : found.chosen? = some m) :
    d.press? src (.plain .enter) =
      some ⟨⟨pre ++ m.symbol.inserted src.unicode ++ post⟩,
        origin.advance (pre ++ m.symbol.inserted src.unicode),
        Completion.idle.update src (detectAt? ⟨pre ++ m.symbol.inserted src.unicode ++ post⟩
          (origin.advance (pre ++ m.symbol.inserted src.unicode)))⟩ := by
  have hrange : (⟨found.query.start, d.caret⟩ : Range) = found.query.range := by
    rw [Query.range, Range.onLine, hstands.cursor]
  have hanswer : d.popup.onKey src (.plain .enter) d.caret =
      (.idle, .splice (.replacing ⟨found.query.range, m.symbol.inserted src.unicode⟩)) := by
    simp only [hpopup, Completion.onKey, Completion.symbolKey, Chord.plain, hchosen,
      SymbolRecord.apply, hrange]
  rw [press?_of_splice hanswer (hstands.apply_replacing _)]

/-- Tab writes the name of the chosen symbol in place of the query. -/
theorem press?_complete (src : Sources) (hpopup : d.popup = .symbols found)
    (hstands : found.query.Stands d.buffer d.caret pre post) (hchosen : found.chosen? = some m)
    (hname : m.symbol.name ≠ found.query.word) :
    d.press? src (.plain .tab) =
      some ⟨⟨pre ++ m.symbol.name ++ post⟩, origin.advance (pre ++ m.symbol.name),
        (Completion.symbols found).update src (detectAt? ⟨pre ++ m.symbol.name ++ post⟩
          (origin.advance (pre ++ m.symbol.name)))⟩ := by
  have hanswer : d.popup.onKey src (.plain .tab) d.caret =
      (.symbols found, .splice (.replacing ⟨found.query.range, m.symbol.name⟩)) := by
    simp only [hpopup, Completion.onKey, Completion.symbolKey, Chord.plain, hchosen,
      SymbolRecord.complete, if_neg hname]
  rw [press?_of_splice hanswer (hstands.apply_replacing _)]

/-! ### Completing a symbol -/

/-- The name of a symbol that was completed is asked for, from the same start, and the highlight
stays at its place in the list. -/
theorem press?_complete_letters {b : Buffer} {caret : Position}
    (hstands : found.query.Stands b caret pre post)
    (hquery : detectAt? b caret = some found.query) (hkind : found.query.kind = .symbol)
    (hchosen : found.chosen? = some m) (hname : m.symbol.name ≠ found.query.word)
    (hletters : isRun isNameChar m.symbol.name) (hfound : src.symbols.search m.symbol.name ≠ []) :
    press? src ⟨b, caret, .symbols found⟩ (.plain .tab) =
      some ⟨⟨pre ++ m.symbol.name ++ post⟩, origin.advance (pre ++ m.symbol.name),
        .symbols ⟨⟨.symbol, m.symbol.name, none, found.query.start⟩,
          src.symbols.search m.symbol.name,
          Suggestions.surviving (src.symbols.search m.symbol.name) found.selected⟩⟩ := by
  rw [press?_complete src rfl hstands hchosen hname,
    hstands.detectAt?_letters hquery hkind hletters, Completion.update_symbols rfl hfound]
  rfl

/-- **A symbol that was completed stays the chosen one exactly if the highlighted place of the
new list, if there is one, holds it**; then Enter writes it in place of the original query. -/
theorem completed_symbol_chosen_iff (src : Sources) (symbols : List SymbolRecord) (b : Buffer)
    (cursor : Position) (found : Suggestions SymbolMatch) (m : SymbolMatch)
    (hindex : src.symbols = .ofSymbols symbols) (hnames : SymbolIndex.Nameable symbols)
    (hquery : detectAt? b cursor = some found.query)
    (hanswers : (Completion.symbols found).Answers src found.query)
    (hchosen : found.chosen? = some m) (hname : m.symbol.name ≠ found.query.word) :
    ∃ done later, press? src ⟨b, b.clamp cursor, .symbols found⟩ (.plain .tab) = some done ∧
      done.buffer = b.replace found.query.range m.symbol.name ∧
      done.caret = found.query.start.advance m.symbol.name ∧
      done.popup = .symbols later ∧
      later.query = ⟨.symbol, m.symbol.name, none, found.query.start⟩ ∧
      later.candidates.head? = some ⟨.base, m.symbol.name, m.symbol⟩ ∧
      (later.chosen?.map (·.symbol) = some m.symbol ↔
        ∀ i n, found.selected = some i → (src.symbols.search m.symbol.name)[i]? = some n →
          n.symbol = m.symbol) ∧
      (later.chosen?.map (·.symbol) = some m.symbol →
        ∃ last, press? src done (.plain .enter) = some last ∧
          last.buffer = b.replace found.query.range (m.symbol.inserted src.unicode) ∧
          last.caret = found.query.start.advance (m.symbol.inserted src.unicode)) := by
  obtain ⟨-, hkind, hcandidates⟩ := hanswers
  rw [← detectAt?_clamp] at hquery
  obtain ⟨pre, post, hstands⟩ := stands_of_detectAt? (Buffer.clamp_clamp b cursor) hquery
  have hsymbol : m.symbol ∈ symbols := by
    have hm : m ∈ src.symbols.search found.query.word := by
      rw [← hcandidates]
      exact List.mem_of_getElem? hchosen
    rw [hindex] at hm
    exact SymbolIndex.mem_of_mem_search hm
  have hletters := hnames.isRun_name hsymbol
  obtain ⟨rest, hsearch⟩ := SymbolIndex.search_name hnames hsymbol
  rw [← hindex] at hsearch
  have htab := press?_complete_letters hstands hquery hkind hchosen hname hletters
    (by rw [hsearch]; exact List.cons_ne_nil _ _)
  refine ⟨_, _, htab, (hstands.replace_range _).symm, ?_, rfl, rfl, ?_, ?_, ?_⟩
  · rw [hstands.start, Position.advance_append]
  · rw [hsearch, List.head?_cons]
  · rw [hsearch]
    exact Suggestions.chosen?_surviving_iff SymbolMatch.symbol
  · intro hlater
    obtain ⟨n, hn, hsame⟩ := Option.map_eq_some_iff.mp hlater
    -- The name stands between the same texts as the original query.
    obtain ⟨before, hbefore, hbehind⟩ := stands_of_detectAt?_advance rfl
      (hstands.detectAt?_letters hquery hkind hletters)
    obtain rfl : pre = before := by
      rw [text, if_neg (by simp)] at hbefore
      simpa using hbefore
    refine ⟨_, press?_apply src rfl hbehind hn, ?_, ?_⟩
    · dsimp only
      rw [hsame, hstands.replace_range]
    · dsimp only
      rw [hsame, hstands.start, Position.advance_append]

/-- The second of two arrows is completed: its name matches one symbol only, so that the highlight
falls back to it. -/
theorem second_arrow_completed :
    let left : SymbolRecord := ⟨['←'], [], "arrow.l".toList, none, .relation, []⟩
    let right : SymbolRecord := ⟨['→'], [], "arrow.r".toList, some ['-', '>'], .relation, []⟩
    let src : Sources := ⟨[], .ofSymbols [left, right], fun _ _ => .ok [], true⟩
    let b : Buffer := ⟨"𝔸 arr".toList⟩
    let found : Suggestions SymbolMatch :=
      ⟨⟨.symbol, "arr".toList, none, ⟨0, 3⟩⟩, src.symbols.search "arr".toList, some 1⟩
    SymbolIndex.Nameable [left, right] ∧ detectAt? b ⟨0, 6⟩ = some found.query ∧
      found.chosen? = some ⟨.base, right.name, right⟩ ∧
      ∃ done later last, press? src ⟨b, b.clamp ⟨0, 6⟩, .symbols found⟩ (.plain .tab) = some done ∧
        done.popup = .symbols later ∧ later.chosen?.map (·.symbol) = some right ∧
        press? src done (.plain .enter) = some last ∧ last.buffer = ⟨"𝔸 → ".toList⟩ := by
  intro left right src b found
  have hletters : ∀ s ∈ [left, right], isRun isNameChar s.name := by decide
  have hnames : SymbolIndex.Nameable [left, right] :=
    ⟨by decide, fun s hs => isRun_isNameChar_iff.mp (hletters s hs), by decide⟩
  have hquery : detectAt? b ⟨0, 6⟩ = some found.query := by decide +kernel
  have hchosen : found.chosen? = some ⟨.base, right.name, right⟩ := by
    simp only [found, src, SymbolIndex.ofSymbols_eq]
    decide +kernel
  obtain ⟨done, later, htab, -, -, hpopup, -, -, hiff, henter⟩ :=
    completed_symbol_chosen_iff src [left, right] b ⟨0, 6⟩ found ⟨.base, right.name, right⟩ rfl
      hnames hquery ⟨rfl, rfl, rfl⟩ hchosen (by decide)
  have hlater := hiff.mpr fun i n hi hn => by
    obtain rfl := Option.some.inj hi
    have hnone : (src.symbols.search right.name)[1]? = none := by
      simp only [src, SymbolIndex.ofSymbols_eq]
      decide +kernel
    cases hnone.symm.trans hn
  obtain ⟨last, hlast, hbuffer, -⟩ := henter hlater
  exact ⟨hnames, hquery, hchosen, done, later, last, htab, hpopup, hlater, hlast,
    hbuffer.trans (by decide +kernel)⟩

/-- The highlight is kept as a place: behind the name of the left arrow the second place holds the
arrow to both sides, and this one is written. -/
theorem completed_symbol_displaced :
    let up : SymbolRecord := ⟨['↑'], [], "arrow".toList, none, .relation, []⟩
    let left : SymbolRecord := ⟨['←'], [], "arrow.l".toList, none, .relation, []⟩
    let both : SymbolRecord := ⟨['↔'], [], "arrow.l.r".toList, none, .relation, []⟩
    let src : Sources := ⟨[], .ofSymbols [up, left, both], fun _ _ => .ok [], true⟩
    let found : Suggestions SymbolMatch :=
      ⟨⟨.symbol, "arr".toList, none, ⟨0, 0⟩⟩, src.symbols.search "arr".toList, some 1⟩
    let later : Suggestions SymbolMatch :=
      ⟨⟨.symbol, left.name, none, ⟨0, 0⟩⟩, src.symbols.search left.name, some 1⟩
    SymbolIndex.Nameable [up, left, both] ∧ detectAt? ⟨"arr".toList⟩ ⟨0, 3⟩ = some found.query ∧
      found.chosen?.map (·.symbol) = some left ∧
      press? src ⟨⟨"arr".toList⟩, ⟨0, 3⟩, .symbols found⟩ (.plain .tab) =
        some ⟨⟨left.name⟩, ⟨0, 7⟩, .symbols later⟩ ∧
      later.chosen?.map (·.symbol) = some both ∧
      (press? src ⟨⟨left.name⟩, ⟨0, 7⟩, .symbols later⟩ (.plain .enter)).map (·.buffer) =
        some ⟨"↔ ".toList⟩ := by
  intro up left both src found later
  have hletters : ∀ s ∈ [up, left, both], isRun isNameChar s.name := by decide
  have hnames : SymbolIndex.Nameable [up, left, both] :=
    ⟨by decide, fun s hs => isRun_isNameChar_iff.mp (hletters s hs), by decide⟩
  refine ⟨hnames, ?_⟩
  simp only [later, found, src, SymbolIndex.ofSymbols_eq]
  decide +kernel

/-! ### Applying a symbol -/

/-- **Enter closes the popup exactly if the symbol is followed by a space or ends no query for
which something is found**; a symbol before an argument that is written in letters is such a
query itself. -/
theorem applied_symbol_closes_iff (src : Sources) (b : Buffer) (cursor : Position)
    (found : Suggestions SymbolMatch) (m : SymbolMatch)
    (hquery : detectAt? b cursor = some found.query) (hkind : found.query.kind = .symbol)
    (hchosen : found.chosen? = some m) :
    ∃ done, press? src ⟨b, b.clamp cursor, .symbols found⟩ (.plain .enter) = some done ∧
      done.buffer = b.replace found.query.range (m.symbol.inserted src.unicode) ∧
      done.caret = found.query.start.advance (m.symbol.inserted src.unicode) ∧
      (done.popup = .idle ↔ (m.symbol.mathClass.takesArgument → ∀ q,
        detect? ((b.line found.query.start.line).before found.query.start.column ++
          m.symbol.inserted src.unicode).lastLine done.caret = some q →
            ¬ Completion.Offers src q)) ∧
      (m.symbol.mathClass.takesArgument → isRun isNameChar (m.symbol.inserted src.unicode) →
        (done.popup = .idle ↔ src.symbols.search (m.symbol.inserted src.unicode) = [])) := by
  rw [← detectAt?_clamp] at hquery
  obtain ⟨pre, post, hstands⟩ := stands_of_detectAt? (Buffer.clamp_clamp b cursor) hquery
  refine ⟨_, press?_apply src rfl hstands hchosen, (hstands.replace_range _).symm, ?_, ?_, ?_⟩
  · rw [hstands.start, Position.advance_append]
  · dsimp only
    rw [Completion.update_eq_idle_iff, hstands.before_start, Text.lastLine_lastLine_append,
      detectAt?_advance rfl]
    refine ⟨fun hnone _ => hnone, fun hnone q hq => hnone ?_ q hq⟩
    by_contra hspace
    rw [SymbolRecord.inserted, if_neg hspace, ← List.append_assoc, Text.lastLine_append,
      detect?_space] at hq
    · contradiction
    · decide
  · intro _ hletters
    dsimp only
    rw [hstands.detectAt?_letters hquery hkind hletters, Completion.update_eq_idle_iff]
    simp [Completion.Offers]

/-- Behind an arrow stands a space, so the popup is closed. -/
theorem applied_arrow_closes :
    let right : SymbolRecord := ⟨['→'], [], "arrow.r".toList, some ['-', '>'], .relation, []⟩
    let src : Sources := ⟨[], .ofSymbols [right], fun _ _ => .ok [], true⟩
    let b : Buffer := ⟨"𝔸 ->".toList⟩
    let found : Suggestions SymbolMatch :=
      ⟨⟨.symbol, "->".toList, none, ⟨0, 3⟩⟩, src.symbols.search "->".toList, none⟩
    detectAt? b ⟨0, 5⟩ = some found.query ∧ found.chosen? = some ⟨.base, "->".toList, right⟩ ∧
      ∃ done, press? src ⟨b, b.clamp ⟨0, 5⟩, .symbols found⟩ (.plain .enter) = some done ∧
        done.buffer = ⟨"𝔸 → ".toList⟩ ∧ done.popup = .idle := by
  intro right src b found
  have hquery : detectAt? b ⟨0, 5⟩ = some found.query := by decide +kernel
  have hchosen : found.chosen? = some ⟨.base, "->".toList, right⟩ := by
    simp only [found, src, SymbolIndex.ofSymbols_eq]
    decide +kernel
  obtain ⟨done, hdone, hbuffer, -, hiff, -⟩ :=
    applied_symbol_closes_iff src b ⟨0, 5⟩ found ⟨.base, "->".toList, right⟩ hquery rfl hchosen
  exact ⟨hquery, hchosen, done, hdone, hbuffer.trans (by decide +kernel),
    hiff.mpr fun htakes => absurd htakes (by decide)⟩

/-- A limit is written in letters and without a space, and asked for again as soon as it is
written. -/
theorem applied_limit_reopens :
    let limit : SymbolRecord := ⟨"lim".toList, [], "lim".toList, none, .textOperator, []⟩
    let src : Sources := ⟨[], .ofSymbols [limit], fun _ _ => .ok [], true⟩
    let found (word : Text) : Suggestions SymbolMatch :=
      ⟨⟨.symbol, word, none, ⟨0, 4⟩⟩, [⟨.base, "lim".toList, limit⟩], none⟩
    detectAt? ⟨"x + li".toList⟩ ⟨0, 6⟩ = some (found "li".toList).query ∧
      Completion.idle.update src (some (found "li".toList).query) =
        .symbols (found "li".toList) ∧
      press? src ⟨⟨"x + li".toList⟩, ⟨0, 6⟩, .symbols (found "li".toList)⟩ (.plain .enter) =
        some ⟨⟨"x + lim".toList⟩, ⟨0, 7⟩, .symbols (found "lim".toList)⟩ := by
  decide +kernel

end Draft

end MathTyping
