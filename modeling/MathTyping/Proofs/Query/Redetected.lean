import MathTyping.Proofs.Buffer.CursorLine
import MathTyping.Proofs.Query.Calls

/-!
# Detecting again behind other text

After an edit the query is looked for again.  Detection only reads the line up to the
caret, so what it finds behind a beginning of the document is what it finds in the last line
of this beginning (`detectAt?_advance`).  A query that stands in the document was read from
the end of such a line, and nothing of the line before it could be read
(`Stands.firstTail`).

When the text at the end of the line is replaced, a reader that starts earlier may now
succeed.  `FirstTail.retyped` says what is to be checked: every longer end that can be read
now could be read before.
-/

namespace MathTyping

open Position (origin)

namespace Query

/-! ### Words -/

/-- What is read as a snippet query starts with a word. -/
theorem isWord_of_readSnippet? {t word : Text} {argument : Option Text}
    (h : readSnippet? t = some (word, argument)) : IsWord word := by
  have hword : word = t.takeWhile isWordChar ∧ t.takeWhile isWordChar ≠ [] := by
    by_cases hnil : t.takeWhile isWordChar = []
    · rw [readSnippet?, hnil] at h
      contradiction
    · rw [readSnippet?_of_ne_nil hnil] at h
      refine ⟨?_, hnil⟩
      split at h
      · exact (Prod.mk.inj (Option.some.inj h)).1.symm
      · obtain ⟨a, -, ha⟩ := Option.map_eq_some_iff.mp h
        exact (Prod.mk.inj ha).1.symm
  obtain ⟨rfl, hne⟩ := hword
  exact ⟨hne, List.all_eq_true.mp List.all_takeWhile⟩

/-- The last character of a word is a letter or a digit. -/
theorem IsWord.isWordChar_last {word x y : Text} {c : Char} (hword : IsWord word)
    (h : x ++ [c] = y ++ word) : isWordChar c := by
  obtain ⟨init, last, rfl⟩ := (List.eq_nil_or_concat word).resolve_left hword.1
  have hc : c = last := by simpa using congrArg List.getLast? h
  exact hword.2 c (by rw [hc]; simp)

theorem isWordChar_ne {c d : Char} (hc : isWordChar c) (hd : isWordChar d = false) : c ≠ d := by
  rintro rfl
  rw [hd] at hc
  contradiction

theorem charUnits_of_isWordChar {c : Char} (h : isWordChar c) : charUnits c = 1 := by
  rw [isWordChar, Bool.or_eq_true] at h
  rcases h with hletter | hdigit
  · exact charUnits_of_isNameChar (by rw [isNameChar, hletter, Bool.true_or])
  · rw [Bool.and_eq_true, decide_eq_true_eq, decide_eq_true_eq] at hdigit
    exact charUnits_of_lt (Nat.lt_of_le_of_lt (UInt32.le_iff_toNat_le.mp hdigit.2) (by decide))

/-! ### The first end -/

section

variable {α : Type} {boundary : Char → Bool} {read : Text → Option α}

/-- An end of a text that starts before another end goes on with it. -/
theorem exists_part {earlier later dropped tail : Text} (h : dropped ++ tail = earlier ++ later)
    (hlt : earlier.length < dropped.length) :
    ∃ part, part ≠ [] ∧ dropped = earlier ++ part ∧ later = part ++ tail := by
  rcases List.append_eq_append_iff.mp h with ⟨part, rfl, -⟩ | ⟨part, hdropped, hlater⟩
  · rw [List.length_append] at hlt
    omega
  · refine ⟨part, ?_, hdropped, hlater⟩
    rintro rfl
    rw [hdropped, List.append_nil] at hlt
    exact absurd hlt (Nat.lt_irrefl _)

/-- The first end that can be read stays the first one behind other text, if no longer end can
be read now that could not be read before. -/
theorem FirstTail.retyped {fresh : Bool} {dropped t new : Text}
    (h : FirstTail boundary read fresh (dropped ++ t) dropped t)
    (hread : ∀ part, part ≠ [] → read (part ++ t) = none → read (part ++ new) = none) :
    FirstTail boundary read fresh (dropped ++ new) dropped new := by
  refine ⟨rfl, h.start, fun earlier later htext hstart hlt => ?_⟩
  obtain ⟨part, hpart, rfl, rfl⟩ := exists_part htext hlt
  exact hread part hpart (h.first earlier (part ++ t) (List.append_assoc _ _ _) hstart hlt)

end

/-- A line that ends as a snippet query, and starts no import, asks for the snippet. -/
theorem detect?_of_firstTail_snippet {before dropped tail word : Text} {argument : Option Text}
    (cursor : Position) (himport : before.beginsWith "#import".toList = false)
    (hfirst : FirstTail beforeSnippet readSnippet? true before dropped tail)
    (hread : readSnippet? tail = some (word, argument)) :
    detect? before cursor =
      some ⟨.snippet, word, argument, ⟨cursor.line, dropped.units⟩⟩ := by
  obtain ⟨htail, -⟩ := readSnippet?_eq_some hread
  have hlast : before.getLast? = some '@' := by
    rw [hfirst.text, htail, ← List.append_assoc, List.getLast?_concat]
  rw [detect?, hlast]
  dsimp only
  rw [if_pos rfl, if_neg (by rw [himport]; exact Bool.false_ne_true),
    (scanTails_eq_some_iff rfl).mpr ⟨dropped, tail, hfirst, hread, rfl⟩, Option.map_some]

/-- A snippet query is the first end of its line that can be read as one. -/
theorem firstTail_of_detect?_snippet {before : Text} {cursor : Position} {q : Query}
    (h : detect? before cursor = some q) (hkind : q.kind = .snippet) :
    before.beginsWith "#import".toList = false ∧
      readSnippet? q.text = some (q.word, q.argument) ∧
      ∃ dropped, FirstTail beforeSnippet readSnippet? true before dropped q.text ∧
        q.start = ⟨cursor.line, dropped.units⟩ := by
  unfold detect? at h
  split at h
  · contradiction
  · split at h
    · split at h
      · contradiction
      · rename_i himport
        obtain ⟨⟨column, word, argument⟩, hscan, rfl⟩ := Option.map_eq_some_iff.mp h
        obtain ⟨dropped, tail, hfirst, hread, rfl⟩ := (scanTails_eq_some_iff rfl).mp hscan
        obtain ⟨htail, -⟩ := readSnippet?_eq_some hread
        have htext : tail = text ⟨.snippet, word, argument, ⟨cursor.line, dropped.units⟩⟩ := by
          rw [htail, text, if_pos rfl]
        rw [← htext]
        exact ⟨by simpa using himport, hread, dropped, hfirst, rfl⟩
    · split at h
      · contradiction
      · obtain ⟨found, -, rfl⟩ := Option.map_eq_some_iff.mp h
        contradiction

theorem detect?_space (t : Text) (cursor : Position) : detect? (t ++ [' ']) cursor = none := by
  rw [detect?, List.getLast?_concat]
  rfl

/-! ### Names of symbols -/

/-- Behind a character of a name or a backslash no symbol query starts. -/
theorem beforeSymbol_eq_false {c : Char} (h : isNameChar c ∨ c = '\\') :
    beforeSymbol c = false := by
  rcases h with hname | rfl
  · have hall : ∀ n : Fin 123, isNameChar (Char.ofNat n) → beforeSymbol (Char.ofNat n) = false := by
      decide +kernel
    have hlt : c.toNat < 123 := by
      simp only [isNameChar, isLetter, Bool.or_eq_true, Bool.and_eq_true, decide_eq_true_eq,
        beq_iff_eq] at hname
      rcases hname with (⟨-, hz⟩ | ⟨-, hZ⟩) | rfl
      · exact Nat.lt_succ_of_le (UInt32.le_iff_toNat_le.mp hz)
      · exact Nat.lt_of_le_of_lt (UInt32.le_iff_toNat_le.mp hZ) (by decide)
      · decide
    have hsame := hall ⟨c.toNat, hlt⟩
    rw [Char.ofNat_toNat] at hsame
    exact hsame hname
  · decide +kernel

/-- What can be read and ends with letters is made of letters, but for a backslash. -/
theorem isNameChar_of_readSymbol? {part name word : Text} (hname : isRun isNameChar name)
    (h : readSymbol? (part ++ name) = some word) : ∀ c ∈ part, isNameChar c ∨ c = '\\' := by
  obtain ⟨-, body, hbody, hsame⟩ := readSymbol?_eq_some_iff.mp h
  have hmem : ∀ c ∈ part ++ name, c ∈ body ∨ c = '\\' := by
    rcases hsame with hsame | hsame
    · exact fun c hc => Or.inl (hsame ▸ hc)
    · rw [hsame]
      exact fun c hc => (List.mem_cons.mp hc).symm
  obtain ⟨htwo, hletters⟩ := isRun_iff.mp hname
  have hbodyLetters : ∀ c ∈ body, isNameChar c := by
    rcases hbody.2 with hbody | hbody
    · exact fun c hc => (isNameChar_iff c).mpr (hbody c hc)
    · obtain ⟨c, hc⟩ := List.exists_mem_of_length_pos (Nat.lt_of_lt_of_le Nat.two_pos htwo)
      have hnone : "-<>|=[]~:".toList.all fun d => !isNameChar d && d != '\\' := by decide
      have hletter := hletters c hc
      rcases hmem c (List.mem_append_right _ hc) with hin | rfl
      · have hoperator := List.all_eq_true.mp hnone c (hbody c hin)
        rw [hletter] at hoperator
        contradiction
      · contradiction
  exact fun c hc => (hmem c (List.mem_append_left _ hc)).imp_left (hbodyLetters c)

/-- A name is read as a whole where a symbol query may start. -/
theorem firstTail_letters {dropped name : Text} (hstart : mayStart beforeSymbol true dropped)
    (hname : isRun isNameChar name) :
    FirstTail beforeSymbol readSymbol? true (dropped ++ name) dropped name := by
  refine ⟨rfl, hstart, fun earlier later htext _ hlt => ?_⟩
  obtain ⟨part, hpart, rfl, rfl⟩ := exists_part htext hlt
  rcases List.eq_nil_or_concat part with hnil | ⟨init, c, rfl⟩
  · exact absurd hnil hpart
  · rw [List.concat_eq_append, ← List.append_assoc, mayStart_concat] at hstart
    cases hread : readSymbol? (init.concat c ++ name) with
    | none => rfl
    | some word =>
        have hc := isNameChar_of_readSymbol? hname hread c (by simp)
        rw [beforeSymbol_eq_false hc] at hstart
        contradiction

theorem detect?_letters {dropped name : Text} (cursor : Position)
    (hstart : mayStart beforeSymbol true dropped) (hname : isRun isNameChar name) :
    detect? (dropped ++ name) cursor =
      some ⟨.symbol, name, none, ⟨cursor.line, dropped.units⟩⟩ := by
  obtain ⟨htwo, hletters⟩ := isRun_iff.mp hname
  have hne : name ≠ [] := List.ne_nil_of_length_pos (Nat.lt_of_lt_of_le Nat.two_pos htwo)
  have hlast : (dropped ++ name).getLast? = some (name.getLast hne) := by
    rw [List.getLast?_append, List.getLast?_eq_some_getLast hne, Option.some_or]
  have hletter := hletters _ (List.getLast_mem hne)
  have hread : readSymbol? name = some name :=
    readSymbol?_eq_some_iff.mpr ⟨rfl, name, (isName_iff name).mp (by rw [hname, Bool.true_or]),
      Or.inl rfl⟩
  rw [detect?_symbol cursor, (scanTails_eq_some_iff rfl).mpr ⟨dropped, name,
    firstTail_letters hstart hname, hread, rfl⟩, Option.map_some]
  · rw [hlast]
    intro hat
    rw [Option.some.inj hat] at hletter
    contradiction
  · rw [hlast]
    intro hspace
    rw [Option.some.inj hspace] at hletter
    contradiction

/-- A symbol query starts where one may start. -/
theorem mayStart_of_detect?_symbol {before : Text} {cursor : Position} {q : Query}
    (h : detect? before cursor = some q) (hkind : q.kind = .symbol) :
    ∃ dropped, before = dropped ++ q.text ∧ mayStart beforeSymbol true dropped := by
  unfold detect? at h
  split at h
  · contradiction
  · split at h
    · split at h
      · contradiction
      · obtain ⟨found, -, rfl⟩ := Option.map_eq_some_iff.mp h
        contradiction
    · split at h
      · contradiction
      · obtain ⟨⟨column, word⟩, hscan, rfl⟩ := Option.map_eq_some_iff.mp h
        obtain ⟨dropped, tail, hfirst, hread, -⟩ := (scanTails_eq_some_iff rfl).mp hscan
        obtain ⟨rfl, -⟩ := readSymbol?_eq_some_iff.mp hread
        refine ⟨dropped, ?_, hfirst.start⟩
        rw [hfirst.text, text, if_neg (by simp)]
        simp

/-! ### Detection in a document -/

variable {b : Buffer} {cursor : Position} {pre post : Text} {q : Query}

/-- Behind a beginning of the document its last line is read. -/
theorem detectAt?_advance (htext : b.text = pre ++ post) :
    detectAt? b (origin.advance pre) = detect? pre.lastLine (origin.advance pre) := by
  rw [detectAt?, Buffer.clamp_advance htext, ← Text.before, Buffer.before_advance htext]

/-- A query that is detected behind a beginning of the document is the end of it. -/
theorem stands_of_detectAt?_advance (htext : b.text = pre ++ post)
    (h : detectAt? b (origin.advance pre) = some q) :
    ∃ before, pre = before ++ q.text ∧ q.Stands b (origin.advance pre) before post := by
  obtain ⟨before, after, hstands⟩ := stands_of_detectAt? (Buffer.clamp_advance htext) h
  have hbytes : pre.bytes = (before ++ q.text).bytes := by
    rw [← Buffer.toByte_advance htext, hstands.cursor_eq, Buffer.toByte_advance hstands.text]
  have hpre : pre = before ++ q.text := by
    rw [← Text.takeBytes_bytes_append pre post, ← htext, hbytes, hstands.text,
      Text.takeBytes_bytes_append]
  have hsame : pre ++ post = pre ++ after := by
    rw [← htext, hstands.text, ← hpre]
  obtain rfl := List.append_cancel_left hsame
  exact ⟨before, hpre, hstands⟩

namespace Stands

/-- The line before the query. -/
theorem before_start (h : q.Stands b cursor pre post) :
    (b.line q.start.line).before q.start.column = pre.lastLine := by
  rw [h.start]
  exact Buffer.before_advance (by rw [h.text, List.append_assoc])

/-- A query that was detected is read from the line in which it stands. -/
theorem detect? (h : q.Stands b cursor pre post) (hquery : detectAt? b cursor = some q) :
    Query.detect? (pre.lastLine ++ q.text) cursor = some q := by
  rw [← Text.lastLine_append pre h.line, h.cursor_eq, ← detectAt?_advance h.text, ← h.cursor_eq,
    hquery]

/-- A snippet query that was detected is the first end of its line that can be read as one. -/
theorem firstTail (h : q.Stands b cursor pre post) (hquery : detectAt? b cursor = some q)
    (hkind : q.kind = .snippet) :
    (pre.lastLine ++ q.text).beginsWith "#import".toList = false ∧
      readSnippet? q.text = some (q.word, q.argument) ∧
      FirstTail beforeSnippet readSnippet? true (pre.lastLine ++ q.text) pre.lastLine q.text := by
  obtain ⟨himport, hread, dropped, hfirst, -⟩ :=
    firstTail_of_detect?_snippet (h.detect? hquery) hkind
  obtain rfl : pre.lastLine = dropped := List.append_cancel_right hfirst.text
  exact ⟨himport, hread, hfirst⟩

/-- A symbol query that was detected stands where one may start. -/
theorem mayStart (h : q.Stands b cursor pre post) (hquery : detectAt? b cursor = some q)
    (hkind : q.kind = .symbol) : Query.mayStart beforeSymbol true pre.lastLine := by
  obtain ⟨dropped, htext, hstart⟩ := mayStart_of_detect?_symbol (h.detect? hquery) hkind
  rwa [List.append_cancel_right htext]

/-- A name in place of a symbol query is a query from the same start. -/
theorem detectAt?_letters (h : q.Stands b cursor pre post) (hquery : detectAt? b cursor = some q)
    (hkind : q.kind = .symbol) {name : Text} (hname : isRun isNameChar name) :
    detectAt? ⟨pre ++ name ++ post⟩ (origin.advance (pre ++ name)) =
      some ⟨.symbol, name, none, q.start⟩ := by
  have hline : '\n' ∉ name := fun hmem => absurd ((isRun_iff.mp hname).2 _ hmem) (by decide)
  have hstart : q.start = ⟨(origin.advance (pre ++ name)).line, pre.lastLine.units⟩ := by
    rw [h.start, ← Position.column_advance, Position.advance_append,
      Position.advance_of_notMem _ hline]
    rfl
  rw [detectAt?_advance rfl, Text.lastLine_append pre hline,
    detect?_letters _ (h.mayStart hquery hkind) hname, hstart]

end Stands

end Query

end MathTyping
