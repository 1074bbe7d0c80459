import MathTyping.Proofs.Buffer.Places
import MathTyping.Query.Detect

/-!
# Where a query stands

A query is detected in the line before the caret, but it is used later, and only
its start, its word and its argument are kept.  `Query.text` puts these together
again, and `Query.Stands` says that the document has this text right before the
caret, from the start of the query on.

Detection only finds queries that stand in the document (`stands_of_detectAt?`).
A caret inside a surrogate pair is no exception: the text before it ends with the
pair, and no query ends like that.
-/

namespace MathTyping

namespace Query

/-- The text that a query was read from. -/
def text (q : Query) : Text :=
  q.word ++ q.argument.getD [] ++ (if q.kind = .snippet then ['@'] else [])

@[simp] theorem units_text (q : Query) : q.text.units = q.length := by
  have hmark : Text.units (if q.kind = .snippet then ['@'] else []) =
      if q.kind = .snippet then 1 else 0 := by
    split <;> rfl
  have hargument : Text.units (q.argument.getD []) = q.argumentUnits := by
    cases hargument : q.argument with
    | none => rw [argumentUnits, hargument]; rfl
    | some a => rw [argumentUnits, hargument]; rfl
  rw [text, Text.units_append, Text.units_append, hargument, hmark, length]

theorem text_of_argument_eq_none {q : Query} (hkind : q.kind = .snippet)
    (hargument : q.argument = none) : q.text = q.word ++ ['@'] := by
  rw [text, hargument, if_pos hkind, Option.getD_none, List.append_nil]

/-! ### Reading -/

/-- What a scan finds is read from a tail of the text, with the units before it. -/
theorem scanTails_eq_some {α : Type} {boundary : Char → Bool} {read : Text → Option α}
    {column stop : Nat} {fresh : Bool} {t : Text} {found : α}
    (h : scanTails boundary read column fresh t = some (stop, found)) :
    ∃ dropped tail, t = dropped ++ tail ∧ stop = column + dropped.units ∧
      read tail = some found := by
  induction t generalizing column fresh with
  | nil => contradiction
  | cons c t ih =>
      rw [scanTails] at h
      split at h
      · rename_i hread
        obtain ⟨rfl, rfl⟩ := Prod.mk.inj (Option.some.inj h)
        refine ⟨[], c :: t, rfl, rfl, ?_⟩
        cases fresh with
        | true => exact hread
        | false => contradiction
      · obtain ⟨dropped, tail, rfl, rfl, hread⟩ := ih h
        exact ⟨c :: dropped, tail, rfl, Nat.add_assoc _ _ _, hread⟩

/-- An argument is read from its parentheses and the at sign behind them. -/
theorem readArgument?_eq_some {t a : Text} (h : readArgument? t = some a) :
    t = a ++ ['@'] ∧ ∃ inner, a = '(' :: (inner ++ [')']) := by
  unfold readArgument? at h
  split at h
  · rename_i rest
    split at h
    · rename_i inner hreverse
      split at h
      · contradiction
      · obtain rfl := Option.some.inj h
        have hrest : rest = inner.reverse ++ [')', '@'] := by
          rw [← List.reverse_reverse rest, hreverse]
          simp
        exact ⟨by simp [hrest], inner.reverse, rfl⟩
    · contradiction
  · contradiction

/-- A snippet query is read from its word, its argument and the at sign. -/
theorem readSnippet?_eq_some {t word : Text} {argument : Option Text}
    (h : readSnippet? t = some (word, argument)) :
    t = word ++ argument.getD [] ++ ['@'] ∧
      ∀ a, argument = some a → ∃ inner, a = '(' :: (inner ++ [')']) := by
  have hsplit : t.takeWhile isWordChar ++ t.dropWhile isWordChar = t :=
    List.takeWhile_append_dropWhile
  unfold readSnippet? at h
  dsimp only at h
  split at h
  · contradiction
  · split at h
    · rename_i hrest
      obtain ⟨rfl, rfl⟩ := Prod.mk.inj (Option.some.inj h)
      rw [hrest] at hsplit
      exact ⟨by rw [Option.getD_none, List.append_nil, hsplit], fun a ha => by contradiction⟩
    · obtain ⟨a, hread, hpair⟩ := Option.map_eq_some_iff.mp h
      obtain ⟨rfl, rfl⟩ := Prod.mk.inj hpair
      obtain ⟨hrest, hinner⟩ := readArgument?_eq_some hread
      rw [hrest] at hsplit
      refine ⟨by rw [Option.getD_some, List.append_assoc, hsplit], fun b hb => ?_⟩
      rw [← Option.some.inj hb]
      exact hinner

/-! ### The last character -/

theorem charUnits_of_lt {c : Char} (h : c.toNat < 0x10000) : charUnits c = 1 := if_pos h

theorem charUnits_of_isNameChar {c : Char} (h : isNameChar c) : charUnits c = 1 := by
  apply charUnits_of_lt
  simp only [isNameChar, isLetter, Bool.or_eq_true, Bool.and_eq_true, decide_eq_true_eq,
    beq_iff_eq] at h
  rcases h with (⟨-, hz⟩ | ⟨-, hZ⟩) | rfl
  · exact Nat.lt_of_le_of_lt (UInt32.le_iff_toNat_le.mp hz) (by decide)
  · exact Nat.lt_of_le_of_lt (UInt32.le_iff_toNat_le.mp hZ) (by decide)
  · decide

theorem charUnits_of_isOperatorChar {c : Char} (h : isOperatorChar c) : charUnits c = 1 := by
  have hall : "-<>|=[]~:".toList.all (charUnits · == 1) := by decide
  exact beq_iff_eq.mp (List.all_eq_true.mp hall c (List.contains_iff_mem.mp h))

/-- A text ends with a character of one unit. -/
def EndsNarrow (t : Text) : Prop := ∃ c, t.getLast? = some c ∧ charUnits c = 1

theorem endsNarrow_of_isRun {allowed : Char → Bool} {t : Text}
    (hnarrow : ∀ c, allowed c → charUnits c = 1) (h : isRun allowed t) : EndsNarrow t := by
  rw [isRun, Bool.and_eq_true, decide_eq_true_eq, List.all_eq_true] at h
  have hne : t ≠ [] := by
    rintro rfl
    exact absurd h.1 (by decide)
  exact ⟨t.getLast hne, List.getLast?_eq_some_getLast hne, hnarrow _ (h.2 _ (List.getLast_mem hne))⟩

theorem EndsNarrow.append {t : Text} (h : EndsNarrow t) (s : Text) : EndsNarrow (s ++ t) := by
  obtain ⟨c, hlast, hunits⟩ := h
  exact ⟨c, by rw [List.getLast?_append, hlast]; rfl, hunits⟩

/-- A symbol query is read from its word, and its last character has one unit. -/
theorem readSymbol?_eq_some {t word : Text} (h : readSymbol? t = some word) :
    t = word ∧ EndsNarrow t := by
  have hrun : ∀ body : Text, (isRun isNameChar body || isRun isOperatorChar body) = true →
      EndsNarrow body := by
    intro body hbody
    rcases Bool.or_eq_true_iff.mp hbody with hname | hoperator
    · exact endsNarrow_of_isRun (fun c => charUnits_of_isNameChar) hname
    · exact endsNarrow_of_isRun (fun c => charUnits_of_isOperatorChar) hoperator
  unfold readSymbol? at h
  dsimp only at h
  split at h
  · rename_i rest
    split at h
    · rename_i hrest
      exact ⟨Option.some.inj h, (hrun rest hrest).append ['\\']⟩
    · contradiction
  · split at h
    · rename_i hbody
      exact ⟨Option.some.inj h, hrun t hbody⟩
    · contradiction

/-! ### Detection -/

/-- The argument of a query, if it has one, is in parentheses. -/
def Parenthesized (q : Query) : Prop :=
  ∀ a, q.argument = some a → ∃ inner, a = '(' :: (inner ++ [')'])

/-- A query stands in a document right before the caret, between two parts of the text. -/
structure Stands (q : Query) (b : Buffer) (cursor : Position) (pre post : Text) : Prop where
  text : b.text = pre ++ q.text ++ post
  start : q.start = Position.origin.advance pre
  cursor : cursor = q.start.right q.length
  line : '\n' ∉ q.text
  parenthesized : q.Parenthesized

/-- The caret is right behind the text of the query. -/
theorem Stands.cursor_eq {q : Query} {b : Buffer} {cursor : Position} {pre post : Text}
    (h : q.Stands b cursor pre post) : cursor = Position.origin.advance (pre ++ q.text) := by
  rw [h.cursor, Position.advance_append, Position.advance_of_notMem _ h.line, units_text, h.start]

/-- The parts around a query are the texts before its start and after the caret. -/
theorem Stands.cuts {q : Query} {b : Buffer} {cursor : Position} {pre post : Text}
    (h : q.Stands b cursor pre post) :
    Text.takeBytes (b.toByte q.start) b.text = pre ∧
      Text.dropBytes (b.toByte cursor) b.text = post := by
  have htext : b.text = pre ++ (q.text ++ post) := by rw [h.text, List.append_assoc]
  refine ⟨?_, ?_⟩
  · rw [h.start, Buffer.toByte_advance htext, htext, Text.takeBytes_bytes_append]
  · rw [h.cursor_eq, Buffer.toByte_advance h.text, h.text, Text.dropBytes_bytes_append]

/-- The range of a query covers its text. -/
theorem Stands.slice_range {q : Query} {b : Buffer} {cursor : Position} {pre post : Text}
    (h : q.Stands b cursor pre post) : b.slice q.range = q.text := by
  have hrange : q.range =
      ⟨Position.origin.advance pre, Position.origin.advance (pre ++ q.text)⟩ := by
    rw [range, Range.onLine, ← h.cursor, h.cursor_eq, h.start]
  rw [hrange]
  exact Buffer.slice_of_cuts h.text (Buffer.byteRange_advance h.text)

/-- A detected query is the end of the text before the cursor. -/
theorem detect?_eq_some {before : Text} {cursor : Position} {q : Query}
    (h : detect? before cursor = some q) :
    EndsNarrow before ∧ q.Parenthesized ∧
      ∃ dropped, before = dropped ++ q.text ∧ q.start = ⟨cursor.line, dropped.units⟩ := by
  unfold detect? at h
  split at h
  · contradiction
  · rename_i last hlast
    split at h
    · rename_i hat
      split at h
      · contradiction
      · obtain ⟨⟨column, word, argument⟩, hscan, rfl⟩ := Option.map_eq_some_iff.mp h
        obtain ⟨dropped, tail, hbefore, rfl, hread⟩ := scanTails_eq_some hscan
        obtain ⟨htail, hargument⟩ := readSnippet?_eq_some hread
        refine ⟨⟨last, hlast, by rw [hat]; rfl⟩, hargument, dropped, ?_, by rw [Nat.zero_add]⟩
        rw [hbefore, htail, text, if_pos rfl]
    · split at h
      · contradiction
      · obtain ⟨⟨column, word⟩, hscan, rfl⟩ := Option.map_eq_some_iff.mp h
        obtain ⟨dropped, tail, hbefore, rfl, hread⟩ := scanTails_eq_some hscan
        obtain ⟨rfl, hnarrow⟩ := readSymbol?_eq_some hread
        refine ⟨?_, fun a ha => by contradiction, dropped, ?_, by rw [Nat.zero_add]⟩
        · rw [hbefore]
          exact hnarrow.append dropped
        · rw [hbefore, text, if_neg (by simp)]
          simp

/-- **A query that is detected at a caret stands right before it.** -/
theorem stands_of_detectAt? {b : Buffer} {cursor : Position} {q : Query}
    (hcursor : b.clamp cursor = cursor) (h : detectAt? b cursor = some q) :
    ∃ pre post, q.Stands b cursor pre post := by
  obtain ⟨-, hcolumn⟩ := Buffer.clamp_eq_self_iff.mp hcursor
  obtain ⟨hline, head, tail, htext, hhead⟩ := Buffer.exists_of_clamp_eq_self hcursor
  rw [detectAt?, hcursor, ← Text.before] at h
  obtain ⟨⟨narrow, hnarrow, hone⟩, hparenthesized, dropped, hbefore, hstart⟩ := detect?_eq_some h
  -- The caret is behind a whole character: a wide last character belongs to no query.
  have hunits : ((b.line cursor.line).before cursor.column).units = cursor.column := by
    rcases Text.units_before hcolumn with hunits | ⟨-, wide, hwide, htwo⟩
    · exact hunits
    · rw [Option.some.inj (hnarrow.symm.trans hwide)] at hone
      omega
  rw [hbefore] at hline htext hunits
  have hdropped : '\n' ∉ dropped := fun hmem => hline (List.mem_append_left _ hmem)
  refine ⟨head ++ dropped, tail, ⟨?_, ?_, ?_, ?_, hparenthesized⟩⟩
  · rw [htext]
    simp only [List.append_assoc]
  · rw [Position.advance_append, hhead, Position.advance_of_notMem _ hdropped, hstart,
      Position.right, Nat.zero_add]
  · rw [Text.units_append, units_text] at hunits
    rw [hstart, Position.right, hunits]
  · exact fun hmem => hline (List.mem_append_right _ hmem)

theorem detectAt?_clamp (b : Buffer) (cursor : Position) :
    detectAt? b (b.clamp cursor) = detectAt? b cursor := by
  rw [detectAt?, detectAt?, Buffer.clamp_clamp]

/-- **A detected query is exactly the text before the cursor.** -/
theorem detected_query_ends_at_cursor (b : Buffer) (cursor : Position) (q : Query)
    (h : detectAt? b cursor = some q) :
    q.range.stop = b.clamp cursor ∧ q.start.line = (b.clamp cursor).line ∧
      q.start ≤ b.clamp cursor ∧
      b.slice q.range = q.word ++ q.argument.getD [] ++ (match q.kind with
        | .snippet => ['@']
        | .symbol => []) ∧
      ∀ a, q.argument = some a → a.head? = some '(' ∧ a.getLast? = some ')' := by
  rw [← detectAt?_clamp] at h
  obtain ⟨pre, post, hstands⟩ := stands_of_detectAt? (Buffer.clamp_clamp b cursor) h
  refine ⟨hstands.cursor.symm, ?_, ?_, ?_, ?_⟩
  · rw [hstands.cursor]
    rfl
  · rw [hstands.cursor]
    exact Position.le_right _ _
  · rw [hstands.slice_range, text]
    cases q.kind <;> rfl
  · intro a ha
    obtain ⟨inner, rfl⟩ := hstands.parenthesized a ha
    exact ⟨rfl, by rw [← List.cons_append, List.getLast?_concat]⟩

/-- A cursor far behind the end of a line, and a call with wide characters before it. -/
theorem call_at_end_of_line :
    let b : Buffer := ⟨"intro\n$𝔸 mat(2,𝔹)@".toList⟩
    let q : Query := ⟨.snippet, "mat".toList, some "(2,𝔹)".toList, ⟨1, 4⟩⟩
    detectAt? b ⟨1, 99⟩ = some q ∧ q.range = ⟨⟨1, 4⟩, ⟨1, 14⟩⟩ ∧ b.clamp ⟨1, 99⟩ = ⟨1, 14⟩ ∧
      b.slice q.range = "mat(2,𝔹)@".toList := by
  intro b q
  have hdetect : detectAt? b ⟨1, 99⟩ = some q := by decide +kernel
  obtain ⟨hstop, -, -, hslice, -⟩ := detected_query_ends_at_cursor b ⟨1, 99⟩ q hdetect
  have hclamp : b.clamp ⟨1, 99⟩ = ⟨1, 14⟩ := by decide +kernel
  exact ⟨hdetect, by rw [← hclamp, ← hstop]; rfl, hclamp, by rw [hslice]; decide +kernel⟩

end Query

end MathTyping
