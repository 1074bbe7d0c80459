import MathTyping.Proofs.Popup.Replies
import MathTyping.Proofs.Query.Editing

/-!
# The edits of the popup

The popup computes its edits from the caret and from the query, by counting code
units to the left or by taking the range of the query.  None of them reads the
document.

As long as the query stands in the document right before the caret, the counts are
places in its text, and each splice makes a known text of the document: a candidate
is written in place of the whole query (`Stands.apply_range`), a character before an
end of it (`Stands.apply_insert`), and some units before such an end are erased
(`Stands.apply_delete`).  The text around the query stays as it was, and the caret
never goes further than the new text reaches (`Splice.StaysBetween`).
-/

namespace MathTyping

open Position (origin)

/-! ### What a splice makes of a query -/

namespace Query

namespace Stands

variable {q : Query} {b : Buffer} {cursor : Position} {pre front gone back post : Text}
  {length : Nat}

/-- To the left of the caret stand the units of the query. -/
theorem left_eq (h : q.Stands b cursor pre post) (hle : length ≤ q.text.units) :
    cursor.left length = (origin.advance pre).right (q.text.units - length) := by
  rw [units_text] at hle ⊢
  rw [h.cursor, h.start, Position.left_right _ hle]

/-- The units of a middle lead back to where the caret would be without it. -/
theorem left_erased (h : q.Stands b cursor pre post) (hsplit : q.text = front ++ (gone ++ back)) :
    cursor.left gone.units = origin.advance (pre ++ (front ++ back)) := by
  have hline : '\n' ∉ front ++ back := fun hmem => h.line (by
    rw [hsplit]
    simp only [List.mem_append] at hmem ⊢
    tauto)
  have hunits : q.text.units = (front ++ back).units + gone.units := by
    rw [hsplit]
    simp only [Text.units_append]
    omega
  rw [h.left_eq (by omega), hunits, Nat.add_sub_cancel, Position.advance_append,
    Position.advance_of_notMem _ hline]

/-- The units of a text on the line lead to where the caret would be with it. -/
theorem right_written (h : q.Stands b cursor pre post) (hsplit : q.text = front ++ back)
    {text : Text} (htext : '\n' ∉ text) :
    cursor.right text.units = origin.advance (pre ++ (front ++ text ++ back)) := by
  have hline : '\n' ∉ front ++ text ++ back := fun hmem => h.line (by
    rw [hsplit]
    simp only [List.mem_append] at hmem ⊢
    tauto)
  have hunits : (front ++ text ++ back).units = q.text.units + text.units := by
    rw [hsplit]
    simp only [Text.units_append]
    omega
  rw [h.cursor, h.start, Position.right_right, Position.advance_append,
    Position.advance_of_notMem _ hline, hunits, units_text]

theorem range_eq (h : q.Stands b cursor pre post) :
    q.range = ⟨(origin.advance pre).right 0, (origin.advance pre).right q.text.units⟩ := by
  rw [range, Range.onLine, h.start, units_text, Position.right_zero]

theorem replace_range (h : q.Stands b cursor pre post) (text : Text) :
    b.replace q.range text = ⟨pre ++ text ++ post⟩ := by
  rw [h.range_eq, Buffer.replace_right h.text h.line (Nat.zero_le _), Text.before_zero,
    List.nil_append]

/-- The whole query is replaced, and the caret put anywhere. -/
theorem apply_range (h : q.Stands b cursor pre post) (text : Text) (caret : Position) :
    Splice.apply ⟨some ⟨q.range, text⟩, caret⟩ b =
      (⟨pre ++ text ++ post⟩, Buffer.clamp ⟨pre ++ text ++ post⟩ caret) := by
  rw [Splice.apply, Splice.edited]
  dsimp only
  rw [Edit.apply, h.replace_range]

/-- The whole query is replaced, and the caret put behind the new text. -/
theorem apply_replacing (h : q.Stands b cursor pre post) (text : Text) :
    (Splice.replacing ⟨q.range, text⟩).apply b =
      (⟨pre ++ text ++ post⟩, origin.advance (pre ++ text)) := by
  have hstop : Edit.stop ⟨q.range, text⟩ = origin.advance (pre ++ text) := by
    rw [Edit.stop, range, Range.onLine, h.start, Position.advance_append]
  rw [Splice.replacing, hstop, h.apply_range, Buffer.clamp_advance rfl]

/-- The units of a front of the query are replaced from a column on. -/
theorem replace_front (h : q.Stands b cursor pre post) (hsplit : q.text = front ++ back)
    {column : Nat} (hcolumn : column ≤ front.units) (text : Text) :
    b.replace ⟨(origin.advance pre).right column, (origin.advance pre).right front.units⟩ text =
      ⟨pre ++ (front.before column ++ text ++ back) ++ post⟩ := by
  have hfront : b.text = pre ++ front ++ (back ++ post) := by
    rw [h.text, hsplit]
    simp only [List.append_assoc]
  have hline : '\n' ∉ front := fun hmem => h.line (hsplit ▸ List.mem_append_left _ hmem)
  rw [Buffer.replace_right hfront hline hcolumn]
  simp only [List.append_assoc]

/-- A text is written before an end of the query. -/
theorem apply_insert (h : q.Stands b cursor pre post) (hsplit : q.text = front ++ back)
    (text : Text) (caret : Position) :
    Splice.apply ⟨some (.insert (cursor.left back.units) text), caret⟩ b =
      (⟨pre ++ (front ++ text ++ back) ++ post⟩,
        Buffer.clamp ⟨pre ++ (front ++ text ++ back) ++ post⟩ caret) := by
  have hunits : q.text.units = front.units + back.units := by rw [hsplit, Text.units_append]
  have hplace : cursor.left back.units = (origin.advance pre).right front.units := by
    rw [h.left_eq (by omega), hunits, Nat.add_sub_cancel]
  have hedited : (Edit.insert (cursor.left back.units) text).apply b =
      ⟨pre ++ (front ++ text ++ back) ++ post⟩ := by
    rw [hplace, Edit.apply, Edit.insert, h.replace_front hsplit (Nat.le_refl _),
      Text.before_units]
  rw [Splice.apply, Splice.edited]
  dsimp only
  rw [hedited]

/-- Some units before an end of the query are erased.  Half of a surrogate pair is never
erased alone: the pair is kept. -/
theorem apply_delete (h : q.Stands b cursor pre post) (hsplit : q.text = front ++ back)
    (hlength : length ≤ front.units) (caret : Position) :
    Splice.apply ⟨some (.delete (cursor.left (back.units + length)) length), caret⟩ b =
      (⟨pre ++ (front.before (front.units - length) ++ back) ++ post⟩,
        Buffer.clamp ⟨pre ++ (front.before (front.units - length) ++ back) ++ post⟩ caret) := by
  have hunits : q.text.units = front.units + back.units := by rw [hsplit, Text.units_append]
  have hplace : cursor.left (back.units + length) =
      (origin.advance pre).right (front.units - length) := by
    rw [h.left_eq (by omega), hunits]
    congr 1
    omega
  have hrange : Range.onLine (cursor.left (back.units + length)) length =
      ⟨(origin.advance pre).right (front.units - length),
        (origin.advance pre).right front.units⟩ := by
    rw [Range.onLine, hplace, Position.right_right, Nat.sub_add_cancel hlength]
  have hedited : (Edit.delete (cursor.left (back.units + length)) length).apply b =
      ⟨pre ++ (front.before (front.units - length) ++ back) ++ post⟩ := by
    rw [Edit.apply, Edit.delete, hrange, h.replace_front hsplit (Nat.sub_le _ _), List.append_nil]
  rw [Splice.apply, Splice.edited]
  dsimp only
  rw [hedited]

end Stands

end Query

/-! ### Edits between two parts of a document -/

namespace Splice

/-- A splice edits only what stands between two parts of a document and leaves the caret
there. -/
def StaysBetween (s : Splice) (b : Buffer) (pre post : Text) : Prop :=
  ∃ middle, (s.apply b).1.text = pre ++ middle ++ post ∧
    origin.advance pre ≤ (s.apply b).2 ∧ (s.apply b).2 ≤ origin.advance (pre ++ middle)

/-- A splice that replaces a middle stays there, if the caret does. -/
theorem staysBetween_of_apply {s : Splice} {b : Buffer} {pre middle post : Text}
    {caret : Position} (h : s.apply b =
      (⟨pre ++ middle ++ post⟩, Buffer.clamp ⟨pre ++ middle ++ post⟩ caret))
    (hge : origin.advance pre ≤ caret) (hle : caret ≤ (origin.advance pre).advance middle) :
    s.StaysBetween b pre post := by
  let edited : Buffer := ⟨pre ++ middle ++ post⟩
  have hstart : edited.clamp (origin.advance pre) = origin.advance pre :=
    Buffer.clamp_advance (List.append_assoc _ _ _)
  have hstop : edited.clamp (origin.advance (pre ++ middle)) = origin.advance (pre ++ middle) :=
    Buffer.clamp_advance rfl
  refine ⟨middle, ?_, ?_, ?_⟩
  · rw [h]
  · rw [h, ← hstart]
    exact edited.clamp_mono hge
  · rw [h, ← hstop, Position.advance_append]
    exact edited.clamp_mono hle

end Splice

namespace Query

namespace Stands

variable {q : Query} {b : Buffer} {cursor : Position} {pre front back post : Text}
  {length : Nat}

/-- The whole query is replaced, and the caret put somewhere in the new text. -/
theorem staysBetween_range (h : q.Stands b cursor pre post) (before after : Text) :
    Splice.StaysBetween ⟨some ⟨q.range, before ++ after⟩, q.start.advance before⟩ b pre post := by
  rw [h.start]
  refine Splice.staysBetween_of_apply (h.apply_range _ _) (Position.le_advance _ _) ?_
  rw [Position.advance_append]
  exact Position.le_advance _ _

theorem staysBetween_replacing (h : q.Stands b cursor pre post) (text : Text) :
    (Splice.replacing ⟨q.range, text⟩).StaysBetween b pre post := by
  have hreplacing := h.staysBetween_range text []
  rw [List.append_nil] at hreplacing
  exact hreplacing

/-- A text is typed somewhere in the query, and the caret moves by as much. -/
theorem staysBetween_insert (h : q.Stands b cursor pre post) (hsplit : q.text = front ++ back)
    (text : Text) :
    Splice.StaysBetween
      ⟨some (.insert (cursor.left back.units) text), cursor.right text.units⟩ b pre post := by
  have hunits : q.text.units = front.units + back.units := by rw [hsplit, Text.units_append]
  have hcaret : cursor.right text.units =
      (origin.advance pre).right (q.text.units + text.units) := by
    rw [h.cursor, h.start, Position.right_right, units_text]
  refine Splice.staysBetween_of_apply (h.apply_insert hsplit text _) ?_ ?_
  · rw [hcaret]
    exact Position.le_right _ _
  · rw [hcaret]
    refine Position.right_le_advance _ ?_
    simp only [Text.units_append]
    omega

/-- Something is erased in the query, and the caret moves by as much. -/
theorem staysBetween_delete (h : q.Stands b cursor pre post) (hsplit : q.text = front ++ back)
    (hlength : length ≤ front.units) :
    Splice.StaysBetween
      ⟨some (.delete (cursor.left (back.units + length)) length), cursor.left length⟩ b pre
        post := by
  have hunits : q.text.units = front.units + back.units := by rw [hsplit, Text.units_append]
  have hcaret : cursor.left length = (origin.advance pre).right (q.text.units - length) :=
    h.left_eq (by omega)
  refine Splice.staysBetween_of_apply (h.apply_delete hsplit hlength _) ?_ ?_
  · rw [hcaret]
    exact Position.le_right _ _
  · rw [hcaret]
    refine Position.right_le_advance _ ?_
    have hkept := Text.le_units_before (Nat.sub_le front.units length)
    rw [Text.units_append]
    omega

end Stands

end Query

namespace Outcome

/-- Every splice of an outcome stays between two parts of a document. -/
def StaysBetween (o : Outcome) (b : Buffer) (pre post : Text) : Prop :=
  ∀ splice, o.splice? = some splice → splice.StaysBetween b pre post

variable {o : Outcome} {b : Buffer} {pre post : Text}

theorem staysBetween_of_quiet (hquiet : o.splice? = none) : o.StaysBetween b pre post := by
  intro splice hsplice
  rw [hquiet] at hsplice
  contradiction

theorem staysBetween_splice {splice : Splice} (h : splice.StaysBetween b pre post) :
    (Outcome.splice splice).StaysBetween b pre post := by
  intro other hother
  rw [← Option.some.inj hother]
  exact h

end Outcome

namespace Completion

open Query (Stands)

variable {src : Sources} {b : Buffer} {cursor : Position} {pre post : Text}

/-- Executing a snippet replaces the query by its expansion. -/
theorem staysBetween_execute {q : Query} (h : q.Stands b cursor pre post) (s : Snippet)
    (evaluate : Evaluator) :
    (Outcome.ofExcept (s.execute q evaluate)).StaysBetween b pre post := by
  rw [Snippet.execute]
  cases s.template q evaluate with
  | error f => exact Outcome.staysBetween_of_quiet rfl
  | ok template =>
      apply Outcome.staysBetween_splice
      rw [Snippet.expand]
      split
      · exact h.staysBetween_range _ _
      · exact h.staysBetween_replacing _

theorem staysBetween_completeSnippet {found : Suggestions Snippet}
    (h : found.query.Stands b cursor pre post) (s : Snippet) :
    (completeSnippet src found s).2.StaysBetween b pre post := by
  have houtcome : (completeSnippet src found s).2 =
      Outcome.ofExcept (s.complete found.query src.evaluate) := by
    rw [completeSnippet]
    cases s.complete found.query src.evaluate <;> rfl
  rw [houtcome, Snippet.complete]
  split
  · exact staysBetween_execute h s src.evaluate
  · exact Outcome.staysBetween_splice (h.staysBetween_replacing _)

theorem SnippetReply.staysBetween {found : Suggestions Snippet} {answer : Completion × Outcome}
    (hreply : SnippetReply src found cursor answer) (hkind : found.query.kind = .snippet)
    (h : found.query.Stands b cursor pre post) : answer.2.StaysBetween b pre post := by
  cases hreply with
  | moved selected => exact Outcome.staysBetween_of_quiet rfl
  | stayed o hquiet => exact Outcome.staysBetween_of_quiet hquiet
  | left o hquiet => exact Outcome.staysBetween_of_quiet hquiet
  | completed s => exact staysBetween_completeSnippet h s
  | executed s => exact staysBetween_execute h s src.evaluate
  | typed text =>
      obtain ⟨front, back, htakes⟩ := Query.exists_takes h.parenthesized
      rw [← htakes.units_eq]
      exact Outcome.staysBetween_splice (h.staysBetween_insert (htakes.text_eq hkind) text)
  | erased length hlength hword =>
      obtain ⟨front, gone, back, herases⟩ := Query.exists_erases h.parenthesized hword
      have hsplit : found.query.text = (front ++ gone) ++ back := by
        rw [herases.text_eq hkind, List.append_assoc]
      have hfront : gone.length ≤ (front ++ gone).units := by
        rw [Text.units_append]
        exact Nat.le_trans herases.length_le_units (Nat.le_add_left _ _)
      rw [hlength, ← herases.length_eq, ← herases.units_eq]
      exact Outcome.staysBetween_splice (h.staysBetween_delete hsplit hfront)

/-- Up to the caret is the whole query. -/
theorem staysBetween_apply {q : Query} (h : q.Stands b cursor pre post) (record : SymbolRecord)
    (unicode : Bool) : (record.apply q cursor unicode).StaysBetween b pre post := by
  have hrange : (⟨q.start, cursor⟩ : Range) = q.range := by
    rw [Query.range, Range.onLine, h.cursor]
  rw [SymbolRecord.apply, hrange]
  exact h.staysBetween_replacing _

theorem SymbolReply.staysBetween {found : Suggestions SymbolMatch}
    {answer : Completion × Outcome} (hreply : SymbolReply src found cursor answer)
    (h : found.query.Stands b cursor pre post) : answer.2.StaysBetween b pre post := by
  cases hreply with
  | moved selected => exact Outcome.staysBetween_of_quiet rfl
  | stayed => exact Outcome.staysBetween_of_quiet rfl
  | left o hquiet => exact Outcome.staysBetween_of_quiet hquiet
  | completed m =>
      apply Outcome.staysBetween_splice
      rw [SymbolRecord.complete]
      split
      · exact staysBetween_apply h m.symbol src.unicode
      · exact h.staysBetween_replacing _
  | applied m => exact Outcome.staysBetween_splice (staysBetween_apply h m.symbol src.unicode)

/-- **Every edit of the popup stays between what stands around its query.** -/
theorem staysBetween_onKey {state : Completion} {q : Query} (hanswers : state.Answers src q)
    (h : q.Stands b cursor pre post) (chord : Chord) :
    (state.onKey src chord cursor).2.StaysBetween b pre post := by
  cases state with
  | idle => exact hanswers.elim
  | snippets found =>
      obtain ⟨rfl, hkind, -⟩ := hanswers
      exact (snippetReply_snippetKey src found chord cursor).staysBetween hkind h
  | symbols found =>
      obtain ⟨rfl, -, -⟩ := hanswers
      exact (symbolReply_symbolKey src found chord cursor).staysBetween h

theorem staysBetween_choose {state : Completion} {q : Query} (hanswers : state.Answers src q)
    (h : q.Stands b cursor pre post) (index : Nat) :
    (state.choose src index cursor).2.StaysBetween b pre post := by
  cases state with
  | idle => exact hanswers.elim
  | snippets found =>
      obtain ⟨rfl, hkind, -⟩ := hanswers
      exact (snippetReply_choose src found index cursor).staysBetween hkind h
  | symbols found =>
      obtain ⟨rfl, -, -⟩ := hanswers
      exact (symbolReply_choose src found index cursor).staysBetween h

end Completion

end MathTyping
