import MathTyping.Proofs.Popup.Draft
import MathTyping.Proofs.Query.Erasing

/-!
# Taking back a typed character

While snippets are offered, characters are typed into the query and Backspace erases from
it.  The two count for themselves.  A character goes in with as many units as it has, and
an opening parenthesis brings its closing one; Backspace erases one unit, or two if they
are the whole argument `()`.

`backspace_undoes_typed_iff` says exactly when the one takes back the other.  Three things
come between them: a character of two units, of which Backspace moves past one half; a pair
of parentheses inside an argument, of which it erases one; and a parenthesis that makes the
query start at an earlier word of the line, so that Backspace works on another argument.
-/

namespace MathTyping

open Position (origin)

/-- Behind the end of a line, every column means its end. -/
theorem Buffer.clamp_before_feed {b : Buffer} {pre post : Text} {p : Position}
    (htext : b.text = pre ++ '\n' :: post) (hline : p.line = (origin.advance pre).line)
    (hcolumn : (origin.advance pre).column ≤ p.column) : b.clamp p = origin.advance pre := by
  obtain ⟨init, l, hpre⟩ := Text.exists_lines_eq_concat pre
  have hlines : b.lines = init ++ (l ++ []) :: post.lines := by
    rw [lines, htext]
    exact Text.lines_append hpre (Text.lines_feed post)
  rw [List.append_nil] at hlines
  rw [Position.origin_advance hpre] at *
  dsimp only at hline hcolumn
  rw [clamp, hline, lineUnits, line_of_lines hlines, Nat.min_eq_right hcolumn, if_neg]
  rw [lineCount, hlines, List.length_append, List.length_cons]
  omega

/-! ### One key -/

namespace Draft

variable {src : Sources} {d later : Draft} {found : Suggestions Snippet} {chord : Chord}
  {pre front gone back post : Text} {c : Char}

/-- What typing a character writes. -/
def typedText (c : Char) : Text := if c = '(' then ['(', ')'] else [c]

/-- A typed character is written before the end of the query, unless it is a space behind a word,
which closes the popup. -/
theorem onKey_typed (src : Sources) (found : Suggestions Snippet) (cursor : Position)
    (htyped : chord.typed? = some c) :
    (Completion.snippets found).onKey src chord cursor =
      if c = ' ' ∧ found.query.argument.isNone then (.idle, .pass)
      else (.snippets found, .splice
        ⟨some (.insert (cursor.left (if found.query.argument.isSome then 2 else 1))
          (typedText c)), cursor.right (typedText c).units⟩) := by
  have hkey := Chord.key_of_typed? htyped
  by_cases hopen : c = '('
  · have hspace : ¬ (c = ' ' ∧ found.query.argument.isNone) := fun h =>
      absurd (hopen.symm.trans h.1) (by decide)
    rw [if_neg hspace]
    simp only [Completion.onKey, Completion.snippetKey, hkey, htyped, if_pos hopen, typedText]
    rfl
  · simp only [Completion.onKey, Completion.snippetKey, hkey, htyped, if_neg hopen, typedText]
    rfl

theorem press?_typed (hpopup : d.popup = .snippets found)
    (hstands : found.query.Stands d.buffer d.caret pre post)
    (hkind : found.query.kind = .snippet) (htakes : found.query.Takes front back)
    (htyped : chord.typed? = some c) (h : d.press? src chord = some later) :
    later.buffer.text = pre ++ (front ++ typedText c ++ back) ++ post ∧
      later.caret = later.buffer.clamp (d.caret.right (typedText c).units) ∧
      later.popup = d.popup.update src (Query.detectAt? later.buffer later.caret) := by
  have hanswer := onKey_typed src found d.caret htyped
  rw [← hpopup, ← htakes.units_eq] at hanswer
  split at hanswer
  · rw [press?_of_pass hanswer] at h
    contradiction
  · rw [press?_of_splice hanswer (hstands.apply_insert (htakes.text_eq hkind) _ _)] at h
    obtain rfl := Option.some.inj h
    exact ⟨rfl, rfl, hpopup ▸ rfl⟩

/-- A key gives a document and a caret back. -/
def BringsBack (src : Sources) (d : Draft) (chord : Chord) (b : Buffer) (caret : Position) :
    Prop :=
  ∃ later, d.press? src chord = some later ∧ later.buffer = b ∧ later.caret = caret

instance (src : Sources) (d : Draft) (chord : Chord) (b : Buffer) (caret : Position) :
    Decidable (d.BringsBack src chord b caret) :=
  decidable_of_iff ((d.press? src chord).any fun later => later.buffer = b ∧ later.caret = caret)
    (by simp [BringsBack, Option.any_eq_true])

/-- Backspace erases the end of the query, unless this is a character of which it would erase
one half. -/
theorem press?_backspace (src : Sources) (hpopup : d.popup = .snippets found)
    (hstands : found.query.Stands d.buffer d.caret pre post)
    (hkind : found.query.kind = .snippet) (hword : found.query.word ≠ [])
    (herases : found.query.Erases front gone back) :
    ∃ later, d.press? src (.plain .backspace) = some later ∧
      (gone.units = gone.length → later.buffer.text = pre ++ (front ++ back) ++ post ∧
        later.caret = origin.advance (pre ++ (front ++ back))) ∧
      (gone.units ≠ gone.length → later.buffer = d.buffer) := by
  have hsplit := herases.text_eq hkind
  have hsegment : found.query.text = (front ++ gone) ++ back := by
    rw [hsplit, List.append_assoc]
  have hle := herases.length_le_units
  have hanswer : d.popup.onKey src (.plain .backspace) d.caret =
      (.snippets found, .splice
        ⟨some (.delete (d.caret.left (back.units + gone.length)) gone.length),
          d.caret.left gone.length⟩) := by
    rw [herases.units_eq, herases.length_eq, hpopup]
    simp only [Completion.onKey, Completion.snippetKey, Chord.plain]
    rw [if_neg (by simpa using hword)]
  -- A column inside a surrogate pair means the place behind it, so the cut keeps a whole pair.
  have hkept : (front ++ gone).before ((front ++ gone).units - gone.length) =
      front ++ gone.before (gone.units - gone.length) := by
    rw [Text.units_append, Nat.add_sub_assoc hle, Text.before_append]
  have hspliced := hstands.apply_delete hsegment
    (by rw [Text.units_append]; omega : gone.length ≤ (front ++ gone).units)
    (d.caret.left gone.length)
  rw [hkept] at hspliced
  refine ⟨_, press?_of_splice hanswer hspliced, fun hnarrow => ?_, fun hwide => ?_⟩
  · have hnil : gone.before (gone.units - gone.length) = [] := by
      rw [hnarrow, Nat.sub_self, Text.before_zero]
    have hcaret : d.caret.left gone.length = origin.advance (pre ++ (front ++ back)) := by
      rw [← hnarrow, hstands.left_erased hsplit]
    dsimp only
    rw [hnil, List.append_nil, hcaret]
    exact ⟨rfl, Buffer.clamp_advance rfl⟩
  · have hwhole : gone.before (gone.units - gone.length) = gone := by
      cases herases with
      | word init c | inner init c =>
          have hpos : 0 < Text.units [c] - 1 :=
            Nat.sub_pos_of_lt (Nat.lt_of_le_of_ne hle (Ne.symm hwide))
          exact Text.before_cons c [] hpos
      | pair => exact absurd rfl hwide
    dsimp only
    rw [hwhole, ← hsegment, ← hstands.text]

/-- Backspace gives a document back exactly if it erases whole characters, and what it leaves
is the text before the caret. -/
theorem bringsBack_backspace_iff (src : Sources) {b : Buffer} {t : Text}
    (hpopup : d.popup = .snippets found)
    (hstands : found.query.Stands d.buffer d.caret pre post)
    (hkind : found.query.kind = .snippet) (hword : found.query.word ≠ [])
    (herases : found.query.Erases front gone back) (hb : b.text = t ++ post)
    (hne : b ≠ d.buffer) :
    d.BringsBack src (.plain .backspace) b (origin.advance t) ↔
      gone.units = gone.length ∧ pre ++ front ++ back = t := by
  obtain ⟨later, hpress, hnarrow, hwide⟩ :=
    press?_backspace src hpopup hstands hkind hword herases
  constructor
  · rintro ⟨other, hother, rfl, -⟩
    obtain rfl := Option.some.inj (hpress.symm.trans hother)
    by_cases hunits : gone.units = gone.length
    · have hsame : pre ++ front ++ back ++ post = t ++ post := by
        rw [← hb, (hnarrow hunits).1, List.append_assoc pre]
      exact ⟨hunits, List.append_cancel_right hsame⟩
    · exact absurd (hwide hunits) hne
  · rintro ⟨hunits, rfl⟩
    obtain ⟨htext, hcaret⟩ := hnarrow hunits
    rw [← List.append_assoc] at htext hcaret
    exact ⟨later, hpress, by rw [← htext] at hb; exact congrArg Buffer.mk hb.symm, hcaret⟩

/-! ### Typing and taking back -/

open Query

/-- A typed character that stays on the line is before the new caret. -/
theorem press?_typed_line (hpopup : d.popup = .snippets found)
    (hstands : found.query.Stands d.buffer d.caret pre post)
    (hkind : found.query.kind = .snippet) (htakes : found.query.Takes front back)
    (htyped : chord.typed? = some c) (hfeed : c ≠ '\n') (h : d.press? src chord = some later) :
    later.buffer.text = pre ++ (front ++ typedText c ++ back) ++ post ∧
      later.caret = origin.advance (pre ++ (front ++ typedText c ++ back)) := by
  obtain ⟨htext, hcaret, -⟩ := press?_typed hpopup hstands hkind htakes htyped h
  refine ⟨htext, ?_⟩
  have hnew : '\n' ∉ typedText c := by
    rw [typedText]
    split
    · decide
    · simpa using hfeed.symm
  rw [hcaret, hstands.right_written (htakes.text_eq hkind) hnew, Buffer.clamp_advance htext]

/-- A typed line feed leaves the caret before it. -/
theorem press?_typed_feed (hpopup : d.popup = .snippets found)
    (hstands : found.query.Stands d.buffer d.caret pre post)
    (hkind : found.query.kind = .snippet) (htakes : found.query.Takes front back)
    (htyped : chord.typed? = some '\n') (h : d.press? src chord = some later) :
    later.buffer.text = (pre ++ front) ++ '\n' :: (back ++ post) ∧
      later.caret = origin.advance (pre ++ front) := by
  obtain ⟨htext, hcaret, -⟩ := press?_typed hpopup hstands hkind htakes htyped h
  have hbehind : later.buffer.text = (pre ++ front) ++ '\n' :: (back ++ post) := by
    rw [htext, typedText, if_neg (by decide)]
    simp
  have hsplit := htakes.text_eq hkind
  have hline : '\n' ∉ front ++ back := hsplit ▸ hstands.line
  have hfront : '\n' ∉ front := fun hmem => hline (List.mem_append_left _ hmem)
  refine ⟨hbehind, ?_⟩
  rw [hcaret, hstands.cursor_eq, hsplit, Position.advance_append,
    Position.advance_of_notMem _ hline, Position.right_right]
  apply Buffer.clamp_before_feed hbehind
  · rw [Position.advance_append, Position.advance_of_notMem _ hfront]
    rfl
  · rw [Position.advance_append, Position.advance_of_notMem _ hfront, Text.units_append,
      Nat.add_assoc]
    exact Nat.add_le_add_left (Nat.le_add_right _ _) _

/-- Offered snippets end the text before the caret, and Backspace erases from this end. -/
theorem exists_erased_behind {t : Text} (htext : d.buffer.text = t ++ post)
    (hcaret : d.caret = origin.advance t)
    (hquery : detectAt? d.buffer d.caret = some found.query) (hkind : found.query.kind = .snippet) :
    ∃ pre front gone back, t = pre ++ front ++ (gone ++ back) ∧
      found.query.Stands d.buffer d.caret pre post ∧ found.query.Erases front gone back ∧
      IsWord found.query.word := by
  rw [hcaret] at hquery ⊢
  obtain ⟨pre, ht, hstands⟩ := stands_of_detectAt?_advance htext hquery
  obtain ⟨-, hread, -⟩ := hstands.firstTail hquery hkind
  have hword := isWord_of_readSnippet? hread
  obtain ⟨front, gone, back, herases⟩ := exists_erases hstands.parenthesized hword.1
  refine ⟨pre, front, gone, back, ?_, hstands, herases, hword⟩
  rw [ht, herases.text_eq hkind, List.append_assoc]

/-- What is typed on the line is taken back exactly if what Backspace leaves is the text that was
there before. -/
theorem bringsBack_typed_iff (src : Sources) {b : Buffer} {caret : Position} {typed : Draft}
    {later : Suggestions Snippet} (hstands : found.query.Stands b caret pre post)
    (hkind : found.query.kind = .snippet) (htakes : found.query.Takes front back)
    (htext : typed.buffer.text = pre ++ (front ++ typedText c ++ back) ++ post)
    (hcaret : typed.caret = origin.advance (pre ++ (front ++ typedText c ++ back)))
    (hopen : typed.popup = .snippets later)
    (hnow : detectAt? typed.buffer typed.caret = some later.query)
    (hlater : later.query.kind = .snippet) :
    ∃ kept start gone rest, kept ++ (gone ++ rest) = pre ++ (front ++ typedText c ++ back) ∧
      later.query.Erases start gone rest ∧ IsWord later.query.word ∧
      (typed.BringsBack src (.plain .backspace) b caret ↔
        gone.units = gone.length ∧ kept ++ rest = pre ++ (front ++ back)) := by
  obtain ⟨before, start, gone, rest, ht, hbehind, herases, hword⟩ :=
    exists_erased_behind htext hcaret hnow hlater
  have hb : b.text = pre ++ (front ++ back) ++ post := by
    rw [hstands.text, htakes.text_eq hkind]
  have hne : b ≠ typed.buffer := by
    intro hsame
    have hlength := congrArg List.length (hb.symm.trans (hsame ▸ htext))
    have hlonger : 0 < (typedText c).length := by
      rw [typedText]
      split
      · exact Nat.two_pos
      · exact Nat.one_pos
    simp only [List.length_append] at hlength
    omega
  have hiff := bringsBack_backspace_iff src hopen hbehind hlater hword.1 herases hb hne
  rw [← htakes.text_eq hkind, ← hstands.cursor_eq] at hiff
  rw [← htakes.text_eq hkind]
  exact ⟨before ++ start, start, gone, rest, ht.symm, herases, hword, hiff⟩

/-- A line feed is never taken back, and behind a word it leaves no query before the caret. -/
theorem not_bringsBack_feed (src : Sources) {b : Buffer} {caret : Position} {typed : Draft}
    {later : Suggestions Snippet} (hstands : found.query.Stands b caret pre post)
    (hkind : found.query.kind = .snippet) (hword : IsWord found.query.word)
    (htakes : found.query.Takes front back)
    (htext : typed.buffer.text = (pre ++ front) ++ '\n' :: (back ++ post))
    (hcaret : typed.caret = origin.advance (pre ++ front))
    (hopen : typed.popup = .snippets later)
    (hnow : detectAt? typed.buffer typed.caret = some later.query)
    (hlater : later.query.kind = .snippet) :
    found.query.argument ≠ none ∧
      ¬ typed.BringsBack src (.plain .backspace) b caret := by
  obtain ⟨before, start, gone, rest, ht, hbehind, herases, hasked⟩ :=
    exists_erased_behind htext hcaret hnow hlater
  constructor
  · intro hargument
    cases htakes with
    | inner inner hsome =>
        rw [hargument] at hsome
        contradiction
    | word =>
        obtain ⟨init, hend⟩ : ∃ init, gone ++ rest = init ++ ['@'] := by
          cases herases with
          | word init c => exact ⟨[c], rfl⟩
          | pair => exact ⟨['(', ')'], rfl⟩
          | inner init c => exact ⟨[c, ')'], rfl⟩
        rw [hend, ← List.append_assoc] at ht
        have hlast := hword.isWordChar_last ht.symm
        contradiction
  · rintro ⟨other, hother, hbuffer, -⟩
    obtain ⟨undone, hundone, hnarrow, hwide⟩ :=
      press?_backspace src hopen hbehind hlater hasked.1 herases
    obtain rfl := Option.some.inj (hother.symm.trans hundone)
    have hgone : gone.count '\n' = 0 := List.count_eq_zero.mpr fun hmem => hbehind.line (by
      rw [herases.text_eq hlater]
      simp [hmem])
    -- What is erased holds no line feed, so the typed one is still in the document.
    have hold := congrArg (List.count '\n') hstands.text
    have hfeeds := congrArg (List.count '\n') ht
    rw [htakes.text_eq hkind] at hold
    by_cases hunits : gone.units = gone.length
    · have hnew := congrArg (List.count '\n') (hnarrow hunits).1
      rw [hbuffer] at hnew
      simp [hgone] at hold hfeeds hnew
      omega
    · have hnew := congrArg (List.count '\n') htext
      rw [← hwide hunits, hbuffer] at hnew
      simp at hold hnew
      omega

/-- What Backspace takes back again: behind a word everything but a closing parenthesis, and an
opening one only if no earlier word of the line is followed by one; in an argument everything
that is one unit on the line and no opening parenthesis. -/
def Erasable (q : Query) (line : Text) (c : Char) : Prop :=
  match q.argument with
  | none => c ≠ ')' ∧
      (c = '(' → ¬ ∃ dropped earlier rest, OpensEarlier line dropped earlier rest)
  | some _ => c ≠ '(' ∧ c ≠ '\n' ∧ charUnits c = 1

/-- What is erased of the text before the caret is what was typed exactly if this is erasable. -/
theorem erases_typed_iff {q later : Query} {kept start rest line : Text}
    (htakes : q.Takes front back) (hword : IsWord q.word) (hfeed : c ≠ '\n')
    (herases : later.Erases start gone rest) (hasked : IsWord later.word)
    (hline : kept ++ (gone ++ rest) = pre ++ (front ++ typedText c ++ back))
    (hpair : q.argument = none → c = '(' → (later.argument = some ['(', ')'] ↔
      ¬ ∃ dropped earlier rest, OpensEarlier line dropped earlier rest)) :
    gone.units = gone.length ∧ kept ++ rest = pre ++ (front ++ back) ↔ Erasable q line c := by
  rw [Erasable]
  cases htakes with
  | word hargument =>
      rw [hargument, ← List.append_assoc pre]
      dsimp only
      by_cases hparen : c = '('
      · subst hparen
        have hedited : kept ++ (gone ++ rest) = pre ++ q.word ++ ['(', ')', '@'] := by
          simpa [typedText] using hline
        rw [herases.pair_iff hasked hedited, hpair hargument rfl]
        simp
      · have hedited : kept ++ (gone ++ rest) = pre ++ q.word ++ [c, '@'] := by
          simpa [typedText, hparen] using hline
        rw [herases.word_iff hasked hword hedited]
        simp [hparen]
  | inner inner hargument =>
      rw [hargument, ← List.append_assoc pre]
      dsimp only
      by_cases hparen : c = '('
      · subst hparen
        have hedited : kept ++ (gone ++ rest) =
            pre ++ (q.word ++ '(' :: inner) ++ ['(', ')', ')', '@'] := by
          simpa [typedText] using hline
        exact iff_of_false (fun h => herases.not_nested hasked hedited h.2) fun h => h.1 rfl
      · have hedited : kept ++ (gone ++ rest) =
            pre ++ (q.word ++ '(' :: inner) ++ [c, ')', '@'] := by
          simpa [typedText, hparen] using hline
        rw [herases.inner_iff hasked hparen hedited]
        simp [hparen, hfeed]

/-- **Backspace takes a typed character back exactly if it is erasable.** -/
theorem backspace_undoes_typed_iff (src : Sources) (b : Buffer) (cursor : Position)
    (found later : Suggestions Snippet) (chord : Chord) (c : Char) (typed : Draft)
    (hquery : detectAt? b cursor = some found.query) (hkind : found.query.kind = .snippet)
    (hchord : chord.typed? = some c)
    (htyped : press? src ⟨b, b.clamp cursor, .snippets found⟩ chord = some typed)
    (hopen : typed.popup = .snippets later) :
    typed.BringsBack src (.plain .backspace) b (b.clamp cursor) ↔
      Erasable found.query ((b.line found.query.start.line).before found.query.start.column)
        c := by
  rw [← detectAt?_clamp] at hquery
  obtain ⟨pre, post, hstands⟩ := stands_of_detectAt? (Buffer.clamp_clamp b cursor) hquery
  obtain ⟨-, hread, hfirst⟩ := hstands.firstTail hquery hkind
  have hword := isWord_of_readSnippet? hread
  obtain ⟨front, back, htakes⟩ := exists_takes hstands.parenthesized
  obtain ⟨-, -, hupdate⟩ := press?_typed rfl hstands hkind htakes hchord htyped
  obtain ⟨q, hnow, rfl, hlater, -⟩ :=
    Completion.answers_of_update (hupdate.symm.trans hopen) (by simp)
  rw [hstands.before_start, Erasable]
  -- The caret stays before a line feed, and what is erased then belongs to another line.
  by_cases hfeed : c = '\n'
  · subst hfeed
    obtain ⟨htext, hcaret⟩ := press?_typed_feed rfl hstands hkind htakes hchord htyped
    obtain ⟨hargument, hnot⟩ :=
      not_bringsBack_feed src hstands hkind hword htakes htext hcaret hopen hnow hlater
    obtain ⟨a, ha⟩ := Option.ne_none_iff_exists'.mp hargument
    rw [ha]
    exact iff_of_false hnot fun h => h.2.1 rfl
  · obtain ⟨htext, hcaret⟩ := press?_typed_line rfl hstands hkind htakes hchord hfeed htyped
    obtain ⟨kept, start, gone, rest, hline, herases, hasked, hiff⟩ :=
      bringsBack_typed_iff src hstands hkind htakes htext hcaret hopen hnow hlater
    rw [hiff]
    refine erases_typed_iff htakes hword hfeed herases hasked hline fun hargument hparen => ?_
    subst hparen
    have hedited : front ++ typedText '(' ++ back = callLine [] found.query.word [] := by
      cases htakes with
      | word => simp [typedText, callLine]
      | inner inner hsome =>
          rw [hargument] at hsome
          contradiction
    rw [text_of_argument_eq_none hkind hargument] at hfirst
    rw [hedited] at htext hcaret
    rw [hcaret, detectAt?_advance htext, Text.lastLine_append] at hnow
    · exact argument_eq_pair_iff (Text.feed_notMem_lastLine pre) hword hfirst hnow hlater
    · have hline := hword.feed_notMem
      simp [callLine, hline]

/-- A letter is taken back behind a character of two units. -/
theorem letter_taken_back :
    let src : Sources :=
      ⟨[{ Snippet.standard with name := "mat".toList }], .empty, fun _ _ => .ok [], true⟩
    let b : Buffer := ⟨"𝔸 + ma@".toList⟩
    let found : Suggestions Snippet :=
      ⟨⟨.snippet, "ma".toList, none, ⟨0, 5⟩⟩, src.snippets, none⟩
    let later : Suggestions Snippet :=
      ⟨⟨.snippet, "mat".toList, none, ⟨0, 5⟩⟩, src.snippets, some 0⟩
    let typed : Draft := ⟨⟨"𝔸 + mat@".toList⟩, ⟨0, 9⟩, .snippets later⟩
    detectAt? b ⟨0, 8⟩ = some found.query ∧
      press? src ⟨b, b.clamp ⟨0, 8⟩, .snippets found⟩ (.plain (.char 't')) = some typed ∧
      typed.BringsBack src (.plain .backspace) b (b.clamp ⟨0, 8⟩) := by
  intro src b found later typed
  have hquery : detectAt? b ⟨0, 8⟩ = some found.query := by decide +kernel
  have htyped : press? src ⟨b, b.clamp ⟨0, 8⟩, .snippets found⟩ (.plain (.char 't')) =
      some typed := by
    decide +kernel
  exact ⟨hquery, htyped, (backspace_undoes_typed_iff src b ⟨0, 8⟩ found later (.plain (.char 't'))
    't' typed hquery rfl rfl htyped rfl).mpr ⟨by decide, fun heq => absurd heq (by decide)⟩⟩

/-- Backspace leaves a character of two units in an argument, and the document as it was after
the character was typed. -/
theorem wide_character_left :
    let src : Sources :=
      ⟨[{ Snippet.standard with name := "mat".toList }], .empty, fun _ _ => .ok [], true⟩
    let b : Buffer := ⟨"mat()@".toList⟩
    let popup (argument : Text) : Completion :=
      .snippets ⟨⟨.snippet, "mat".toList, some argument, ⟨0, 0⟩⟩, src.snippets, some 0⟩
    let typed : Draft := ⟨⟨"mat(𝔸)@".toList⟩, ⟨0, 8⟩, popup "(𝔸)".toList⟩
    Completion.idle.update src (detectAt? b ⟨0, 6⟩) = popup "()".toList ∧
      press? src ⟨b, ⟨0, 6⟩, popup "()".toList⟩ (.plain (.char '𝔸')) = some typed ∧
      press? src typed (.plain .backspace) = some { typed with caret := ⟨0, 7⟩, popup := .idle } ∧
      ¬ typed.BringsBack src (.plain .backspace) b ⟨0, 6⟩ := by
  decide +kernel

end Draft

end MathTyping
