import MathTyping.Proofs.Query.Editing
import MathTyping.Proofs.Query.Redetected

/-!
# What is erased behind a typed text

After a character was typed, the query is detected again, and Backspace erases from the query
that was found.  Both queries end at the caret, so the text before the caret is split in two
ways: as it was typed, and around what is erased.  The lemmas compare the ends of the two
splits, for each text that a key writes.

Only a pair of parentheses behind a word is different.  The query that is found may start at an
earlier word of the line, and then the pair is not the whole argument
(`argument_eq_pair_iff`).
-/

namespace MathTyping

theorem exists_of_append_eq_cons {x y w t : Text} {c : Char} (hc : c ∉ w)
    (h : x ++ w = y ++ c :: t) : ∃ rest, x = y ++ c :: rest ∧ t = rest ++ w := by
  rcases List.append_eq_append_iff.mp h with ⟨part, rfl, hw⟩ | ⟨part, rfl, hct⟩
  · exact absurd (by rw [hw]; simp) hc
  · cases part with
    | nil =>
        rw [List.nil_append] at hct
        exact absurd (by rw [← hct]; exact List.mem_cons_self) hc
    | cons d rest =>
        obtain ⟨rfl, rfl⟩ := List.cons.inj hct
        exact ⟨rest, rfl, rfl⟩

namespace Query

variable {q : Query} {kept front gone back line : Text} {c : Char}

/-- Behind a word, a pair of parentheses is erased exactly if it is the whole argument. -/
theorem Erases.pair_iff (h : q.Erases front gone back) (hasked : IsWord q.word)
    (hline : kept ++ (gone ++ back) = line ++ ['(', ')', '@']) :
    gone.units = gone.length ∧ kept ++ back = line ++ ['@'] ↔ q.argument = some ['(', ')'] := by
  have hends := congrArg List.reverse hline
  cases h with
  | word init d hargument hend =>
      have hlast : d = ')' ∧ kept.reverse = '(' :: line.reverse := by simpa using hends
      have hletter := hasked.isWordChar_last (y := []) hend.symm
      rw [hlast.1] at hletter
      contradiction
  | pair hargument =>
      have hkept : kept = line := by simpa using hends
      exact iff_of_true ⟨rfl, by rw [hkept]⟩ hargument
  | inner init d hargument =>
      have hkept : d = '(' ∧ kept = line := by simpa using hends
      refine iff_of_false (fun hsame => ?_) (argument_ne_pair hargument)
      have hlength := congrArg List.length hsame.2
      rw [hkept.2] at hlength
      simp at hlength

/-- Behind a word, another character is erased exactly if it does not close an argument. -/
theorem Erases.word_iff {word : Text} (h : q.Erases front gone back) (hasked : IsWord q.word)
    (hword : IsWord word)
    (hline : kept ++ (gone ++ back) = line ++ word ++ [c, '@']) :
    gone.units = gone.length ∧ kept ++ back = line ++ word ++ ['@'] ↔ c ≠ ')' := by
  cases h with
  | word init d hargument hend =>
      obtain ⟨hkept, hchars⟩ := List.append_inj' hline rfl
      obtain ⟨rfl, -⟩ := List.cons.inj hchars
      have hletter := hasked.isWordChar_last (y := []) hend.symm
      exact iff_of_true ⟨charUnits_of_isWordChar hletter, by rw [hkept]⟩
        (isWordChar_ne hletter (by decide))
  | pair hargument =>
      have hopen : (kept ++ ['(']) ++ [')', '@'] = line ++ word ++ [c, '@'] := by simpa using hline
      have hlast := hword.isWordChar_last (List.append_inj' hopen rfl).1
      contradiction
  | inner init d hargument =>
      have hclose : (kept ++ [d]) ++ [')', '@'] = line ++ word ++ [c, '@'] := by simpa using hline
      obtain ⟨rfl, -⟩ := List.cons.inj (List.append_inj' hclose rfl).2
      refine iff_of_false (fun hsame => ?_) (not_not_intro rfl)
      have hend : (kept ++ [')']) ++ ['@'] = line ++ word ++ ['@'] := by simpa using hsame.2
      have hlast := hword.isWordChar_last (List.append_cancel_right hend)
      contradiction

/-- Of a pair of parentheses in an argument only one is erased. -/
theorem Erases.not_nested (h : q.Erases front gone back) (hasked : IsWord q.word)
    (hline : kept ++ (gone ++ back) = line ++ ['(', ')', ')', '@']) :
    kept ++ back ≠ line ++ [')', '@'] := by
  intro hsame
  have hends := congrArg List.reverse hline
  cases h with
  | word init d hargument hend =>
      have hlast : d = ')' ∧ kept.reverse = ')' :: '(' :: line.reverse := by simpa using hends
      have hletter := hasked.isWordChar_last (y := []) hend.symm
      rw [hlast.1] at hletter
      contradiction
  | pair hargument => simp at hends
  | inner init d hargument =>
      have hkept : d = ')' ∧ kept.reverse = '(' :: line.reverse := by simpa using hends
      have hlength := congrArg List.length (List.append_cancel_right hsame)
      rw [← List.length_reverse, hkept.2] at hlength
      simp at hlength

/-- Another character of an argument is erased exactly if it has one unit. -/
theorem Erases.inner_iff (h : q.Erases front gone back) (hasked : IsWord q.word) (hc : c ≠ '(')
    (hline : kept ++ (gone ++ back) = line ++ [c, ')', '@']) :
    gone.units = gone.length ∧ kept ++ back = line ++ [')', '@'] ↔ charUnits c = 1 := by
  have hends := congrArg List.reverse hline
  cases h with
  | word init d hargument hend =>
      have hlast : d = ')' ∧ kept.reverse = c :: line.reverse := by simpa using hends
      have hletter := hasked.isWordChar_last (y := []) hend.symm
      rw [hlast.1] at hletter
      contradiction
  | pair hargument =>
      have hkept : '(' = c ∧ kept = line := by simpa using hends
      exact absurd hkept.1.symm hc
  | inner init d hargument =>
      have hkept : d = c ∧ kept = line := by simpa using hends
      rw [hkept.1, hkept.2]
      exact and_iff_left rfl

/-! ### A pair of parentheses behind a word -/

variable {before word dropped : Text}

/-- An earlier word that is followed by a parenthesis would be read up to the pair, and the word
before this pair would not be the first. -/
theorem not_opensEarlier_of_pair (hword : IsWord word) (hasked : IsWord q.word)
    (hfirst : FirstTail beforeSnippet readSnippet? true (before ++ (word ++ ['@'])) before
      (word ++ ['@']))
    (hnow : FirstTail beforeSnippet readSnippet? true (callLine before word []) dropped q.text)
    (hkind : q.kind = .snippet) (hargument : q.argument = some ['(', ')']) :
    ¬ ∃ dropped earlier rest, OpensEarlier before dropped earlier rest := by
  rintro ⟨other, earlier, rest, hearlier⟩
  obtain ⟨tail, htail, found, hfound⟩ := hearlier.exists_read hword List.not_mem_nil
  have hle : dropped.length ≤ other.length := Nat.le_of_not_lt fun hlt => by
    rw [hnow.first other tail htail hearlier.start hlt] at hfound
    contradiction
  have hlt := Nat.lt_of_le_of_lt hle hearlier.length_lt
  -- The query goes on to the end of the word, so the longer word could be asked for before.
  have hsame : (before ++ word) ++ ['(', ')', '@'] = (dropped ++ q.word) ++ ['(', ')', '@'] := by
    have htext := hnow.text
    rw [callLine, text, if_pos hkind, hargument] at htext
    simpa using htext
  rcases List.append_eq_append_iff.mp (List.append_cancel_right hsame) with
    ⟨part, rfl, -⟩ | ⟨part, rfl, hlonger⟩
  · rw [List.length_append] at hlt
    omega
  · have hnone := hfirst.first dropped (part ++ (word ++ ['@'])) (List.append_assoc _ _ _)
      hnow.start hlt
    rw [← List.append_assoc, ← hlonger, readSnippet?_word hasked (by decide)] at hnone
    contradiction

/-- If something else than the pair is the argument, it starts behind an earlier word. -/
theorem argument_eq_pair (hbefore : '\n' ∉ before) (hword : IsWord word) (hasked : IsWord q.word)
    (hnow : FirstTail beforeSnippet readSnippet? true (callLine before word []) dropped q.text)
    (hkind : q.kind = .snippet) (hparenthesized : q.Parenthesized)
    (hnone : ¬ ∃ dropped earlier rest, OpensEarlier before dropped earlier rest) :
    q.argument = some ['(', ')'] := by
  have htext := hnow.text
  rw [callLine, text, if_pos hkind] at htext
  cases hargument : q.argument with
  | none =>
      rw [hargument] at htext
      have hends : (before ++ word ++ ['(']) ++ [')'] ++ ['@'] = dropped ++ q.word ++ ['@'] := by
        simpa using htext
      have hlast := hasked.isWordChar_last (List.append_cancel_right hends)
      contradiction
  | some a =>
      obtain ⟨inner, rfl⟩ := hparenthesized a hargument
      rw [hargument] at htext
      rcases List.eq_nil_or_concat inner with rfl | ⟨init, c, rfl⟩
      · rfl
      · have hends : (before ++ word) ++ ['(', ')', '@'] =
            (dropped ++ q.word ++ '(' :: init) ++ [c, ')', '@'] := by
          simpa using htext
        have hopen : '(' ∉ word := fun hmem => absurd (hword.2 _ hmem) (by decide)
        obtain ⟨rest, hrest, -⟩ := exists_of_append_eq_cons hopen (List.append_inj' hends rfl).1
        refine absurd ⟨dropped, q.word, rest, ?_, hnow.start, hasked, fun hmem => ?_⟩ hnone
        · rw [hrest, List.append_assoc]
        · exact hbefore (by rw [hrest]; simp [hmem])

/-- A pair of parentheses behind the word that was asked for is the argument of this word exactly
if no earlier word of the line is followed by an opening parenthesis. -/
theorem argument_eq_pair_iff {cursor : Position} (hbefore : '\n' ∉ before) (hword : IsWord word)
    (hfirst : FirstTail beforeSnippet readSnippet? true (before ++ (word ++ ['@'])) before
      (word ++ ['@']))
    (hquery : detect? (callLine before word []) cursor = some q) (hkind : q.kind = .snippet) :
    q.argument = some ['(', ')'] ↔
      ¬ ∃ dropped earlier rest, OpensEarlier before dropped earlier rest := by
  obtain ⟨-, hread, dropped, hnow, -⟩ := firstTail_of_detect?_snippet hquery hkind
  obtain ⟨-, hparenthesized⟩ := readSnippet?_eq_some hread
  have hasked := isWord_of_readSnippet? hread
  exact ⟨not_opensEarlier_of_pair hword hasked hfirst hnow hkind,
    argument_eq_pair hbefore hword hasked hnow hkind hparenthesized⟩

end Query

end MathTyping
