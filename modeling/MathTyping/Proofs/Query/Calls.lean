import MathTyping.Proofs.Query.Tails

/-!
# The call before the cursor

A snippet query may be written like a call, and then the first end of the line that
has the form of a call is taken, however much of the line is in its parentheses.
`call_found_iff` says what this means for a call that stands right before the
cursor: it is found exactly if no earlier word of the line is followed by an opening
parenthesis.  Otherwise the query starts with the earlier word, and all the text up
to the last parenthesis is its argument.
-/

namespace MathTyping

namespace Query

/-- A call right before the cursor, behind some text of the line. -/
def callLine (before word argument : Text) : Text :=
  before ++ (word ++ '(' :: (argument ++ [')', '@']))

/-- A word of letters and digits. -/
def IsWord (word : Text) : Prop := word ≠ [] ∧ ∀ c ∈ word, isWordChar c

/-- A call may start behind a text: the text is empty, or it ends with a space or punctuation.
Digits are left out, for they may be a part of the word. -/
def OpensCall (before : Text) : Prop :=
  before = [] ∨ ∃ c, before.getLast? = some c ∧ c ∈ " $()[]\x7b\x7d<>+-/*=!?#%&\x27:;,".toList

/-- An earlier call is opened in a text: a word stands where a snippet query may start, and an
opening parenthesis is behind it, on the last line. -/
structure OpensEarlier (before dropped word rest : Text) : Prop where
  text : before = dropped ++ (word ++ '(' :: rest)
  start : mayStart beforeSnippet true dropped
  word : IsWord word
  line : '\n' ∉ rest

/-! ### Reading a call -/

theorem beforeSnippet_of_mem {c : Char}
    (h : c ∈ " $()[]\x7b\x7d<>+-/*=!?#%&\x27:;,".toList) : beforeSnippet c ∧ isWordChar c = false := by
  have hall : " $()[]\x7b\x7d<>+-/*=!?#%&\x27:;,".toList.all
      fun c => beforeSnippet c && !isWordChar c := by
    decide +kernel
  simpa using List.all_eq_true.mp hall c h

theorem mayStart_of_opensCall {before : Text} (h : OpensCall before) :
    mayStart beforeSnippet true before := by
  rcases h with rfl | ⟨c, hlast, hc⟩
  · rfl
  · obtain ⟨init, rfl⟩ := List.getLast?_eq_some_iff.mp hlast
    rw [mayStart_concat]
    exact (beforeSnippet_of_mem hc).1

/-- A word is read up to the first character that cannot be in it. -/
theorem readSnippet?_word {word t : Text} {c : Char} (hword : IsWord word)
    (hc : isWordChar c = false) :
    readSnippet? (word ++ c :: t) =
      if c :: t = ['@'] then some (word, none)
      else (readArgument? (c :: t)).map fun a => (word, some a) := by
  have hneg : ¬ isWordChar c := by simp [hc]
  have htake : (word ++ c :: t).takeWhile isWordChar = word := by
    rw [List.takeWhile_append_of_pos hword.2, List.takeWhile_cons_of_neg hneg, List.append_nil]
  have hdrop : (word ++ c :: t).dropWhile isWordChar = c :: t := by
    rw [List.dropWhile_append_of_pos hword.2, List.dropWhile_cons_of_neg hneg]
  rw [readSnippet?_of_ne_nil (by rw [htake]; exact hword.1), htake, hdrop]

/-- A word and an argument in parentheses are read as a call. -/
theorem readSnippet?_call {word inner : Text} (hword : IsWord word) (hinner : '\n' ∉ inner) :
    readSnippet? (word ++ '(' :: (inner ++ [')', '@'])) =
      some (word, some ('(' :: (inner ++ [')']))) := by
  rw [readSnippet?_word hword (by decide), if_neg (by simp),
    readArgument?_eq_some_iff.mpr ⟨inner, hinner, rfl, rfl⟩, Option.map_some]

/-- A text that ends with punctuation is a word, perhaps an empty one, up to a character that
cannot be in it. -/
theorem exists_word_of_opensCall {part : Text} (hpart : part ≠ []) (hopens : OpensCall part) :
    ∃ word c rest, part = word ++ c :: rest ∧ (∀ d ∈ word, isWordChar d) ∧
      isWordChar c = false := by
  obtain ⟨last, hlast, hmark⟩ := hopens.resolve_left hpart
  have hfind : (part.find? fun d => !isWordChar d).isSome := by
    rw [List.find?_isSome]
    exact ⟨last, List.mem_of_getLast? hlast, by rw [(beforeSnippet_of_mem hmark).2]; rfl⟩
  obtain ⟨c, hfound⟩ := Option.isSome_iff_exists.mp hfind
  obtain ⟨hc, word, rest, rfl, hword⟩ := List.find?_eq_some_iff_append.mp hfound
  exact ⟨word, c, rest, rfl, by simpa using hword, by simpa using hc⟩

/-- What is read from an earlier place than a call opens an earlier call. -/
theorem exists_of_readSnippet? {part word argument : Text} {found : Text × Option Text}
    (hpart : part ≠ []) (hopens : OpensCall part)
    (h : readSnippet? (callLine part word argument) = some found) :
    ∃ earlier rest, part = earlier ++ '(' :: rest ∧ IsWord earlier ∧ '\n' ∉ rest ∧
      found = (earlier, some ('(' :: (rest ++ (word ++ '(' :: (argument ++ [')']))))) := by
  obtain ⟨earlier, c, rest, rfl, hearlier, hc⟩ := exists_word_of_opensCall hpart hopens
  have hline : callLine (earlier ++ c :: rest) word argument =
      earlier ++ c :: (rest ++ (word ++ '(' :: (argument ++ [')', '@']))) := by
    rw [callLine, List.append_assoc, List.cons_append]
  rw [hline] at h
  have hne : earlier ≠ [] := by
    rintro rfl
    rw [List.nil_append, readSnippet?, List.takeWhile_cons_of_neg (by simp [hc])] at h
    contradiction
  rw [readSnippet?_word ⟨hne, hearlier⟩ hc, if_neg (by simp)] at h
  obtain ⟨a, hread, rfl⟩ := Option.map_eq_some_iff.mp h
  obtain ⟨inner, hinner, htext, rfl⟩ := readArgument?_eq_some_iff.mp hread
  obtain ⟨rfl, htail⟩ := List.cons.inj htext
  have hparts : inner = rest ++ (word ++ '(' :: argument) := by
    have hsame : inner ++ [')', '@'] = rest ++ (word ++ '(' :: argument) ++ [')', '@'] := by
      rw [← htail]
      simp
    exact List.append_cancel_right hsame
  refine ⟨earlier, rest, rfl, ⟨hne, hearlier⟩, fun hmem => hinner ?_, ?_⟩
  · rw [hparts]
    exact List.mem_append_left _ hmem
  · rw [hparts]
    simp

/-! ### The call before the cursor -/

theorem detect?_call {before word argument : Text} (cursor : Position)
    (himport : (callLine before word argument).beginsWith "#import".toList = false) :
    detect? (callLine before word argument) cursor =
      (scanTails beforeSnippet readSnippet? 0 true (callLine before word argument)).map
        fun (column, word, argument) => ⟨.snippet, word, argument, ⟨cursor.line, column⟩⟩ := by
  have hlast : (callLine before word argument).getLast? = some '@' := by
    simp [callLine, List.getLast?_append, List.getLast?_cons]
  rw [detect?, hlast]
  dsimp only
  rw [if_pos rfl, if_neg (by rw [himport]; exact Bool.false_ne_true)]

theorem IsWord.feed_notMem {word : Text} (h : IsWord word) : '\n' ∉ word := fun hmem =>
  absurd (h.2 _ hmem) (by decide)

section

variable {before word argument : Text}

/-- What is read before the call in its line is an earlier call, and its argument goes on to the
end of the line. -/
theorem exists_earlier (hopens : OpensCall before) {dropped tail : Text}
    {found : Text × Option Text} (htext : callLine before word argument = dropped ++ tail)
    (hstart : mayStart beforeSnippet true dropped) (hlt : dropped.length < before.length)
    (hfound : readSnippet? tail = some found) :
    ∃ earlier rest, OpensEarlier before dropped earlier rest ∧
      found = (earlier, some ('(' :: (rest ++ (word ++ '(' :: (argument ++ [')']))))) := by
  obtain ⟨part, rfl, rfl⟩ : ∃ part, before = dropped ++ part ∧
      tail = callLine part word argument := by
    rcases List.append_eq_append_iff.mp htext with ⟨part, rfl, -⟩ | hpart
    · rw [List.length_append] at hlt
      omega
    · exact hpart
  have hne : part ≠ [] := by
    rintro rfl
    rw [List.append_nil] at hlt
    exact absurd hlt (Nat.lt_irrefl _)
  have hpart : OpensCall part := by
    obtain ⟨c, hlast, hc⟩ := hopens.resolve_left (by simp [hne])
    rw [List.getLast?_append, List.getLast?_eq_some_getLast hne, Option.some_or,
      ← List.getLast?_eq_some_getLast hne] at hlast
    exact Or.inr ⟨c, hlast, hc⟩
  obtain ⟨earlier, rest, rfl, hearlier, hrest, rfl⟩ := exists_of_readSnippet? hne hpart hfound
  exact ⟨earlier, rest, ⟨rfl, hstart, hearlier, hrest⟩, rfl⟩

/-- Behind no earlier call, the call is the first end of its line that can be read. -/
theorem firstTail_call (hopens : OpensCall before)
    (hnone : ¬ ∃ dropped earlier rest, OpensEarlier before dropped earlier rest) :
    FirstTail beforeSnippet readSnippet? true (callLine before word argument) before
      (word ++ '(' :: (argument ++ [')', '@'])) := by
  refine ⟨rfl, mayStart_of_opensCall hopens, fun dropped tail htext hstart hlt => ?_⟩
  cases hread : readSnippet? tail with
  | none => rfl
  | some found =>
      obtain ⟨earlier, rest, hearlier, -⟩ := exists_earlier hopens htext hstart hlt hread
      exact absurd ⟨dropped, earlier, rest, hearlier⟩ hnone

/-- An earlier call can be read, with the rest of the line for its argument. -/
theorem OpensEarlier.exists_read {dropped earlier rest : Text}
    (h : OpensEarlier before dropped earlier rest) (hword : IsWord word)
    (hargument : '\n' ∉ argument) :
    ∃ tail, callLine before word argument = dropped ++ tail ∧
      ∃ found, readSnippet? tail = some found := by
  have hinner : '\n' ∉ rest ++ (word ++ '(' :: argument) := by
    simp [h.line, hword.feed_notMem, hargument]
  refine ⟨earlier ++ '(' :: (rest ++ (word ++ '(' :: argument) ++ [')', '@']), ?_, _,
    readSnippet?_call h.word hinner⟩
  rw [callLine, h.text]
  simp

/-- An earlier call starts before the text it is in ends. -/
theorem OpensEarlier.length_lt {dropped earlier rest : Text}
    (h : OpensEarlier before dropped earlier rest) : dropped.length < before.length := by
  rw [h.text, List.length_append, List.length_append, List.length_cons]
  omega

theorem OpensEarlier.units_lt {dropped earlier rest : Text}
    (h : OpensEarlier before dropped earlier rest) : dropped.units < before.units := by
  have hpos := Text.charUnits_pos '('
  rw [h.text, Text.units_append, Text.units_append, Text.units_cons]
  omega

end

/-- **A call before the cursor is found exactly if no earlier word of its line is followed by an
opening parenthesis**; otherwise such an earlier call is found, and the rest of the line is its
argument. -/
theorem call_found_iff (before word argument : Text) (cursor : Position)
    (hopens : OpensCall before) (hword : IsWord word) (hargument : '\n' ∉ argument)
    (himport : (callLine before word argument).beginsWith "#import".toList = false) :
    (detect? (callLine before word argument) cursor =
        some ⟨.snippet, word, some ('(' :: (argument ++ [')'])), ⟨cursor.line, before.units⟩⟩ ↔
      ¬ ∃ dropped earlier rest, OpensEarlier before dropped earlier rest) ∧
    ((∃ dropped earlier rest, OpensEarlier before dropped earlier rest) →
      ∃ dropped earlier rest, OpensEarlier before dropped earlier rest ∧
        detect? (callLine before word argument) cursor =
          some ⟨.snippet, earlier, some ('(' :: (rest ++ (word ++ '(' :: (argument ++ [')'])))),
            ⟨cursor.line, dropped.units⟩⟩) := by
  have hswallowed : (∃ dropped earlier rest, OpensEarlier before dropped earlier rest) →
      ∃ dropped earlier rest, OpensEarlier before dropped earlier rest ∧
        scanTails beforeSnippet readSnippet? 0 true (callLine before word argument) =
          some (dropped.units, earlier,
            some ('(' :: (rest ++ (word ++ '(' :: (argument ++ [')']))))) := by
    rintro ⟨_, _, _, hearlier⟩
    obtain ⟨tail, htext, found, hfound⟩ := hearlier.exists_read hword hargument
    obtain ⟨dropped, tail, hfirst, found, hfound, hle⟩ :=
      exists_firstTail rfl htext hearlier.start hfound
    obtain ⟨earlier, rest, hother, rfl⟩ := exists_earlier hopens hfirst.text hfirst.start
      (Nat.lt_of_le_of_lt hle hearlier.length_lt) hfound
    exact ⟨dropped, earlier, rest, hother,
      (scanTails_eq_some_iff rfl).mpr ⟨dropped, tail, hfirst, hfound, rfl⟩⟩
  rw [detect?_call cursor himport]
  refine ⟨⟨fun hdetect hearlier => ?_, fun hnone => ?_⟩, fun hearlier => ?_⟩
  · obtain ⟨dropped, earlier, rest, hother, hscan⟩ := hswallowed hearlier
    rw [hscan, Option.map_some, Option.some.injEq, Query.mk.injEq, Position.mk.injEq] at hdetect
    exact absurd hdetect.2.2.2.2 (Nat.ne_of_lt hother.units_lt)
  · rw [(scanTails_eq_some_iff rfl).mpr ⟨before, _, firstTail_call hopens hnone,
      readSnippet?_call hword hargument, rfl⟩, Option.map_some]
  · obtain ⟨dropped, earlier, rest, hother, hscan⟩ := hswallowed hearlier
    exact ⟨dropped, earlier, rest, hother, by rw [hscan, Option.map_some]⟩

/-- The parentheses of a sum open no earlier call, so the call behind the sum is found. -/
theorem call_behind_sum :
    detect? (callLine "𝔸 + (x) - ".toList "mat".toList "2,3".toList) ⟨0, 20⟩ =
        some ⟨.snippet, "mat".toList, some "(2,3)".toList, ⟨0, 11⟩⟩ ∧
      ¬ ∃ dropped earlier rest, OpensEarlier "𝔸 + (x) - ".toList dropped earlier rest := by
  have hdetect : detect? (callLine "𝔸 + (x) - ".toList "mat".toList "2,3".toList) ⟨0, 20⟩ =
      some ⟨.snippet, "mat".toList, some "(2,3)".toList, ⟨0, 11⟩⟩ := by
    decide +kernel
  have hopens : OpensCall "𝔸 + (x) - ".toList := Or.inr ⟨' ', by decide, by decide⟩
  have hword : IsWord "mat".toList := ⟨by decide, List.all_eq_true.mp (by decide)⟩
  exact ⟨hdetect, (call_found_iff _ _ _ ⟨0, 20⟩ hopens hword (by decide)
    (by decide +kernel)).1.mp hdetect⟩

/-- A call behind another one is not found: its text is taken for the argument of the first. -/
theorem call_behind_call :
    OpensCall "f(x) + ".toList ∧ IsWord "mat".toList ∧
      callLine "f(x) + ".toList "mat".toList "2,3".toList = "f(x) + mat(2,3)@".toList ∧
      detect? "f(x) + mat(2,3)@".toList ⟨0, 16⟩ =
        some ⟨.snippet, "f".toList, some "(x) + mat(2,3)".toList, ⟨0, 0⟩⟩ ∧
      detect? "f(x) + mat(2,3)@".toList ⟨0, 16⟩ ≠
        some ⟨.snippet, "mat".toList, some "(2,3)".toList, ⟨0, 7⟩⟩ := by
  have hword : IsWord "mat".toList := ⟨by decide, List.all_eq_true.mp (by decide)⟩
  refine ⟨Or.inr ⟨' ', by decide, by decide⟩, hword, by decide, ?_, ?_⟩
  · decide +kernel
  · decide +kernel

end Query

end MathTyping
