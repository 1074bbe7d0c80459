import MathTyping.Json.Printer
import MathTyping.Json.Reader
import Mathlib.Data.List.TakeDrop

/-!
# Reading what was printed

A value that is written on one line is read back as it was, unless it holds a broken
string, which has no text, or a decimal, which may be written with other digits than
its own.

A string is read back one escape at a time.  A number has no closing token, so it is
read back only in front of a text that cannot go on with it; within a value that is
what always follows.  The reader counts its calls down, and twice as many of them as
there are characters are enough.
-/

namespace MathTyping

namespace Json

/-- A value without broken strings and decimals. -/
inductive Plain : Json → Prop where
  | null : Plain null
  | bool (b : Bool) : Plain (bool b)
  | integer (n : Int) : Plain (integer n)
  | string (t : Text) : Plain (string t)
  | array {items : List Json} : (∀ j ∈ items, Plain j) → Plain (array items)
  | object {members : List (Text × Json)} :
      (∀ m ∈ members, Plain m.2) → Plain (object members)

/-! ## Strings -/

theorem hex4_control :
    ∀ n < 0x20, hex4 n = ['0', '0', (n / 16).digitChar, (n % 16).digitChar] := by
  decide +kernel

theorem hexDigit?_digitChar : ∀ d < 16, hexDigit? d.digitChar = some d := by
  decide

/-- The four digits of a control character are read back. -/
theorem readHex4?_hex4 {n : Nat} (hn : n < 0x20) (rest : Text) :
    readHex4? (hex4 n ++ rest) = some (n, rest) := by
  have hzero : hexDigit? '0' = some 0 := hexDigit?_digitChar 0 (by decide)
  have hhigh := hexDigit?_digitChar (n / 16) (by omega)
  have hlow := hexDigit?_digitChar (n % 16) (by omega)
  have hvalue : ((0 * 16 + 0) * 16 + n / 16) * 16 + n % 16 = n := by omega
  rw [hex4_control n hn]
  simp only [List.cons_append, List.nil_append, readHex4?, hzero, hhigh, hlow,
    Option.bind_eq_bind, Option.bind_some, hvalue, Option.pure_def]

theorem readEscape?_control {c : Char} (hc : c.toNat < 0x20) (rest : Text) :
    readEscape? ('u' :: (hex4 c.toNat ++ rest)) = some (some c, rest) := by
  show readUnit? (hex4 c.toNat ++ rest) = _
  rw [readUnit?, readHex4?_hex4 hc, Option.bind_eq_bind, Option.bind_some]
  show (if 0xD800 ≤ c.toNat ∧ c.toNat < 0xDC00 then _ else _) = _
  rw [if_neg (by omega), if_neg (by omega), Char.ofNat_toNat]
  rfl

/-- A character is written as an escape that stands for it, or bare. -/
theorem escapeChar_cases (c : Char) :
    (∃ e, escapeChar c = '\\' :: e ∧ ∀ rest, readEscape? (e ++ rest) = some (some c, rest)) ∨
      (escapeChar c = [c] ∧ c ≠ '"' ∧ c ≠ '\\' ∧ ¬ c.toNat < 0x20) := by
  unfold escapeChar
  by_cases hquote : c = '"'
  · exact .inl ⟨['"'], if_pos hquote, fun rest => by rw [hquote]; rfl⟩
  by_cases hslash : c = '\\'
  · exact .inl ⟨['\\'], by rw [if_neg hquote, if_pos hslash], fun rest => by rw [hslash]; rfl⟩
  rw [if_neg hquote, if_neg hslash]
  -- The other escapes, in the order in which they are tried.
  split
  case isTrue h => exact .inl ⟨['n'], rfl, fun rest => by rw [h]; rfl⟩
  split
  case isTrue h => exact .inl ⟨['r'], rfl, fun rest => by rw [h]; rfl⟩
  split
  case isTrue h => exact .inl ⟨['t'], rfl, fun rest => by rw [h]; rfl⟩
  split
  case isTrue h => exact .inl ⟨['b'], rfl, fun rest => by rw [h]; rfl⟩
  split
  case isTrue h => exact .inl ⟨['f'], rfl, fun rest => by rw [h]; rfl⟩
  split
  case isTrue h => exact .inl ⟨_, rfl, readEscape?_control h⟩
  case isFalse h => exact .inr ⟨rfl, hquote, hslash, h⟩

theorem escapeChar_ne_nil (c : Char) : escapeChar c ≠ [] := by
  obtain ⟨e, he, -⟩ | ⟨hbare, -⟩ := escapeChar_cases c
  · rw [he]
    exact List.cons_ne_nil _ _
  · rw [hbare]
    exact List.cons_ne_nil _ _

/-- One written character is one piece. -/
theorem readPieces?_escapeChar (c : Char) (t : Text) (fuel : Nat) :
    readPieces? (fuel + 1) (escapeChar c ++ t) =
      (readPieces? fuel t).map fun p => (some c :: p.1, p.2) := by
  obtain ⟨e, he, hread⟩ | ⟨hbare, hquote, hslash, hcontrol⟩ := escapeChar_cases c
  · rw [he, List.cons_append]
    show (readEscape? (e ++ t)).bind _ = _
    rw [hread, Option.bind_some]
    show (readPieces? fuel t).bind _ = _
    cases readPieces? fuel t with
    | none => rfl
    | some p => rfl
  · rw [hbare, List.cons_append, List.nil_append, readPieces?]
    · rw [if_neg hcontrol]
      cases readPieces? fuel t with
      | none => rfl
      | some p => rfl
    · exact hquote
    · exact hslash

theorem readPieces?_literal (t rest : Text) {fuel : Nat} (hfuel : t.length < fuel) :
    readPieces? fuel (t.flatMap escapeChar ++ '"' :: rest) = some (t.map some, rest) := by
  induction t generalizing fuel with
  | nil =>
      obtain ⟨fuel, rfl⟩ := Nat.exists_eq_succ_of_ne_zero (Nat.ne_of_gt hfuel)
      rfl
  | cons c t ih =>
      obtain ⟨fuel, rfl⟩ := Nat.exists_eq_succ_of_ne_zero (Nat.ne_of_gt (Nat.zero_lt_of_lt hfuel))
      have hrest := ih (Nat.lt_of_succ_lt_succ hfuel)
      rw [List.flatMap_cons, List.append_assoc, readPieces?_escapeChar, hrest]
      rfl

theorem length_le_length_escaped (t : Text) : t.length ≤ (t.flatMap escapeChar).length := by
  induction t with
  | nil => exact Nat.le_refl _
  | cons c t ih =>
      have hpos := List.length_pos_iff.mpr (escapeChar_ne_nil c)
      rw [List.flatMap_cons, List.length_append, List.length_cons]
      omega

theorem whole_of_pieces (t : Text) :
    (t.map some).foldr (fun (p : Piece) acc => do pure ((← p) :: (← acc))) (some []) = some t := by
  induction t with
  | nil => rfl
  | cons c t ih =>
      rw [List.map_cons, List.foldr_cons, ih]
      rfl

/-- **A string literal reads back as its text.** -/
theorem readString?_literal (t rest : Text) :
    readString? (t.flatMap escapeChar ++ '"' :: rest) = some (some t, rest) := by
  have hlength : t.length < (t.flatMap escapeChar ++ '"' :: rest).length + 1 := by
    have hescaped := length_le_length_escaped t
    rw [List.length_append]
    omega
  rw [readString?, readPieces?_literal t rest hlength, Option.bind_eq_bind, Option.bind_some]
  exact congrArg (fun s => some (s, rest)) (whole_of_pieces t)

/-! ## Numbers -/

/-- A text that cannot go on with a number. -/
def EndsNumber (rest : Text) : Prop :=
  ∀ c ∈ rest.head?, c.isDigit = false ∧ c ≠ '.' ∧ c ≠ 'e' ∧ c ≠ 'E'

theorem EndsNumber.nil : EndsNumber [] := fun _ h => nomatch h

theorem spanDigits_append {ds rest : Text} (hds : ∀ c ∈ ds, c.isDigit = true)
    (hrest : EndsNumber rest) : spanDigits (ds ++ rest) = (ds, rest) := by
  have hnone : rest.takeWhile Char.isDigit = [] ∧ rest.dropWhile Char.isDigit = rest := by
    cases rest with
    | nil => exact ⟨rfl, rfl⟩
    | cons c r =>
        have hc := (hrest c rfl).1
        exact ⟨List.takeWhile_cons_of_neg (by rw [hc]; decide),
          List.dropWhile_cons_of_neg (by rw [hc]; decide)⟩
  rw [spanDigits, List.span_eq_takeWhile_dropWhile, List.takeWhile_append_of_pos hds,
    List.dropWhile_append_of_pos hds, hnone.1, hnone.2, List.append_nil]

theorem digitsValue_toDigits (n : Nat) : digitsValue (Nat.toDigits 10 n) = n := by
  have hstep : (fun (v : Nat) (c : Char) => v * 10 + (c.toNat - 48)) =
      fun v c => 10 * v + (c.toNat - '0'.toNat) := by
    funext v c
    rw [Nat.mul_comm]
    rfl
  rw [digitsValue, hstep, ← Nat.ofDigitChars_eq_foldl, Nat.ofDigitChars_ten_toDigits]

/-- Only zero is written with a zero in front. -/
theorem toDigits_of_leading_zero {n : Nat} {ds : Text} (h : Nat.toDigits 10 n = '0' :: ds) :
    ds = [] := by
  induction n using Nat.strongRecOn generalizing ds with
  | ind n ih =>
      by_cases hn : n < 10
      · rw [Nat.toDigits_of_lt_base hn] at h
        exact (List.cons.inj h).2.symm
      · rw [Nat.toDigits_of_base_le (by decide) (Nat.le_of_not_lt hn)] at h
        cases hhigh : Nat.toDigits 10 (n / 10) with
        | nil => exact absurd hhigh Nat.toDigits_ne_nil
        | cons c high =>
            rw [hhigh, List.cons_append] at h
            obtain ⟨rfl, -⟩ := List.cons.inj h
            -- The higher digits are those of zero, yet there is something to write.
            obtain rfl := ih (n / 10) (by omega) hhigh
            have hzero := digitsValue_toDigits (n / 10)
            rw [hhigh] at hzero
            have : n / 10 = 0 := hzero.symm
            omega

theorem isDigit_of_mem_toDigits {n : Nat} {c : Char} (hc : c ∈ Nat.toDigits 10 n) :
    c.isDigit = true :=
  Nat.isDigit_of_mem_toDigits (by decide) (by decide) hc

theorem readWhole?_toDigits (n : Nat) {rest : Text} (hrest : EndsNumber rest) :
    readWhole? (Nat.toDigits 10 n ++ rest) = some (Nat.toDigits 10 n, rest) := by
  have hspan := spanDigits_append (fun c => isDigit_of_mem_toDigits (n := n)) hrest
  unfold readWhole?
  rw [hspan]
  split
  case h_1 h => exact absurd (congrArg Prod.fst h) Nat.toDigits_ne_nil
  case h_2 h => exact absurd (toDigits_of_leading_zero (congrArg Prod.fst h)) (List.cons_ne_nil _ _)
  case h_3 h =>
      obtain ⟨rfl, rfl⟩ := Prod.mk.inj h
      rfl

theorem readFraction?_end {rest : Text} (hrest : EndsNumber rest) :
    readFraction? rest = some ([], rest) := by
  cases rest with
  | nil => rfl
  | cons c r =>
      rw [readFraction?]
      rintro r' ⟨⟩
      exact (hrest _ rfl).2.1 rfl

theorem readExponent?_end {rest : Text} (hrest : EndsNumber rest) :
    readExponent? rest = some (none, rest) := by
  cases rest with
  | nil => rfl
  | cons c r =>
      have hc := (hrest c rfl).2.2
      show (if c = 'e' ∨ c = 'E' then _ else _) = _
      rw [if_neg (not_or.mpr hc)]

/-- The text of an integer is that of its size, behind a sign if it is negative. -/
theorem integerText_cases (n : Int) :
    (∃ m : Nat, n = m ∧ integerText n = Nat.toDigits 10 m) ∨
      ∃ m : Nat, m ≠ 0 ∧ n = -m ∧ integerText n = '-' :: Nat.toDigits 10 m := by
  cases n with
  | ofNat m => exact .inl ⟨m, rfl, Nat.toList_repr⟩
  | negSucc m =>
      refine .inr ⟨m + 1, Nat.succ_ne_zero m, rfl, ?_⟩
      show ("-" ++ (m + 1).repr).toList = _
      rw [String.toList_append, Nat.toList_repr]
      rfl

/-- **An integer reads back**, if what follows cannot go on with it. -/
theorem readNumber?_integerText (n : Int) {rest : Text} (hrest : EndsNumber rest) :
    readNumber? (integerText n ++ rest) = some (integer n, rest) := by
  obtain ⟨m, rfl, htext⟩ | ⟨m, hm, rfl, htext⟩ := integerText_cases n
  · rw [htext, readNumber?]
    · simp only [readWhole?_toDigits m hrest, readFraction?_end hrest, readExponent?_end hrest,
        Option.bind_eq_bind, Option.bind_some, digitsValue_toDigits, Bool.false_eq_true, if_false,
        Option.pure_def]
    · -- A minus in front would be one of the digits.
      intro r hsign
      obtain ⟨ds, hds⟩ : ∃ ds, Nat.toDigits 10 m = '-' :: ds := by
        cases hm : Nat.toDigits 10 m with
        | nil => exact absurd hm Nat.toDigits_ne_nil
        | cons c ds =>
            rw [hm, List.cons_append] at hsign
            exact ⟨ds, by rw [(List.cons.inj hsign).1]⟩
      have hdigit : '-'.isDigit = true :=
        isDigit_of_mem_toDigits (n := m) (by rw [hds]; exact List.mem_cons_self)
      exact absurd hdigit (by decide)
  · rw [htext, List.cons_append]
    unfold readNumber?
    simp only [readWhole?_toDigits m hrest, readFraction?_end hrest, readExponent?_end hrest,
      Option.bind_eq_bind, Option.bind_some, digitsValue_toDigits, if_neg hm, if_true,
      Option.pure_def]

/-! ## Values -/

/-- A value that reads back from its text, whatever follows that text. -/
def ReadsBack (j : Json) : Prop :=
  ∀ (fuel : Nat) (rest : Text), 2 * (compact j).length ≤ fuel → EndsNumber rest →
    readValue? (fuel + 1) (compact j ++ rest) = some (j, rest)

theorem skipSpace_cons {c : Char} (hc : isSpace c = false) (t : Text) :
    skipSpace (c :: t) = c :: t :=
  List.dropWhile_cons_of_neg (by rw [hc]; decide)

/-- The text of an integer begins with a sign or a digit. -/
theorem integerText_start (n : Int) :
    ∃ c t, integerText n = c :: t ∧ ∀ d : Char, d.isDigit = false → d ≠ '-' → c ≠ d := by
  obtain ⟨m, -, htext⟩ | ⟨m, -, -, htext⟩ := integerText_cases n
  · cases hm : Nat.toDigits 10 m with
    | nil => exact absurd hm Nat.toDigits_ne_nil
    | cons c t =>
        refine ⟨c, t, htext.trans hm, ?_⟩
        rintro d hdigit - rfl
        have hc : c.isDigit = true := isDigit_of_mem_toDigits (hm ▸ List.mem_cons_self)
        exact absurd (hdigit.symm.trans hc) (by decide)
  · exact ⟨'-', _, htext, fun d _ hminus => hminus.symm⟩

/-- The text of a plain value begins neither with a blank nor with a closing bracket. -/
theorem compact_start {j : Json} (hj : Plain j) :
    ∃ c t, compact j = c :: t ∧ isSpace c = false ∧ c ≠ ']' := by
  cases hj with
  | null => exact ⟨'n', _, rfl, by decide, by decide⟩
  | bool b =>
      cases b with
      | true => exact ⟨'t', _, rfl, by decide, by decide⟩
      | false => exact ⟨'f', _, rfl, by decide, by decide⟩
  | integer n =>
      obtain ⟨c, t, htext, hne⟩ := integerText_start n
      refine ⟨c, t, htext, ?_, hne ']' (by decide) (by decide)⟩
      have hblank := hne ' ' (by decide) (by decide)
      have hline := hne '\n' (by decide) (by decide)
      have htab := hne '\t' (by decide) (by decide)
      have hreturn := hne '\r' (by decide) (by decide)
      simp [isSpace, hblank, hline, htab, hreturn]
  | string t => exact ⟨'"', _, rfl, by decide, by decide⟩
  | array _ => exact ⟨'[', _, rfl, by decide, by decide⟩
  | object _ => exact ⟨'\x7b', _, rfl, by decide, by decide⟩

theorem skipSpace_compact {j : Json} (hj : Plain j) (rest : Text) :
    skipSpace (compact j ++ rest) = compact j ++ rest := by
  obtain ⟨c, t, htext, hspace, -⟩ := compact_start hj
  rw [htext, List.cons_append, skipSpace_cons hspace]

theorem readsBack_integer (n : Int) : ReadsBack (integer n) := by
  intro fuel rest _ hrest
  obtain ⟨c, t, htext, hne⟩ := integerText_start n
  have hcompact : compact (integer n) = integerText n := rfl
  have hnumber := readNumber?_integerText n hrest
  rw [readValue?, skipSpace_compact (.integer n), hcompact, htext, List.cons_append]
  rw [htext, List.cons_append] at hnumber
  split
  case h_7 => exact hnumber
  -- No other token begins like a number.
  all_goals
    rename_i h
    exact absurd (List.cons.inj h).1 (hne _ (by decide) (by decide))

theorem readsBack_string (t : Text) : ReadsBack (string t) := by
  intro fuel rest _ _
  show readValue? (fuel + 1) ('"' :: (t.flatMap escapeChar ++ ['"'] ++ rest)) = _
  rw [readValue?, skipSpace_cons (by decide), List.append_assoc, List.singleton_append]
  show (readString? _).bind _ = _
  rw [readString?_literal]
  rfl

theorem EndsNumber.of_mark {c : Char} (hc : c.isDigit = false ∧ c ≠ '.' ∧ c ≠ 'e' ∧ c ≠ 'E')
    (t : Text) : EndsNumber (c :: t) := by
  rintro d ⟨⟩
  exact hc

/-- Behind an opening bracket come items, unless the closing one follows. -/
theorem readValue?_bracket {t r : Text} {c : Char} (ht : skipSpace t = c :: r) (hc : c ≠ ']')
    (fuel : Nat) :
    readValue? (fuel + 1) ('[' :: t) =
      (readItems? fuel (c :: r)).bind fun p => some (array p.1, p.2) := by
  rw [readValue?, skipSpace_cons (by decide)]
  simp only [ht]
  split
  case h_1 h => exact absurd (List.cons.inj h).1 hc
  case h_2 => rfl

/-- Behind an opening brace come members, unless the closing one follows. -/
theorem readValue?_brace {t r : Text} {c : Char} (ht : skipSpace t = c :: r) (hc : c ≠ '\x7d')
    (fuel : Nat) :
    readValue? (fuel + 1) ('\x7b' :: t) =
      (readMembers? fuel (c :: r)).bind fun p => some (p.1.elim broken object, p.2) := by
  rw [readValue?, skipSpace_cons (by decide)]
  simp only [ht]
  split
  case h_1 h => exact absurd (List.cons.inj h).1 hc
  case h_2 =>
      cases readMembers? fuel (c :: r) with
      | none => rfl
      | some p =>
          obtain ⟨members, rest⟩ := p
          cases members <;> rfl

/-- Items that read back one by one read back as a list. -/
theorem readItems?_compact {items : List Json} (hne : items ≠ [])
    (hitems : ∀ j ∈ items, ReadsBack j) {fuel : Nat}
    (hfuel : 2 * (compactItems items).length + 1 ≤ fuel) (rest : Text) :
    readItems? (fuel + 1) (compactItems items ++ ']' :: rest) = some (items, rest) := by
  induction items generalizing fuel with
  | nil => exact absurd rfl hne
  | cons j js ih =>
      obtain ⟨fuel, rfl⟩ := Nat.exists_eq_succ_of_ne_zero (n := fuel) (by omega)
      have hj : ReadsBack j := hitems j List.mem_cons_self
      cases js with
      | nil =>
          have hvalue := hj fuel (']' :: rest) (Nat.le_of_succ_le_succ hfuel) (.of_mark (by decide) _)
          show (readValue? (fuel + 1) (compact j ++ ']' :: rest)).bind _ = _
          rw [hvalue]
          rfl
      | cons j' js =>
          have htext : compactItems (j :: j' :: js) =
              compact j ++ ',' :: compactItems (j' :: js) := by
            rw [compactItems]
            exact List.cons_ne_nil _ _
          -- The item and the items behind the comma are read with one call less.
          rw [htext, List.length_append, List.length_cons] at hfuel
          have hvalue := hj fuel (',' :: (compactItems (j' :: js) ++ ']' :: rest)) (by omega)
            (.of_mark (by decide) _)
          have hothers : readItems? (fuel + 1) (compactItems (j' :: js) ++ ']' :: rest) =
              some (j' :: js, rest) :=
            ih (List.cons_ne_nil _ _) (fun i hi => hitems i (List.mem_cons_of_mem _ hi)) (by omega)
          rw [htext, List.append_assoc, List.cons_append, readItems?, hvalue]
          show (readItems? (fuel + 1) (compactItems (j' :: js) ++ ']' :: rest)).bind _ = _
          rw [hothers]
          rfl

theorem compactItems_start {j : Json} (hj : Plain j) (js : List Json) :
    ∃ c t, compactItems (j :: js) = c :: t ∧ isSpace c = false ∧ c ≠ ']' := by
  obtain ⟨c, t, htext, hmark⟩ := compact_start hj
  cases js with
  | nil => exact ⟨c, t, htext, hmark⟩
  | cons j' js =>
      refine ⟨c, t ++ ',' :: compactItems (j' :: js), ?_, hmark⟩
      rw [compactItems, htext, List.cons_append]
      exact List.cons_ne_nil _ _

theorem readsBack_array {items : List Json} (hplain : ∀ j ∈ items, Plain j)
    (hitems : ∀ j ∈ items, ReadsBack j) : ReadsBack (array items) := by
  intro fuel rest hfuel _
  have htext : compact (array items) = '[' :: (compactItems items ++ [']']) := by
    rw [compact]
  rw [htext, List.length_cons, List.length_append, List.length_singleton] at hfuel
  rw [htext, List.cons_append, List.append_assoc, List.singleton_append]
  cases items with
  | nil => rfl
  | cons j js =>
      obtain ⟨fuel, rfl⟩ := Nat.exists_eq_succ_of_ne_zero (n := fuel) (by omega)
      have hread := readItems?_compact (List.cons_ne_nil j js) hitems
        (show 2 * (compactItems (j :: js)).length + 1 ≤ fuel by omega) rest
      obtain ⟨c, t, hstart, hspace, hend⟩ := compactItems_start (hplain j List.mem_cons_self) js
      rw [hstart, List.cons_append] at hread ⊢
      rw [readValue?_bracket (skipSpace_cons hspace _) hend, hread]
      rfl

/-- Reading a member: the value behind the name, then the end or the other members. -/
theorem readMembers?_name (k t : Text) (fuel : Nat) :
    readMembers? (fuel + 1) (literal k ++ ':' :: t) =
      (readValue? fuel t).bind fun p =>
        match skipSpace p.2 with
        | '\x7d' :: r => some (some [(k, p.1)], r)
        | ',' :: r => do
            let (others, r) ← readMembers? fuel r
            pure (do pure ((k, p.1) :: (← others)), r)
        | _ => none := by
  have htext : literal k ++ ':' :: t = '"' :: (k.flatMap escapeChar ++ '"' :: ':' :: t) := by
    rw [literal, List.cons_append, List.append_assoc, List.singleton_append]
  rw [htext, readMembers?, skipSpace_cons (by decide)]
  show (readString? _).bind _ = _
  rw [readString?_literal]
  show (readValue? fuel t).bind _ = _
  cases readValue? fuel t with
  | none => rfl
  | some p => rfl

/-- Members whose values read back one by one read back as a list. -/
theorem readMembers?_compact {members : List (Text × Json)} (hne : members ≠ [])
    (hmembers : ∀ m ∈ members, ReadsBack m.2) {fuel : Nat}
    (hfuel : 2 * (compactMembers members).length + 1 ≤ fuel) (rest : Text) :
    readMembers? (fuel + 1) (compactMembers members ++ '\x7d' :: rest) =
      some (some members, rest) := by
  induction members generalizing fuel with
  | nil => exact absurd rfl hne
  | cons m ms ih =>
      obtain ⟨fuel, rfl⟩ := Nat.exists_eq_succ_of_ne_zero (n := fuel) (by omega)
      obtain ⟨k, v⟩ := m
      have hv : ReadsBack v := hmembers (k, v) List.mem_cons_self
      cases ms with
      | nil =>
          have htext : compactMembers [(k, v)] = literal k ++ ':' :: compact v := rfl
          rw [htext, List.length_append, List.length_cons] at hfuel
          have hvalue := hv fuel ('\x7d' :: rest) (by omega) (.of_mark (by decide) _)
          rw [htext, List.append_assoc, List.cons_append, readMembers?_name, hvalue]
          rfl
      | cons m' ms =>
          have htext : compactMembers ((k, v) :: m' :: ms) =
              literal k ++ ':' :: (compact v ++ ',' :: compactMembers (m' :: ms)) := by
            rw [compactMembers]
            exact List.cons_ne_nil _ _
          rw [htext, List.length_append, List.length_cons, List.length_append,
            List.length_cons] at hfuel
          have hvalue := hv fuel (',' :: (compactMembers (m' :: ms) ++ '\x7d' :: rest)) (by omega)
            (.of_mark (by decide) _)
          have hothers : readMembers? (fuel + 1) (compactMembers (m' :: ms) ++ '\x7d' :: rest) =
              some (some (m' :: ms), rest) :=
            ih (List.cons_ne_nil _ _) (fun i hi => hmembers i (List.mem_cons_of_mem _ hi))
              (by omega)
          rw [htext, List.append_assoc, List.cons_append, List.append_assoc, List.cons_append,
            readMembers?_name, hvalue]
          show (readMembers? (fuel + 1) (compactMembers (m' :: ms) ++ '\x7d' :: rest)).bind _ = _
          rw [hothers]
          rfl

theorem compactMembers_start (m : Text × Json) (ms : List (Text × Json)) :
    ∃ t, compactMembers (m :: ms) = '"' :: t := by
  cases ms with
  | nil => exact ⟨_, rfl⟩
  | cons m' ms =>
      rw [compactMembers]
      · exact ⟨_, rfl⟩
      · exact List.cons_ne_nil _ _

theorem readsBack_object {members : List (Text × Json)} (hmembers : ∀ m ∈ members, ReadsBack m.2) :
    ReadsBack (object members) := by
  intro fuel rest hfuel _
  have htext : compact (object members) = '\x7b' :: (compactMembers members ++ ['\x7d']) := by
    rw [compact]
  rw [htext, List.length_cons, List.length_append, List.length_singleton] at hfuel
  rw [htext, List.cons_append, List.append_assoc, List.singleton_append]
  cases members with
  | nil => rfl
  | cons m ms =>
      obtain ⟨fuel, rfl⟩ := Nat.exists_eq_succ_of_ne_zero (n := fuel) (by omega)
      have hread := readMembers?_compact (List.cons_ne_nil m ms) hmembers
        (show 2 * (compactMembers (m :: ms)).length + 1 ≤ fuel by omega) rest
      obtain ⟨t, hstart⟩ := compactMembers_start m ms
      rw [hstart, List.cons_append] at hread ⊢
      rw [readValue?_brace (skipSpace_cons (by decide) _) (by decide), hread]
      rfl

/-- Every plain value reads back from its text, whatever follows it. -/
theorem Plain.readsBack {j : Json} (hj : Plain j) : ReadsBack j := by
  induction hj with
  | null => exact fun _ _ _ _ => rfl
  | bool b =>
      cases b with
      | true => exact fun _ _ _ _ => rfl
      | false => exact fun _ _ _ _ => rfl
  | integer n => exact readsBack_integer n
  | string t => exact readsBack_string t
  -- That the items are plain is needed once more: none of them begins with a closing bracket.
  | array hplain ih => exact readsBack_array hplain ih
  | object _ ih => exact readsBack_object ih

/-- **A plain value is what its text on one line is read as.** -/
theorem parse?_compact {j : Json} (hj : Plain j) : parse? (compact j) = some j := by
  have hread := hj.readsBack (2 * (compact j).length + 1) [] (Nat.le_succ _) .nil
  rw [List.append_nil] at hread
  rw [parse?, hread]
  rfl

end Json

end MathTyping
