import MathTyping.Proofs.Guarded.Buffer
import MathTyping.Proofs.Region.Delimiters

/-!
# Guarded scans for delimiters

The scan for display markers reads the UTF-8 bytes of the document one by one, and counts the
backslashes before a dollar in bytes as well.  It does not know where characters start, yet
the document is cut at the offsets that it lists.

This is safe because a dollar, a backslash, a line feed and an ASCII blank are characters of
one byte, and no byte of any other character is one of theirs (`isByte_of_mem`).  The scan
passes over every other character byte by byte without a change of its state
(`markersFrom_plain`), so it lists what the scan of the characters lists.
-/

namespace MathTyping

namespace Text

variable {s t : Text} {c a : Char} {b : UInt8}

/-! ### Bytes of characters -/

/-- The UTF-8 bytes of a text. -/
def utf8 (t : Text) : List UInt8 := t.flatMap String.utf8EncodeChar

@[simp] theorem utf8_nil : utf8 [] = [] := rfl

@[simp] theorem utf8_cons (c : Char) (t : Text) :
    utf8 (c :: t) = String.utf8EncodeChar c ++ utf8 t := rfl

@[simp] theorem utf8_append (s t : Text) : utf8 (s ++ t) = utf8 s ++ utf8 t :=
  List.flatMap_append

@[simp] theorem length_utf8 (t : Text) : t.utf8.length = t.bytes := by
  induction t with
  | nil => rfl
  | cons c t ih => rw [utf8_cons, List.length_append, String.length_utf8EncodeChar, ih, bytes_cons]

/-- A byte is the one byte of an ASCII character, or a high byte of another character. -/
theorem toNat_of_mem (h : b ∈ String.utf8EncodeChar c) :
    c.toNat < 128 ∧ b.toNat = c.toNat ∨ 128 ≤ c.toNat ∧ 128 ≤ b.toNat := by
  have hsmall : c.utf8Size = 1 ↔ c.toNat < 128 := by
    rw [Char.utf8Size_eq_one_iff, UInt32.le_iff_toNat_le]
    exact Nat.lt_succ_iff.symm
  -- All bytes of a longer character are set in their highest bit.
  have hhigh (x y : UInt8) (hy : 128 ≤ y.toNat) : 128 ≤ (x ||| y).toNat := by
    rw [UInt8.toNat_or]
    exact Nat.le_trans hy Nat.right_le_or
  by_cases hascii : c.toNat < 128
  · rw [String.utf8EncodeChar_eq_singleton (hsmall.mpr hascii), List.mem_singleton] at h
    refine Or.inl ⟨hascii, ?_⟩
    rw [h, UInt32.toNat_toUInt8, Char.toNat_val]
    omega
  · refine Or.inr ⟨Nat.le_of_not_lt hascii, ?_⟩
    rcases Char.utf8Size_eq c with hsize | hsize | hsize | hsize
    · exact absurd (hsmall.mp hsize) hascii
    · rw [String.utf8EncodeChar_eq_cons_cons hsize] at h
      simp only [List.mem_cons, List.not_mem_nil, or_false] at h
      rcases h with rfl | rfl <;> exact hhigh _ _ (by decide)
    · rw [String.utf8EncodeChar_eq_cons_cons_cons hsize] at h
      simp only [List.mem_cons, List.not_mem_nil, or_false] at h
      rcases h with rfl | rfl | rfl <;> exact hhigh _ _ (by decide)
    · rw [String.utf8EncodeChar_eq_cons_cons_cons_cons hsize] at h
      simp only [List.mem_cons, List.not_mem_nil, or_false] at h
      rcases h with rfl | rfl | rfl | rfl <;> exact hhigh _ _ (by decide)

/-- Tell whether a byte is an ASCII character. -/
def isByte (a : Char) (b : UInt8) : Bool := b.toNat == a.toNat

/-- Tell whether a byte is an ASCII blank. -/
def isBlankByte (b : UInt8) : Bool :=
  isByte ' ' b || isByte '\t' b || isByte '\n' b || isByte '\x0c' b || isByte '\r' b

/-- The bytes of a character are an ASCII character only if the character is. -/
theorem isByte_of_mem (ha : a.toNat < 128) (h : b ∈ String.utf8EncodeChar c) :
    isByte a b = (c == a) := by
  rw [isByte, Bool.eq_iff_iff, beq_iff_eq, beq_iff_eq, ← Char.toNat_inj]
  rcases toNat_of_mem h with ⟨-, heq⟩ | ⟨hc, hb⟩ <;> omega

theorem isBlankByte_of_mem (h : b ∈ String.utf8EncodeChar c) :
    isBlankByte b = isAsciiBlank c := by
  have hchar (a : Char) : (c == a) = (c.toNat == a.toNat) := by
    rw [Bool.eq_iff_iff, beq_iff_eq, beq_iff_eq, Char.toNat_inj]
  simp only [isBlankByte, isByte_of_mem (show ' '.toNat < 128 by decide) h,
    isByte_of_mem (show '\t'.toNat < 128 by decide) h,
    isByte_of_mem (show '\n'.toNat < 128 by decide) h,
    isByte_of_mem (show '\x0c'.toNat < 128 by decide) h,
    isByte_of_mem (show '\r'.toNat < 128 by decide) h, hchar]
  rfl

theorem utf8EncodeChar_ne_nil (c : Char) : String.utf8EncodeChar c ≠ [] := by
  rw [← List.length_pos_iff, String.length_utf8EncodeChar]
  exact c.utf8Size_pos

/-- The byte in front of a text belongs to its first character. -/
theorem head?_utf8_cons (c : Char) (t : Text) :
    ∃ b ∈ String.utf8EncodeChar c, (utf8 (c :: t)).head? = some b := by
  obtain ⟨b, rest, hbytes⟩ := List.exists_cons_of_ne_nil (utf8EncodeChar_ne_nil c)
  refine ⟨b, hbytes ▸ List.mem_cons_self, ?_⟩
  rw [utf8_cons, hbytes, List.cons_append, List.head?_cons]

/-- The last byte of a text belongs to its last character. -/
theorem getLast?_utf8_concat (s : Text) (c : Char) :
    ∃ b ∈ String.utf8EncodeChar c, (utf8 (s ++ [c])).getLast? = some b := by
  have hne := utf8EncodeChar_ne_nil c
  refine ⟨_, List.getLast_mem hne, ?_⟩
  rw [utf8_append, utf8_cons, utf8_nil, List.append_nil, List.getLast?_append,
    List.getLast?_eq_some_getLast hne]
  rfl

/-! ### Escapes, counted in bytes -/

/-- Tell whether the byte at an index is escaped: an odd number of backslashes is in front of
it. -/
def escapedAt (bytes : List UInt8) (index : Nat) : Bool :=
  ((bytes.take index).reverse.takeWhile (isByte '\\')).length % 2 == 1

theorem take_utf8_append (s t : Text) : (utf8 (s ++ t)).take s.bytes = utf8 s := by
  rw [utf8_append, ← length_utf8, List.take_left]

/-- A backslash is one byte, and no other character ends with it. -/
theorem length_takeWhile_utf8 (s : Text) :
    (s.utf8.reverse.takeWhile (isByte '\\')).length =
      (s.reverse.takeWhile (· == '\\')).length := by
  induction s using List.reverseRecOn with
  | nil => rfl
  | append_singleton s c ih =>
      by_cases hc : c = '\\'
      · have hbytes : utf8 (s ++ [c]) = utf8 s ++ [0x5C] := by
          rw [hc, utf8_append]
          rfl
        rw [hbytes, List.reverse_append, List.reverse_append, hc]
        simpa [List.takeWhile_cons, isByte] using ih
      · obtain ⟨b, hb, hlast⟩ := getLast?_utf8_concat s c
        obtain ⟨init, hinit⟩ := List.getLast?_eq_some_iff.mp hlast
        have hother : isByte '\\' b = false := by
          rw [isByte_of_mem (by decide) hb, beq_eq_false_iff_ne]
          exact hc
        rw [hinit]
        simp [hother, hc]

theorem escapedAt_utf8 (s t : Text) :
    escapedAt (utf8 (s ++ t)) s.bytes = escapedAfter s.reverse := by
  rw [escapedAt, take_utf8_append, length_takeWhile_utf8, escapedAfter]

end Text

namespace Guarded

open Text

variable {s t line : Text} {c : Char}

/-- Tell whether the byte at an index is escaped, looking at the bytes up to the index. -/
def isEscaped (bytes : List UInt8) (index : Nat) : Guarded Bool :=
  if index ≤ bytes.length then pure (escapedAt bytes index) else throw .slice

theorem isEscaped_eq (s t : Text) :
    isEscaped (utf8 (s ++ t)) s.bytes = pure (escapedAfter s.reverse) := by
  rw [isEscaped, if_pos, escapedAt_utf8]
  rw [length_utf8, bytes_append]
  exact Nat.le_add_right _ _

/-! ### Display markers -/

/-- Tell whether a neighbour of a double dollar is content: there is one, and it is not
blank. -/
def touchesByte (neighbour : Option UInt8) : Bool := neighbour.any fun b => !isBlankByte b

/-- List the offsets of the display markers from an index on. -/
def markersFrom (bytes : List UInt8) (index lone : Nat) : Guarded (List Nat) :=
  if _h : index < bytes.length then do
    let b ← entry bytes index
    if isByte '\n' b then markersFrom bytes (index + 1) 0
    else if isByte '$' b then do
      let escaped ← isEscaped bytes index
      if escaped then markersFrom bytes (index + 1) lone
      else if bytes[index + 1]?.any (isByte '$') then do
        let previous := if index = 0 then none else bytes[index - 1]?
        let later ← markersFrom bytes (index + 2) lone
        if lone % 2 = 1 ∧ touchesByte previous ∧ touchesByte bytes[index + 2]? then pure later
        else pure (index :: later)
      else markersFrom bytes (index + 1) (lone + 1)
    else markersFrom bytes (index + 1) lone
  else pure []
termination_by bytes.length - index

/-- List the byte offsets of the display markers of a document. -/
def displayMarkers (t : Text) : Guarded (List Nat) := markersFrom t.utf8 0 0

theorem touchesByte_head? (t : Text) : touchesByte t.utf8.head? = touches t.head? := by
  cases t with
  | nil => rfl
  | cons c t =>
      obtain ⟨b, hb, hhead⟩ := head?_utf8_cons c t
      rw [hhead, List.head?_cons, touchesByte, touches, Option.any_some, Option.any_some,
        isBlankByte_of_mem hb]

theorem touchesByte_getLast? (s : Text) : touchesByte s.utf8.getLast? = touches s.getLast? := by
  rcases List.eq_nil_or_concat s with rfl | ⟨init, c, rfl⟩
  · rfl
  · obtain ⟨b, hb, hlast⟩ := getLast?_utf8_concat init c
    rw [List.concat_eq_append, hlast, List.getLast?_concat, touchesByte, touches,
      Option.any_some, Option.any_some, isBlankByte_of_mem hb]

theorem getElem?_utf8_append (s t : Text) (k : Nat) :
    (utf8 (s ++ t))[s.bytes + k]? = t.utf8[k]? := by
  rw [utf8_append, ← length_utf8, List.getElem?_append_right (Nat.le_add_right _ _),
    Nat.add_sub_cancel_left]

/-- The byte in front of an offset is the last one of the text before it. -/
theorem getElem?_before (s t : Text) :
    (if s.bytes = 0 then none else (utf8 (s ++ t))[s.bytes - 1]?) = s.utf8.getLast? := by
  by_cases hs : s = []
  · subst hs
    rfl
  · have hpos := bytes_pos hs
    have hlt : s.bytes - 1 < s.utf8.length := by
      rw [length_utf8]
      omega
    rw [if_neg (Nat.ne_of_gt hpos), utf8_append, List.getElem?_append_left hlt,
      List.getLast?_eq_getElem?, length_utf8]

/-- Bytes of other characters are passed without a change of state. -/
theorem markersFrom_plain (pre mid post : List UInt8) (lone : Nat)
    (h : ∀ b ∈ mid, isByte '\n' b = false ∧ isByte '$' b = false) :
    markersFrom (pre ++ mid ++ post) pre.length lone =
      markersFrom (pre ++ mid ++ post) (pre ++ mid).length lone := by
  induction mid generalizing pre with
  | nil => rw [List.append_nil]
  | cons b mid ih =>
      obtain ⟨⟨hfeed, hdollar⟩, hrest⟩ := List.forall_mem_cons.mp h
      have hnext := ih (pre ++ [b]) hrest
      have hread : entry (pre ++ b :: mid ++ post) pre.length = pure b :=
        entry_of_getElem? (by simp)
      have hlt : pre.length < (pre ++ b :: mid ++ post).length := by simp
      rw [List.append_assoc pre [b], List.singleton_append, List.length_append,
        List.length_singleton] at hnext
      rw [markersFrom, dif_pos hlt, hread, pure_bind, hfeed, hdollar, ← hnext]
      simp

theorem lt_length_utf8 (s : Text) (c : Char) (t : Text) :
    s.bytes < (utf8 (s ++ c :: t)).length := by
  rw [length_utf8, bytes_append, bytes_cons]
  exact Nat.lt_add_of_pos_right (Nat.add_pos_left c.utf8Size_pos _)

theorem markersFrom_feed (s t : Text) (lone : Nat) :
    markersFrom (utf8 (s ++ '\n' :: t)) s.bytes lone =
      markersFrom (utf8 (s ++ '\n' :: t)) (s.bytes + 1) 0 := by
  have hread : entry (utf8 (s ++ '\n' :: t)) s.bytes = pure 0x0A :=
    entry_of_getElem? (getElem?_utf8_append s ('\n' :: t) 0)
  rw [markersFrom, dif_pos (lt_length_utf8 s '\n' t), hread, pure_bind, if_pos (by decide)]

/-- At a dollar the scan looks back for backslashes and one byte ahead for a second dollar. -/
theorem markersFrom_dollar (s t : Text) (lone : Nat) :
    markersFrom (utf8 (s ++ '$' :: t)) s.bytes lone =
      if escapedAfter s.reverse then markersFrom (utf8 (s ++ '$' :: t)) (s.bytes + 1) lone
      else if t.head? = some '$' then do
        let later ← markersFrom (utf8 (s ++ '$' :: t)) (s.bytes + 2) lone
        if lone % 2 = 1 ∧ touches s.getLast? ∧ touches t.tail.head? then pure later
        else pure (s.bytes :: later)
      else markersFrom (utf8 (s ++ '$' :: t)) (s.bytes + 1) (lone + 1) := by
  have hread : entry (utf8 (s ++ '$' :: t)) s.bytes = pure 0x24 :=
    entry_of_getElem? (getElem?_utf8_append s ('$' :: t) 0)
  have hnext : (utf8 (s ++ '$' :: t))[s.bytes + 1]?.any (isByte '$') =
      decide (t.head? = some '$') := by
    rw [getElem?_utf8_append]
    cases t with
    | nil => rfl
    | cons d u =>
        obtain ⟨b, hb, hhead⟩ := head?_utf8_cons d u
        rw [List.head?_eq_getElem?] at hhead
        rw [show (utf8 ('$' :: d :: u))[1]? = some b from hhead, Option.any_some,
          isByte_of_mem (by decide) hb, List.head?_cons, Bool.eq_iff_iff, beq_iff_eq,
          decide_eq_true_eq, Option.some_inj]
  rw [markersFrom, dif_pos (lt_length_utf8 s '$' t), hread, pure_bind, if_neg (by decide),
    if_pos (by decide), isEscaped_eq, pure_bind, hnext]
  split
  · rfl
  · by_cases hdouble : t.head? = some '$'
    · obtain ⟨u, rfl⟩ := List.head?_eq_some_iff.mp hdouble
      have hbehind : touchesByte (utf8 (s ++ '$' :: '$' :: u))[s.bytes + 2]? =
          touches u.head? := by
        rw [getElem?_utf8_append, ← touchesByte_head?, List.head?_eq_getElem?]
        rfl
      rw [if_pos (decide_eq_true hdouble), if_pos hdouble]
      dsimp only
      rw [getElem?_before, touchesByte_getLast?, hbehind, List.tail_cons]
    · rw [if_neg (by simpa using hdouble), if_neg hdouble]

/-- Both dollars are taken at once. -/
theorem markersFrom_double {u : Text} {lone : Nat} {later : List Nat}
    (hescaped : escapedAfter s.reverse = false)
    (hlater : markersFrom (utf8 (s ++ '$' :: '$' :: u)) (s.bytes + 2) lone = pure later) :
    markersFrom (utf8 (s ++ '$' :: '$' :: u)) s.bytes lone =
      pure (if lone % 2 = 1 ∧ touches s.reverse.head? ∧ touches u.head? then later
        else s.bytes :: later) := by
  rw [markersFrom_dollar, hescaped, if_neg (by decide), if_pos List.head?_cons, hlater,
    pure_bind, List.head?_reverse, List.tail_cons]
  split <;> rfl

theorem markersFrom_other (s t : Text) (lone : Nat) (hfeed : c ≠ '\n') (hdollar : c ≠ '$') :
    markersFrom (utf8 (s ++ c :: t)) s.bytes lone =
      markersFrom (utf8 (s ++ c :: t)) (s.bytes + c.utf8Size) lone := by
  have hplain : ∀ b ∈ String.utf8EncodeChar c, isByte '\n' b = false ∧ isByte '$' b = false := by
    intro b hb
    rw [isByte_of_mem (by decide) hb, isByte_of_mem (by decide) hb]
    exact ⟨beq_eq_false_iff_ne.mpr hfeed, beq_eq_false_iff_ne.mpr hdollar⟩
  have hpass := markersFrom_plain s.utf8 (String.utf8EncodeChar c) t.utf8 lone hplain
  rwa [List.length_append, String.length_utf8EncodeChar, length_utf8, List.append_assoc,
    ← utf8_cons, ← utf8_append] at hpass

/-- The scan of the bytes lists what the scan of the characters does. -/
theorem markersFrom_eq (seen : Text) (offset lone : Nat) (t : Text) :
    ∀ s : Text, seen = s.reverse → offset = s.bytes →
      markersFrom (utf8 (s ++ t)) offset lone = pure (displayMarkersFrom seen offset lone t) := by
  -- The text read so far grows by whole characters, so the offset is always at a boundary.
  have hgrown {seen : Text} {offset : Nat} {s : Text} (c : Char) (hseen : seen = s.reverse)
      (hoffset : offset = s.bytes) :
      c :: seen = (s ++ [c]).reverse ∧ offset + c.utf8Size = (s ++ [c]).bytes := by
    rw [hseen, hoffset, List.reverse_append, Text.bytes_append]
    exact ⟨rfl, rfl⟩
  fun_induction displayMarkersFrom seen offset lone t with
  | case1 seen offset lone =>
      intro s hseen hoffset
      rw [markersFrom, dif_neg]
      rw [hoffset, List.append_nil, length_utf8]
      exact Nat.lt_irrefl _
  | case2 seen offset lone t ih =>
      intro s hseen hoffset
      obtain ⟨hreverse, hbytes⟩ := hgrown '\n' hseen hoffset
      have hrest := ih _ hreverse hbytes
      rw [List.append_assoc, List.singleton_append] at hrest
      rw [hoffset, markersFrom_feed, ← hoffset, hrest]
  | case3 seen offset lone c hfeed hc =>
      intro s hseen hoffset
      obtain ⟨rfl, hescaped⟩ := hc
      have hend : ¬ s.bytes + 1 < (utf8 (s ++ ['$'])).length := by
        rw [length_utf8, Text.bytes_append]
        exact Nat.lt_irrefl _
      rw [hoffset, markersFrom_dollar, ← hseen, hescaped, if_neg (by decide), if_neg (by decide),
        markersFrom, dif_neg hend]
  | case4 seen offset lone c hfeed hc u hjoins later ih =>
      intro s hseen hoffset
      obtain ⟨rfl, hescaped⟩ := hc
      obtain ⟨hreverse, hbytes⟩ := hgrown '$' hseen hoffset
      obtain ⟨hreverse, hbytes⟩ := hgrown '$' hreverse hbytes
      have hrest := ih _ hreverse hbytes
      rw [List.append_assoc, List.append_assoc, List.singleton_append, List.singleton_append,
        hoffset] at hrest
      rw [hseen] at hescaped hjoins
      rw [hoffset, markersFrom_double hescaped hrest, if_pos hjoins, ← hoffset]
  | case5 seen offset lone c hfeed hc u hjoins later ih =>
      intro s hseen hoffset
      obtain ⟨rfl, hescaped⟩ := hc
      obtain ⟨hreverse, hbytes⟩ := hgrown '$' hseen hoffset
      obtain ⟨hreverse, hbytes⟩ := hgrown '$' hreverse hbytes
      have hrest := ih _ hreverse hbytes
      rw [List.append_assoc, List.append_assoc, List.singleton_append, List.singleton_append,
        hoffset] at hrest
      rw [hseen] at hescaped hjoins
      rw [hoffset, markersFrom_double hescaped hrest, if_neg hjoins, ← hoffset]
  | case6 seen offset lone c hfeed hc d u hd ih =>
      intro s hseen hoffset
      obtain ⟨rfl, hescaped⟩ := hc
      obtain ⟨hreverse, hbytes⟩ := hgrown '$' hseen hoffset
      have hrest := ih _ hreverse hbytes
      rw [List.append_assoc, List.singleton_append] at hrest
      rw [hoffset, markersFrom_dollar, ← hseen, hescaped, if_neg (by decide),
        if_neg (by simpa using hd), ← hoffset, hrest]
  | case7 seen offset lone c t hfeed hc ih =>
      intro s hseen hoffset
      obtain ⟨hreverse, hbytes⟩ := hgrown c hseen hoffset
      have hrest := ih _ hreverse hbytes
      rw [List.append_assoc, List.singleton_append] at hrest
      rw [← hrest, hoffset]
      by_cases hdollar : c = '$'
      · have hescaped : escapedAfter seen = true := by
          cases hescape : escapedAfter seen with
          | true => rfl
          | false => exact absurd ⟨hdollar, hescape⟩ hc
        rw [hdollar, markersFrom_dollar, ← hseen, hescaped, if_pos rfl]
        rfl
      · exact markersFrom_other s t lone hfeed hdollar

theorem displayMarkers_eq (t : Text) : displayMarkers t = pure t.displayMarkers :=
  markersFrom_eq [] 0 0 t [] rfl rfl

/-! ### Dollars of a line -/

/-- List the characters of a text with the byte offset of each. -/
def charsFrom (offset : Nat) : Text → List (Nat × Char)
  | [] => []
  | c :: t => (offset, c) :: charsFrom (offset + c.utf8Size) t

/-- Find the first unescaped dollar among some places of a line. -/
def findDollar? (line : Text) (places : List (Nat × Char)) : Guarded (Option Nat) := do
  let found ← places.findM? fun (index, c) =>
    if c = '$' then (! ·) <$> isEscaped line.utf8 index else pure false
  pure (found.map (·.1))

/-- Tell whether a place of a line is an unescaped dollar. -/
def isDollarAt (line : Text) (place : Nat × Char) : Bool :=
  place.2 == '$' && !escapedAt line.utf8 place.1

/-- A search whose test never fails is a search by the value of the test. -/
theorem findM?_of_forall {α : Type} {test : α → Guarded Bool} {value : α → Bool} {l : List α}
    (h : ∀ a ∈ l, test a = pure (value a)) : l.findM? test = pure (l.find? value) := by
  induction l with
  | nil => rfl
  | cons a l ih =>
      obtain ⟨ha, hl⟩ := List.forall_mem_cons.mp h
      rw [List.findM?, ha, pure_bind, List.find?_cons]
      cases value a with
      | true => rfl
      | false => exact ih hl

/-- The places of a part of a line are in the line. -/
theorem le_of_mem_charsFrom {place : Nat × Char} {offset : Nat}
    (h : place ∈ charsFrom offset t) : place.1 ≤ offset + t.bytes := by
  induction t generalizing offset with
  | nil => contradiction
  | cons c t ih =>
      rw [Text.bytes_cons]
      rcases List.mem_cons.mp h with rfl | hmem
      · exact Nat.le_add_right _ _
      · have := ih hmem
        omega

theorem findDollar?_eq {places : List (Nat × Char)} (h : ∀ place ∈ places, place.1 ≤ line.bytes) :
    findDollar? line places = pure ((places.find? (isDollarAt line)).map (·.1)) := by
  have htest : ∀ place ∈ places,
      (if place.2 = '$' then (! ·) <$> isEscaped line.utf8 place.1 else pure false) =
        (pure (isDollarAt line place) : Guarded Bool) := by
    rintro ⟨index, c⟩ hmem
    have hle : index ≤ line.utf8.length := by
      rw [length_utf8]
      exact h _ hmem
    rw [isEscaped, if_pos hle, map_pure, isDollarAt]
    by_cases hc : c = '$'
    · rw [if_pos hc, hc, beq_self_eq_true, Bool.true_and]
    · rw [if_neg hc, beq_eq_false_iff_ne.mpr hc, Bool.false_and]
  rw [findDollar?, findM?_of_forall htest, pure_bind]

/-- The unescaped dollars of a part of a line, as the places of its characters give them. -/
theorem map_filter_charsFrom (s t u : Text) :
    ((charsFrom s.bytes t).filter (isDollarAt (s ++ t ++ u))).map (·.1) =
      dollarsFrom s.reverse s.bytes t := by
  induction t generalizing s with
  | nil => rfl
  | cons c t ih =>
      have hrest := ih (s ++ [c])
      have hline : s ++ [c] ++ t ++ u = s ++ (c :: t) ++ u := by simp
      rw [hline, List.reverse_append, Text.bytes_append] at hrest
      have hescaped : escapedAt (utf8 (s ++ (c :: t) ++ u)) s.bytes = escapedAfter s.reverse := by
        rw [List.append_assoc, escapedAt_utf8]
      have hdollar : isDollarAt (s ++ (c :: t) ++ u) (s.bytes, c) =
          decide (c = '$' ∧ escapedAfter s.reverse = false) := by
        rw [isDollarAt, hescaped, Bool.eq_iff_iff]
        simp
      rw [charsFrom, dollarsFrom, List.filter_cons, hdollar]
      by_cases hopen : c = '$' ∧ escapedAfter s.reverse = false
      · rw [if_pos (decide_eq_true hopen), if_pos hopen]
        exact congrArg (s.bytes :: ·) hrest
      · rw [if_neg (by simpa using hopen), if_neg hopen]
        exact hrest

/-- The last unescaped dollar before a cut of a line. -/
theorem findDollar?_before (before after : Text) :
    findDollar? (before ++ after) (charsFrom 0 before).reverse = pure before.dollars.getLast? := by
  have hplaces := map_filter_charsFrom [] before after
  rw [findDollar?_eq, ← List.getLast?_filter, ← List.getLast?_map]
  · exact congrArg (fun places => pure (List.getLast? places)) hplaces
  · intro place hmem
    have := le_of_mem_charsFrom (List.mem_reverse.mp hmem)
    rw [Text.bytes_append]
    omega

/-- The first unescaped dollar behind a cut of a line. -/
theorem findDollar?_behind (before after : Text) :
    findDollar? (before ++ after) (charsFrom before.bytes after) =
      pure (dollarsFrom before.reverse before.bytes after).head? := by
  have hplaces := map_filter_charsFrom before after []
  rw [List.append_nil] at hplaces
  rw [findDollar?_eq, ← List.head?_filter, ← List.head?_map, hplaces]
  intro place hmem
  rw [Text.bytes_append]
  exact le_of_mem_charsFrom hmem

end Guarded

end MathTyping
