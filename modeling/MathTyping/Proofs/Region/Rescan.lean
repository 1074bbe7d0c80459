import MathTyping.Proofs.Region.Document
import MathTyping.Proofs.Region.Missed
import MathTyping.Snippet

/-!
# The markers of a document after a deletion

The scan for display markers looks at a double dollar at once and one character beyond it.  So
what it finds in a first part of the text does not depend on the rest, unless the part ends with
a dollar (`displayMarkersFrom_through`); and it finds a marker again in another text that is the
same up to it, unless the marker has become a joint between two inline expressions
(`displayMarkersFrom_upTo`).

Where a cursor marker is deleted, the scan goes on in another state: what was escaped by the text
before the marker, and what touches a double dollar behind it.  If the text before does not end
escaping, a marker that was ahead is still ahead, maybe an earlier one, and a cursor in a block
is still in a block (`InBlock.exists_of_deleted`).
-/

namespace MathTyping

open Position (origin)

namespace Text

variable {seen seen' s t : Text} {offset offset' lone m : Nat}

theorem displayMarkersFrom_feed : displayMarkersFrom seen offset lone ('\n' :: t) =
    displayMarkersFrom ('\n' :: seen) (offset + 1) 0 t := by
  rw [displayMarkersFrom.eq_def]
  rfl

/-- What is no line feed and no dollar that counts is passed. -/
theorem displayMarkersFrom_pass {c : Char} (hfeed : c ≠ '\n')
    (hc : ¬ (c = '$' ∧ escapedAfter seen = false)) :
    displayMarkersFrom seen offset lone (c :: t) =
      displayMarkersFrom (c :: seen) (offset + c.utf8Size) lone t := by
  rw [displayMarkersFrom.eq_def]
  simp only [if_neg hfeed, if_neg hc]

/-- A double dollar that does not join two inline expressions is a marker. -/
theorem displayMarkersFrom_found (hseen : escapedAfter seen = false)
    (hjoint : ¬ (lone % 2 = 1 ∧ touches seen.head? = true ∧ touches t.head? = true)) :
    displayMarkersFrom seen offset lone ('$' :: '$' :: t) =
      offset :: displayMarkersFrom ('$' :: '$' :: seen) (offset + 2) lone t := by
  rw [displayMarkersFrom.eq_def]
  simp [hseen, hjoint]

theorem bytes_cons_dollars (t : Text) : bytes ('$' :: '$' :: t) = 2 + bytes t := by
  have hsize : '$'.utf8Size = 1 := rfl
  rw [bytes_cons, bytes_cons, hsize, ← Nat.add_assoc]

/-- What comes first does not depend on the text behind a marker. -/
theorem head?_append_dollars (before after rest : Text) :
    (before ++ '$' :: '$' :: rest).head? = (before ++ '$' :: '$' :: after).head? := by
  cases before <;> rfl

/-- What the scan finds in a part that does not end with a dollar does not depend on the rest. -/
theorem displayMarkersFrom_through (hlast : s.getLast? ≠ some '$') :
    ∃ found lone', ∀ t, displayMarkersFrom seen offset lone (s ++ t) =
      found ++ displayMarkersFrom (s.reverse ++ seen) (offset + s.bytes) lone' t := by
  have hsize : '$'.utf8Size = 1 := rfl
  have hne : ∀ (c : Char) (u : Text), (c :: '$' :: u).getLast? ≠ some '$' → u ≠ [] := by
    rintro c u h rfl
    exact h rfl
  fun_induction displayMarkersFrom seen offset lone s with
  | case1 seen offset lone => exact ⟨[], lone, fun t => rfl⟩
  | case2 seen offset lone s ih =>
      have hrest : s.getLast? ≠ some '$' := fun h => hlast (by rw [List.getLast?_cons, h]; rfl)
      obtain ⟨found, lone', hfound⟩ := ih hrest
      refine ⟨found, lone', fun t => ?_⟩
      rw [List.cons_append, displayMarkersFrom_feed, hfound, List.reverse_cons, List.append_assoc,
        bytes_cons, ← Nat.add_assoc]
      rfl
  | case3 seen offset lone c hfeed hc => exact absurd (by rw [hc.1]; rfl) hlast
  | case4 seen offset lone c hfeed hc u hjoint later ih =>
      obtain ⟨rfl, hseen⟩ := hc
      obtain ⟨e, more, rfl⟩ := List.exists_cons_of_ne_nil (hne _ u hlast)
      obtain ⟨hlone, hbefore, hbehind⟩ := hjoint
      obtain ⟨found, lone', hfound⟩ := ih hlast
      refine ⟨found, lone', fun t => ?_⟩
      have hnext : touches (e :: more ++ t).head? = true := hbehind
      rw [List.cons_append, List.cons_append, displayMarkersFrom_joint hseen hlone hbefore hnext,
        hfound, bytes_cons_dollars, ← Nat.add_assoc]
      simp
  | case5 seen offset lone c hfeed hc u hjoint later ih =>
      obtain ⟨rfl, hseen⟩ := hc
      obtain ⟨e, more, rfl⟩ := List.exists_cons_of_ne_nil (hne _ u hlast)
      obtain ⟨found, lone', hfound⟩ := ih hlast
      refine ⟨offset :: found, lone', fun t => ?_⟩
      have hfree : ¬ (lone % 2 = 1 ∧ touches seen.head? = true ∧
          touches (e :: more ++ t).head? = true) := hjoint
      rw [List.cons_append, List.cons_append, displayMarkersFrom_found hseen hfree, hfound,
        bytes_cons_dollars, ← Nat.add_assoc]
      simp
  | case6 seen offset lone c hfeed hc d u hd ih =>
      obtain ⟨rfl, hseen⟩ := hc
      obtain ⟨found, lone', hfound⟩ := ih hlast
      refine ⟨found, lone', fun t => ?_⟩
      rw [List.cons_append, List.cons_append, displayMarkersFrom_lone hseen hd, ← List.cons_append,
        hfound]
      simp [hsize, Nat.add_assoc]
  | case7 seen offset lone c s hfeed hc ih =>
      have hrest : s.getLast? ≠ some '$' := fun h => hlast (by rw [List.getLast?_cons, h]; rfl)
      obtain ⟨found, lone', hfound⟩ := ih hrest
      refine ⟨found, lone', fun t => ?_⟩
      rw [List.cons_append, displayMarkersFrom_pass hfeed hc, hfound, List.reverse_cons,
        List.append_assoc, bytes_cons, ← Nat.add_assoc]
      rfl

/-- A marker is found again where the text up to it is the same, unless it became a joint. -/
theorem displayMarkersFrom_upTo (h : m ∈ displayMarkersFrom seen offset lone t) :
    ∃ before after found lone', t = before ++ '$' :: '$' :: after ∧ m = offset + bytes before ∧
      ∀ rest : Text, (touches rest.head? = true → touches after.head? = true) →
        displayMarkersFrom seen offset lone (before ++ '$' :: '$' :: rest) =
          found ++ m :: displayMarkersFrom ('$' :: '$' :: (before.reverse ++ seen)) (m + 2) lone'
            rest := by
  have hsize : '$'.utf8Size = 1 := rfl
  fun_induction displayMarkersFrom seen offset lone t with
  | case1 => contradiction
  | case2 seen offset lone t ih =>
      obtain ⟨before, after, found, lone', rfl, rfl, hfound⟩ := ih h
      refine ⟨'\n' :: before, after, found, lone', rfl, ?_, fun rest hrest => ?_⟩
      · rw [bytes_cons, ← Nat.add_assoc]
        rfl
      · rw [List.cons_append, displayMarkersFrom_feed, hfound rest hrest]
        simp
  | case3 => contradiction
  | case4 seen offset lone c hfeed hc u hjoint later ih =>
      obtain ⟨rfl, hseen⟩ := hc
      obtain ⟨hlone, hbefore, hbehind⟩ := hjoint
      obtain ⟨before, after, found, lone', rfl, rfl, hfound⟩ := ih h
      refine ⟨'$' :: '$' :: before, after, found, lone', rfl, ?_, fun rest hrest => ?_⟩
      · rw [bytes_cons_dollars, ← Nat.add_assoc]
      · rw [head?_append_dollars before rest after] at hbehind
        rw [List.cons_append, List.cons_append,
          displayMarkersFrom_joint hseen hlone hbefore hbehind, hfound rest hrest]
        simp
  | case5 seen offset lone c hfeed hc u hjoint later ih =>
      obtain ⟨rfl, hseen⟩ := hc
      rcases List.mem_cons.mp h with rfl | hmem
      · refine ⟨[], u, [], lone, rfl, rfl, fun rest hrest => ?_⟩
        have hfree : ¬ (lone % 2 = 1 ∧ touches seen.head? = true ∧
            touches rest.head? = true) := fun hj => hjoint ⟨hj.1, hj.2.1, hrest hj.2.2⟩
        exact displayMarkersFrom_found hseen hfree
      · obtain ⟨before, after, found, lone', rfl, rfl, hfound⟩ := ih hmem
        refine ⟨'$' :: '$' :: before, after, offset :: found, lone', rfl, ?_, fun rest hrest => ?_⟩
        · rw [bytes_cons_dollars, ← Nat.add_assoc]
        · rw [head?_append_dollars before rest after] at hjoint
          rw [List.cons_append, List.cons_append, displayMarkersFrom_found hseen hjoint,
            hfound rest hrest]
          simp
  | case6 seen offset lone c hfeed hc d u hd ih =>
      obtain ⟨rfl, hseen⟩ := hc
      obtain ⟨before, after, found, lone', hsplit, rfl, hfound⟩ := ih h
      refine ⟨'$' :: before, after, found, lone', by rw [hsplit]; rfl, ?_, fun rest hrest => ?_⟩
      · rw [bytes_cons, ← Nat.add_assoc]
        rfl
      · -- The lone dollar stays one, since the character behind it is the same.
        obtain ⟨e, more, hmore, he⟩ : ∃ e more,
            before ++ '$' :: '$' :: rest = e :: more ∧ e ≠ '$' := by
          cases before with
          | nil =>
              obtain ⟨rfl, -⟩ := List.cons_eq_cons.mp hsplit
              contradiction
          | cons e before =>
              obtain ⟨rfl, -⟩ := List.cons_eq_cons.mp hsplit
              exact ⟨d, _, rfl, hd⟩
        rw [List.cons_append, hmore, displayMarkersFrom_lone hseen he, ← hmore, hfound rest hrest]
        simp
  | case7 seen offset lone c t hfeed hc ih =>
      obtain ⟨before, after, found, lone', rfl, rfl, hfound⟩ := ih h
      refine ⟨c :: before, after, found, lone', rfl, ?_, fun rest hrest => ?_⟩
      · rw [bytes_cons, ← Nat.add_assoc]
      · rw [List.cons_append, displayMarkersFrom_pass hfeed hc, hfound rest hrest]
        simp

/-- A marker ahead stays one, or gives way to an earlier one, where the text before it touches
less. -/
theorem displayMarkersFrom_ne_nil (h : displayMarkersFrom seen offset lone t ≠ [])
    (hescaped : escapedAfter seen = escapedAfter seen')
    (htouches : touches seen'.head? = true → touches seen.head? = true) :
    displayMarkersFrom seen' offset' lone t ≠ [] := by
  fun_induction displayMarkersFrom seen offset lone t generalizing seen' offset' with
  | case1 => contradiction
  | case2 seen offset lone t ih =>
      rw [displayMarkersFrom_feed]
      exact ih h rfl id
  | case3 => contradiction
  | case4 seen offset lone c hfeed hc u hjoint later =>
      rename_i ih
      obtain ⟨rfl, hseen⟩ := hc
      rw [hescaped] at hseen
      by_cases hjoint' : touches seen'.head? = true
      · rw [displayMarkersFrom_joint hseen hjoint.1 hjoint' hjoint.2.2]
        exact ih h rfl id
      · rw [displayMarkersFrom_found hseen fun hj => hjoint' hj.2.1]
        exact List.cons_ne_nil _ _
  | case5 seen offset lone c hfeed hc u hjoint =>
      obtain ⟨rfl, hseen⟩ := hc
      rw [hescaped] at hseen
      rw [displayMarkersFrom_found hseen fun hj => hjoint ⟨hj.1, htouches hj.2.1, hj.2.2⟩]
      exact List.cons_ne_nil _ _
  | case6 seen offset lone c hfeed hc d u hd ih =>
      obtain ⟨rfl, hseen⟩ := hc
      rw [displayMarkersFrom_lone (hescaped ▸ hseen) hd]
      exact ih h rfl id
  | case7 seen offset lone c t hfeed hc ih =>
      rw [displayMarkersFrom_pass hfeed (hescaped ▸ hc)]
      have hnext : escapedAfter (c :: seen) = escapedAfter (c :: seen') := by
        by_cases hslash : c = '\\'
        · rw [hslash, escapedAfter_backslash, escapedAfter_backslash, hescaped]
        · rw [escapedAfter_of_ne c seen hslash, escapedAfter_of_ne c seen' hslash]
      exact ih h hnext id

/-- The markers up to one of them, and behind it, whatever comes there. -/
theorem displayMarkers_upTo {x y : Text} (h : x.bytes ∈ displayMarkers (x ++ '$' :: '$' :: y)) :
    ∃ found lone, ∀ rest : Text, (touches rest.head? = true → touches y.head? = true) →
      displayMarkers (x ++ '$' :: '$' :: rest) =
        found ++ x.bytes ::
          displayMarkersFrom ('$' :: '$' :: x.reverse) (x.bytes + 2) lone rest := by
  obtain ⟨before, after, found, lone, hsplit, hbytes, hfound⟩ := displayMarkersFrom_upTo h
  rw [Nat.zero_add] at hbytes
  obtain rfl : x = before := eq_of_prefix_of_bytes_eq ⟨_, rfl⟩ ⟨_, hsplit.symm⟩ hbytes
  obtain rfl : after = y := by simpa using hsplit.symm
  rw [List.append_nil] at hfound
  exact ⟨found, lone, hfound⟩

/-- The scan that finds nothing in a text, and a marker somewhere behind the cursor marker that
follows it, finds a marker behind the text without the cursor marker. -/
theorem exists_ahead_of_deleted {u : Text} {closing : Nat} {later : List Nat}
    (h : displayMarkersFrom seen offset lone (u ++ (cursorMarker ++ t)) = closing :: later)
    (hbehind : offset + u.bytes ≤ closing) (hlast : u.getLast? ≠ some '$')
    (hescaped : escapedAfter (u.reverse ++ seen) = false) :
    ∃ closing' later', displayMarkersFrom seen offset lone (u ++ t) = closing' :: later' ∧
      offset + u.bytes ≤ closing' := by
  obtain ⟨inner, lone', hinner⟩ : ∃ found lone', ∀ t, displayMarkersFrom seen offset lone (u ++ t) =
      found ++ displayMarkersFrom (u.reverse ++ seen) (offset + u.bytes) lone' t :=
    displayMarkersFrom_through hlast
  -- A marker in the text would be before the one that is found first.
  obtain rfl : inner = [] := by
    by_contra hne
    obtain ⟨m, more, rfl⟩ := List.exists_cons_of_ne_nil hne
    have hm : m = closing := by
      rw [hinner] at h
      exact (List.cons_eq_cons.mp h).1
    have hfound : m ∈ displayMarkersFrom seen offset lone u := by
      have hall := hinner []
      rw [List.append_nil] at hall
      simp [hall]
    obtain ⟨before, after, rfl, hbytes, -⟩ := exists_of_mem_displayMarkersFrom hfound
    have hsize : '$'.utf8Size = 1 := rfl
    simp [hsize] at hbehind
    omega
  have hmarker : displayMarkersFrom (u.reverse ++ seen) (offset + u.bytes) lone'
      (cursorMarker ++ t) = displayMarkersFrom (cursorMarker.reverse ++ (u.reverse ++ seen))
        (offset + u.bytes + cursorMarker.bytes) lone' t :=
    displayMarkersFrom_append t (by decide)
  have hneither : escapedAfter (cursorMarker.reverse ++ (u.reverse ++ seen)) =
      escapedAfter (u.reverse ++ seen) := by
    rw [hescaped]
    exact escapedAfter_of_ne 'R' _ (by decide)
  rw [hinner, List.nil_append, hmarker] at h
  have hahead : displayMarkersFrom (u.reverse ++ seen) (offset + u.bytes) lone' t ≠ [] :=
    displayMarkersFrom_ne_nil (h ▸ List.cons_ne_nil _ _) hneither fun _ => rfl
  obtain ⟨closing', later', hahead⟩ := List.exists_cons_of_ne_nil hahead
  refine ⟨closing', later', (hinner t).trans hahead, ?_⟩
  exact le_of_mem_displayMarkersFrom (hahead ▸ List.mem_cons_self)

end Text

namespace Region

open Text (Unescaped)

variable {b : Buffer} {cursor : Position} {x u v post : Text} {closing : Nat}

/-- The markers of a document fall apart at one of them in one way. -/
theorem split_at_marker {t : Text} {before ahead found later : List Nat} {m : Nat}
    (h : t.displayMarkers = before ++ m :: ahead) (h' : t.displayMarkers = found ++ m :: later) :
    before = found ∧ ahead = later := by
  have hpairwise := pairwise_displayMarkers t
  rw [h'] at hpairwise
  obtain ⟨-, hlater, hfound⟩ := List.pairwise_append.mp hpairwise
  have hnotFound : m ∉ found := fun hm => by
    have := hfound m hm m List.mem_cons_self
    omega
  have hnotLater : m ∉ later := fun hm => by
    have := (List.pairwise_cons.mp hlater).1 m hm
    omega
  obtain ⟨rfl, -, rfl⟩ := (List.append_cons_inj_of_notMem hnotFound hnotLater).mp (h'.symm.trans h)
  exact ⟨rfl, rfl⟩

/-- Behind the opening marker of a block a text counts as escaped by itself. -/
theorem unescaped_behind_marker (x u : Text) : Unescaped (x ++ ['$', '$'] ++ u) ↔ Unescaped u := by
  have hmarker : Unescaped (x ++ ['$', '$']) := by
    rw [List.append_cons, Text.unescaped_concat]
    simp
  exact hmarker.append_iff u

/-- Where a cursor marker of a block is deleted, and the text of the block before it ends neither
with a dollar nor escaping, its place is in a block with the same opening marker. -/
theorem InBlock.exists_of_deleted (h : InBlock b cursor x.bytes closing)
    (htext : b.text = (x ++ ['$', '$']) ++ (u ++ cursorMarker ++ v) ++ post)
    (hclosing : (x ++ ['$', '$'] ++ u).bytes ≤ closing) (hlast : u.getLast? ≠ some '$')
    (hescape : Unescaped u) :
    ∃ closing', InBlock ⟨(x ++ ['$', '$'] ++ u) ++ (v ++ post)⟩
      (origin.advance (x ++ ['$', '$'] ++ u)) x.bytes closing' := by
  obtain ⟨init, later, hmarkers, heven, -⟩ := inBlock_iff_between.mp h
  -- The scan finds the opening marker in both documents and goes on behind it in the same state.
  have hold : b.text = x ++ '$' :: '$' :: (u ++ (cursorMarker ++ (v ++ post))) := by simp [htext]
  have hmem : x.bytes ∈ b.text.displayMarkers := by
    rw [hmarkers]
    simp
  rw [hold] at hmem
  obtain ⟨found, lone, hfound⟩ := Text.displayMarkers_upTo hmem
  have htouches : Text.touches (u ++ (v ++ post)).head? = true →
      Text.touches (u ++ (cursorMarker ++ (v ++ post))).head? = true := by
    cases u with
    | nil => exact fun _ => rfl
    | cons c u => exact id
  have hscan := hfound _ id
  rw [← hold] at hscan
  obtain ⟨rfl, hahead⟩ := split_at_marker hmarkers hscan
  have hstart : x.bytes + 2 + u.bytes = Text.bytes (x ++ ['$', '$'] ++ u) := by
    simp only [Text.bytes_append]
    rfl
  have hescaped : Text.escapedAfter (u.reverse ++ '$' :: '$' :: x.reverse) = false := by
    have hbehind := (unescaped_behind_marker x u).mpr hescape
    rw [Text.unescaped_iff] at hbehind
    simpa using hbehind
  obtain ⟨closing', later', hnext, hle⟩ :=
    Text.exists_ahead_of_deleted hahead.symm (by omega) hlast hescaped
  have hbyte : Buffer.toByte ⟨(x ++ ['$', '$'] ++ u) ++ (v ++ post)⟩
      (origin.advance (x ++ ['$', '$'] ++ u)) = x.bytes + 2 + u.bytes := by
    rw [hstart]
    exact Buffer.toByte_advance rfl
  refine ⟨closing', inBlock_iff_between.mpr ⟨init, later', ?_, heven, ?_, ?_⟩⟩
  · have htext' : (Buffer.mk ((x ++ ['$', '$'] ++ u) ++ (v ++ post))).text =
        x ++ '$' :: '$' :: (u ++ (v ++ post)) := by simp
    rw [htext', hfound _ htouches, hnext]
  · rw [hbyte]
    exact Nat.le_add_right _ _
  · rw [hbyte]
    exact hle

end Region

end MathTyping
