import MathTyping.Proofs.Equation.Stops

/-!
# Jumps come to an end

Every press of the jump key moves the cursor on in its direction or deletes a marker.  A deletion
may join the text around it to a new marker and change where the regions are, so the places of
the cursor say nothing across deletions; but the document gets shorter.  Counting the bytes of
the document first, and the bytes in front of the cursor after them, every press counts down
(`press?_counts_down`), and pressing ends wherever it starts.
-/

namespace MathTyping

open Position (origin Names)

namespace JumpDirection

/-- A place is so many bytes behind another one, seen in a direction. -/
def Passes : JumpDirection → (place bytes next : Nat) → Prop
  | .forward, place, bytes, next => next = place + bytes
  | .backward, place, bytes, next => place = next + bytes

/-- A stretch is on the side of a place to which a direction points. -/
def Faces : JumpDirection → (place start stop : Nat) → Prop
  | .forward, place, start, _ => place ≤ start
  | .backward, place, _, stop => stop ≤ place

end JumpDirection

namespace Buffer

theorem toByte_le_bytes (b : Buffer) (p : Position) : b.toByte p ≤ b.text.bytes := by
  obtain ⟨pre, post, htext, hbyte⟩ := b.exists_cut_toByte p
  rw [hbyte, htext, Text.bytes_append]
  exact Nat.le_add_right _ _

end Buffer

namespace Region

/-- The end of a region in a direction. -/
def endOf (r : Region) : JumpDirection → Position
  | .forward => r.stop
  | .backward => r.start

end Region

namespace Equation

variable {b : Buffer} {r : Region} {cursor : Position} {d : JumpDirection}
  {pre post y z u m v before after : Text}

/-! ### One jump -/

theorem Stop.passes (h : Stop y z d u [] v) (pre : Text) :
    ∃ n, 0 < n ∧ d.Passes (pre ++ y).bytes n (pre ++ u).bytes := by
  generalize hm : ([] : Text) = m at h
  cases h with
  | markerAhead => contradiction
  | markerBehind => contradiction
  | @bracketAhead front _ c _ _ _ _ =>
      refine ⟨Text.bytes (front ++ [c]), Text.bytes_pos (by simp), ?_⟩
      simp only [JumpDirection.Passes, Text.bytes_append]
      omega
  | endAhead _ hne =>
      refine ⟨z.bytes, Text.bytes_pos hne, ?_⟩
      simp only [JumpDirection.Passes, Text.bytes_append]
      omega
  | @bracketBehind _ back c _ hy _ _ =>
      refine ⟨Text.bytes (c :: back), Text.bytes_pos (by simp), ?_⟩
      rw [hy]
      simp only [JumpDirection.Passes, Text.bytes_append]
      omega
  | startBehind _ hne =>
      refine ⟨y.bytes, Text.bytes_pos hne, ?_⟩
      simp only [JumpDirection.Passes, Text.bytes_append, Text.bytes_nil]
      omega

/-- The marker is on the side of the jump. -/
theorem Stop.faces (h : Stop y z d u cursorMarker v) (pre : Text) :
    d.Faces (pre ++ y).bytes (pre ++ u).bytes (pre ++ (u ++ cursorMarker)).bytes := by
  generalize hm : cursorMarker = m at h
  cases h with
  | markerAhead h =>
      simp only [JumpDirection.Faces, Text.bytes_append]
      omega
  | markerBehind h =>
      rw [h.1]
      simp only [JumpDirection.Faces, Text.bytes_append]
      omega
  | bracketAhead => contradiction
  | endAhead => contradiction
  | bracketBehind => contradiction
  | startBehind => contradiction

theorem Leaves.passes (h : Leaves r pre d before) (hend : AtEnd y z d)
    (hcontent : r.content = y ++ z) :
    d.Passes (pre ++ y).bytes r.kind.delimiter.bytes before.bytes := by
  cases d with
  | forward =>
      obtain rfl : z = [] := hend
      obtain rfl : before = pre ++ r.content ++ r.kind.delimiter := h
      rw [hcontent, List.append_nil]
      exact Text.bytes_append _ _
  | backward =>
      obtain rfl : y = [] := hend
      obtain rfl : pre = before ++ r.kind.delimiter := h
      rw [List.append_nil]
      exact Text.bytes_append _ _

theorem toByte_endOf (h : r.Stands b pre post) (hcontent : r.content = y ++ z)
    (hend : AtEnd y z d) : b.toByte (r.endOf d) = (pre ++ y).bytes := by
  cases d with
  | forward =>
      obtain rfl : z = [] := hend
      rw [Region.endOf, h.toByte_stop, hcontent, List.append_nil]
  | backward =>
      obtain rfl : y = [] := hend
      rw [Region.endOf, h.toByte_start, List.append_nil]

/-- A jump edits nothing and takes the cursor on: along the region, or, from the end of the region,
past its delimiter. -/
def MovesOn (b : Buffer) (r : Region) (cursor : Position) (d : JumpDirection) : Prop :=
  let splice := jump b r cursor d
  let caret := b.toByte (splice.apply b).2
  splice.edit = none ∧ (splice.apply b).1 = b ∧
    ((∃ n, 0 < n ∧ d.Passes (b.toByte cursor) n caret ∧
        b.toByte r.start ≤ caret ∧ caret ≤ b.toByte r.stop) ∨
      b.toByte cursor = b.toByte (r.endOf d) ∧
        d.Passes (b.toByte cursor) r.kind.delimiter.bytes caret)

/-- A jump deletes one marker of the region, on its side of the cursor, keeps all other text, and
puts the cursor where the marker was. -/
def DeletesMarker (b : Buffer) (r : Region) (cursor : Position) (d : JumpDirection) : Prop :=
  let splice := jump b r cursor d
  let (edited, caret) := splice.apply b
  ∃ pre u v post : Text, splice.edit = some (.delete caret cursorMarker.length) ∧
    b.text = pre ++ (u ++ cursorMarker ++ v) ++ post ∧ r.content = u ++ cursorMarker ++ v ∧
    b.toByte r.start = pre.bytes ∧
    d.Faces (b.toByte cursor) (pre ++ u).bytes (pre ++ (u ++ cursorMarker)).bytes ∧
    edited.text = pre ++ (u ++ v) ++ post ∧ edited.toByte caret = (pre ++ u).bytes

theorem movesOn_or_deletesMarker (h : Region.locate? b cursor = some r) (d : JumpDirection) :
    MovesOn b r cursor d ∨ DeletesMarker b r cursor d := by
  unfold MovesOn DeletesMarker
  obtain ⟨pre, post, y, z, hstands, hcontent, -, hcursor⟩ := exists_cut_of_locate? h
  rcases jump_cases hstands hcontent hcursor d with
    ⟨hend, before, after, htext, hleaves, hjump⟩ | ⟨u, m, v, hstop, hjump⟩
  · refine .inl ⟨by rw [hjump]; rfl, by rw [hjump]; rfl, .inr ⟨?_, ?_⟩⟩
    · rw [toByte_endOf hstands hcontent hend, hcursor]
    · have hcaret : ((jump b r cursor d).apply b).2 = b.clamp (origin.advance before) := by
        rw [hjump]
        rfl
      rw [hcaret, Buffer.toByte_clamp, Buffer.toByte_advance htext, hcursor]
      exact hleaves.passes hend hcontent
  · have hparts : b.text = pre ++ (u ++ m ++ v) ++ post := by
      rw [hstands.text, hcontent, hstop.parts_eq]
    rw [hjump]
    dsimp only
    rw [apply_stop hparts hstop.deleted]
    dsimp only
    rcases hstop.deleted with rfl | rfl
    · have hplace : b.text = (pre ++ u) ++ (v ++ post) := by simp [hparts]
      obtain ⟨n, hpos, hpasses⟩ := hstop.passes pre
      refine .inl ⟨rfl, ?_, .inl ⟨n, hpos, ?_, ?_, ?_⟩⟩
      · cases b
        simpa using hparts.symm
      · rw [hcursor, Buffer.toByte_advance hplace]
        exact hpasses
      · rw [hstands.toByte_start, Buffer.toByte_advance hplace, Text.bytes_append]
        exact Nat.le_add_right _ _
      · rw [hstands.toByte_stop, Buffer.toByte_advance hplace, hcontent, hstop.parts_eq]
        simp only [Text.bytes_append]
        omega
    · refine .inr ⟨pre, u, v, post, rfl, hparts, ?_, hstands.toByte_start, ?_, rfl, ?_⟩
      · rw [hcontent, hstop.parts_eq]
      · rw [hcursor]
        exact hstop.faces pre
      · exact Buffer.toByte_advance (by simp; rfl)

/-! ### Pressing again and again -/

/-- One press of the jump key: the region around the cursor is located, and the jump carried
out. -/
def press? (d : JumpDirection) (s : Buffer × Position) : Option (Buffer × Position) :=
  (Region.locate? s.1 s.2).map fun r => (jump s.1 r s.2 d).apply s.1

/-- A number of presses, if there is a region at each. -/
def presses (d : JumpDirection) : Nat → Buffer × Position → Option (Buffer × Position)
  | 0, s => some s
  | n + 1, s => (press? d s).bind (presses d n)

/-- The bytes that the cursor has in front of it. -/
def inFront (s : Buffer × Position) : JumpDirection → Nat
  | .forward => s.1.text.bytes - s.1.toByte s.2
  | .backward => s.1.toByte s.2

theorem inFront_le (s : Buffer × Position) (d : JumpDirection) : inFront s d ≤ s.1.text.bytes := by
  cases d with
  | forward => exact Nat.sub_le _ _
  | backward => exact s.1.toByte_le_bytes s.2

theorem inFront_lt_of_passes {next : Position} {n : Nat} (hn : 0 < n)
    (h : d.Passes (b.toByte cursor) n (b.toByte next)) :
    inFront (b, next) d < inFront (b, cursor) d := by
  have hle := b.toByte_le_bytes next
  cases d with
  | forward =>
      simp only [JumpDirection.Passes] at h
      simp only [inFront]
      omega
  | backward =>
      simp only [JumpDirection.Passes] at h
      simp only [inFront]
      omega

/-- **A press counts down**: it makes the document shorter by a marker, or leaves it and takes
the cursor on. -/
theorem press?_counts_down {s next : Buffer × Position} (h : press? d s = some next) :
    next.1.text.bytes + cursorMarker.bytes = s.1.text.bytes ∨
      next.1 = s.1 ∧ inFront next d < inFront s d := by
  obtain ⟨b, cursor⟩ := s
  obtain ⟨r, hlocate, rfl⟩ := Option.map_eq_some_iff.mp h
  replace hlocate : Region.locate? b cursor = some r := hlocate
  rcases movesOn_or_deletesMarker hlocate d with
    ⟨-, hsame, hmoves⟩ | ⟨pre, u, v, post, -, htext, -, -, -, hedited, -⟩
  · right
    refine ⟨hsame, ?_⟩
    have hpassed : ∃ n, 0 < n ∧
        d.Passes (b.toByte cursor) n (b.toByte ((jump b r cursor d).apply b).2) := by
      rcases hmoves with ⟨n, hpos, hpasses, -⟩ | ⟨-, hpasses⟩
      · exact ⟨n, hpos, hpasses⟩
      · exact ⟨_, Text.bytes_pos (by cases r.kind <;> simp [MathKind.delimiter]), hpasses⟩
    obtain ⟨n, hpos, hpasses⟩ := hpassed
    have hless := inFront_lt_of_passes hpos hpasses
    have hpair : (jump b r cursor d).apply b = (b, ((jump b r cursor d).apply b).2) :=
      Prod.ext hsame rfl
    rw [hpair]
    exact hless
  · left
    show ((jump b r cursor d).edited b).text.bytes + cursorMarker.bytes = b.text.bytes
    rw [hedited, htext]
    simp only [Text.bytes_append]
    omega

/-- What is left to do before a run ends, at most. -/
def work (s : Buffer × Position) (d : JumpDirection) : Nat :=
  s.1.text.bytes * s.1.text.bytes + inFront s d

theorem work_lt_of_press? {s next : Buffer × Position} (h : press? d s = some next) :
    work next d < work s d := by
  have hle := inFront_le next d
  rcases press?_counts_down h with hshorter | ⟨hsame, hless⟩
  · have hpos : 0 < cursorMarker.bytes := by decide
    have hless : next.1.text.bytes + 1 ≤ s.1.text.bytes := by omega
    have hsquare := Nat.mul_le_mul hless hless
    rw [Nat.add_mul, Nat.mul_add] at hsquare
    unfold work
    omega
  · rw [work, work, hsame]
    omega

theorem presses_eq_none {n : Nat} {s : Buffer × Position} (h : work s d < n) :
    presses d n s = none := by
  induction n generalizing s with
  | zero => omega
  | succ n ih =>
      rw [presses]
      cases hpress : press? d s with
      | none => rfl
      | some next =>
          have hless := work_lt_of_press? hpress
          exact ih (by omega)

/-- **A jump goes on, and jumping ends**: wherever a region is located, a jump moves the cursor on
or deletes a marker, and from any document and cursor the key can be pressed only so often before
no region is left. -/
theorem jumps_go_on_and_end (d : JumpDirection) :
    (∀ (b : Buffer) (cursor : Position) (r : Region), Region.locate? b cursor = some r →
      MovesOn b r cursor d ∨ DeletesMarker b r cursor d) ∧
    ∀ (s : Buffer × Position) (n : Nat), work s d < n → presses d n s = none :=
  ⟨fun _ _ _ h => movesOn_or_deletesMarker h d, fun _ _ => presses_eq_none⟩

/-- The inner marker is deleted, and its two sides are a marker again. -/
theorem inner_marker_deleted :
    let b : Buffer := ⟨"$𝔸#CUR#CURSORSOR$".toList⟩
    let r : Region := ⟨.inline, "𝔸#CUR#CURSORSOR".toList, ⟨0, 1⟩, ⟨0, 17⟩⟩
    Region.locate? b ⟨0, 1⟩ = some r ∧ DeletesMarker b r ⟨0, 1⟩ .forward ∧
      presses .forward 1000 (b, ⟨0, 1⟩) = none := by
  intro b r
  obtain ⟨hgo, hend⟩ := jumps_go_on_and_end .forward
  have hlocate : Region.locate? b ⟨0, 1⟩ = some r := by decide +kernel
  have hedit : ¬ (jump b r ⟨0, 1⟩ .forward).edit = none := by decide +kernel
  exact ⟨hlocate, (hgo b ⟨0, 1⟩ r hlocate).resolve_left fun hmoves => hedit hmoves.1,
    hend _ _ (by decide +kernel)⟩

end Equation

end MathTyping
