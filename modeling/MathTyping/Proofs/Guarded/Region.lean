import MathTyping.Proofs.Guarded.Delimiters
import MathTyping.Query.Detect
import MathTyping.Preview

/-!
# Guarded searches around the cursor

The searches for a region and for a query cut the document at offsets that they have just
computed: at the byte of a column, behind a dollar, between two markers, where a query starts.
Every such offset is the number of bytes of some beginning of the text, and of two offsets the
smaller one belongs to the shorter beginning.
-/

namespace MathTyping

namespace Guarded

open Text

variable {b : Buffer} {cursor : Position}

/-! ### Code -/

/-- Tell whether the cursor is inside a fenced block. -/
def inBlock (b : Buffer) (cursor : Position) : Guarded Bool := do
  let ls ← lines b
  pure ((ls.take cursor.line).countP CodeContext.isFence % 2 == 1)

/-- Tell whether the cursor is inside a span of code on its line. -/
def inSpan (b : Buffer) (cursor : Position) : Guarded Bool := do
  let some line ← line? b cursor.line | pure false
  let before ← cut line 0 (line.columnToByte cursor.column)
  pure (CodeContext.ticksFrom false before % 2 == 1)

/-- Tell whether the cursor is inside code. -/
def inCode (b : Buffer) (cursor : Position) : Guarded Bool := do
  let block ← inBlock b cursor
  if block then pure true else inSpan b cursor

/-- The line of a place of the document is there. -/
theorem line?_clamp (b : Buffer) (p : Position) :
    b.line? (b.clamp p).line = some (b.line (b.clamp p).line) := by
  obtain ⟨hinside, -⟩ := Buffer.clamp_eq_self_iff.mp (b.clamp_clamp p)
  rw [Buffer.line, Buffer.line?, List.getElem?_eq_getElem hinside, Option.getD_some]

theorem isBoundary_columnToByte (line : Text) (column : Nat) :
    line.IsBoundary (line.columnToByte column) := by
  rw [← Text.bytes_before]
  exact Text.isBoundary_takeBytes _ line

theorem inSpan_eq (b : Buffer) (cursor : Position) :
    inSpan b cursor = pure (CodeContext.inSpan b cursor) := by
  rw [inSpan, line?_eq, pure_bind, CodeContext.inSpan]
  cases b.line? cursor.line with
  | none => rfl
  | some line =>
      dsimp only
      rw [cut_zero (isBoundary_columnToByte line cursor.column), pure_bind]

theorem inCode_eq (b : Buffer) (cursor : Position) :
    inCode b cursor = pure (CodeContext.inCode b cursor) := by
  rw [inCode, inBlock, lines_eq, pure_bind, pure_bind, inSpan_eq, CodeContext.inCode,
    ← CodeContext.inBlock]
  cases CodeContext.inBlock b cursor <;> rfl

/-! ### Inline math -/

/-- Find the inline region around the cursor. -/
def inlineAt? (b : Buffer) (cursor : Position) : Guarded (Option Region) := do
  let place ← clamp b cursor
  let some line ← line? b place.line | pure none
  let split := line.columnToByte place.column
  let before ← cut line 0 split
  let after ← cut line split line.bytes
  if Region.isPadding before.getLast? after.head? then pure none
  else do
    let some opening ← findDollar? line (charsFrom 0 before).reverse | pure none
    let some closing ← findDollar? line (charsFrom split after) | pure none
    let content ← cut line (opening + 1) closing
    let delimited ← cut line 0 (opening + 1)
    let start : Position := ⟨place.line, delimited.units⟩
    let stop ← advance start content
    pure (some ⟨.inline, content, start, stop⟩)

theorem inlineAt?_eq (b : Buffer) (cursor : Position) :
    inlineAt? b cursor = pure (Region.inlineAt? b cursor) := by
  have hread : b.line? (b.clamp cursor).line =
      some (b.lineBefore cursor ++ b.lineBehind cursor) := by
    rw [line?_clamp, b.line_eq_parts]
  have hsplit := b.columnToByte_parts cursor
  rw [Region.inlineAt?_eq, inlineAt?, clamp_eq, pure_bind, line?_eq, hread, pure_bind]
  generalize b.lineBefore cursor = before, b.lineBehind cursor = after at hsplit ⊢
  dsimp only
  rw [hsplit, cut_front, pure_bind, cut_back, pure_bind, findDollar?_before,
    findDollar?_behind]
  by_cases hpadding : Region.isPadding before.getLast? after.head? = true
  · rw [if_pos hpadding, if_pos hpadding]
  · rw [if_neg hpadding, if_neg hpadding, pure_bind]
    cases hopening : before.dollars.getLast? with
    | none => rfl
    | some opening =>
        cases hclosing : (dollarsFrom before.reverse before.bytes after).head? with
        | none => rfl
        | some closing =>
            obtain ⟨x, y, rfl, hopen, -⟩ := mem_dollarsFrom_iff.mp (List.mem_of_getLast? hopening)
            obtain ⟨z, w, rfl, rfl, -⟩ := mem_dollarsFrom_iff.mp (List.mem_of_head? hclosing)
            rw [Nat.zero_add] at hopen
            let line : Text := (x ++ '$' :: y) ++ (z ++ '$' :: w)
            -- The content is between the end of one dollar and the start of another.
            have hstart : line.IsBoundary (opening + 1) :=
              ⟨x ++ ['$'], y ++ (z ++ '$' :: w), by simp [line], by rw [hopen, bytes_append]; rfl⟩
            have hstop : line.IsBoundary (Text.bytes (x ++ '$' :: y) + z.bytes) :=
              ⟨(x ++ '$' :: y) ++ z, '$' :: w, by simp [line], (bytes_append _ _).symm⟩
            have hle : opening + 1 ≤ Text.bytes (x ++ '$' :: y) + z.bytes := by
              rw [hopen, bytes_append, bytes_cons, show '$'.utf8Size = 1 from rfl]
              omega
            dsimp only
            rw [pure_bind]
            dsimp only
            rw [cut_of_isBoundary hle hstart hstop, pure_bind, cut_zero hstart, pure_bind,
              advance_eq, pure_bind]
            rfl

/-! ### Display math -/

/-- Find the display region around the cursor. -/
def displayAt? (b : Buffer) (cursor : Position) : Guarded (Option Region) := do
  let offset ← toByte b cursor
  let before ← cut b.text 0 offset
  let after ← cut b.text offset b.text.bytes
  if before.getLast? = some '$' ∧ after.head? = some '$' then pure none
  else do
    let markers ← displayMarkers b.text
    let passed := markers.countP (· + 2 ≤ offset)
    if passed % 2 = 0 then pure none
    else do
      let last ← minus passed 1
      let opening ← entry markers last
      match markers[passed]? with
      | none => pure none
      | some closing =>
          if closing < offset then pure none
          else do
            let content ← cut b.text (opening + 2) closing
            let start ← ofByte b (opening + 2)
            let stop ← advance start content
            pure (some ⟨.display, content, start, stop⟩)

theorem displayAt?_eq (b : Buffer) (cursor : Position) :
    displayAt? b cursor = pure (Region.displayAt? b cursor) := by
  have hboundary := isBoundary_toByte b cursor
  rw [displayAt?, toByte_eq, pure_bind, cut_zero hboundary, pure_bind, cut_bytes hboundary,
    pure_bind, Region.displayAt?]
  dsimp only
  split
  · rfl
  · rw [displayMarkers_eq, pure_bind]
    generalize hpassed : b.text.displayMarkers.countP (· + 2 ≤ b.toByte cursor) = passed
    split
    · rfl
    · rename_i hodd
      -- A number of passed markers that is odd is not zero, so there is a last one.
      have hlast : passed - 1 < b.text.displayMarkers.length := by
        have := List.countP_le_length (p := (· + 2 ≤ b.toByte cursor)) (l := b.text.displayMarkers)
        omega
      have hopening := List.getElem?_eq_getElem hlast
      rw [minus_of_le (by omega), pure_bind, entry_of_getElem? hopening, pure_bind, hopening]
      cases hclosing : b.text.displayMarkers[passed]? with
      | none => rfl
      | some closing =>
          obtain ⟨hnext, hvalue⟩ := List.getElem?_eq_some_iff.mp hclosing
          have happart : b.text.displayMarkers[passed - 1] + 2 ≤ closing := by
            rw [← hvalue]
            exact List.pairwise_iff_getElem.mp pairwise_displayMarkersFrom _ _ hlast hnext
              (by omega)
          obtain ⟨before, after, htext, hopen⟩ :=
            exists_of_mem_displayMarkers (List.getElem_mem hlast)
          have hstart : b.text.IsBoundary (b.text.displayMarkers[passed - 1] + 2) :=
            ⟨before ++ ['$', '$'], after, by simp [htext], by rw [hopen, bytes_append]; rfl⟩
          have hstop : b.text.IsBoundary closing := by
            obtain ⟨before, after, htext, hclose⟩ :=
              exists_of_mem_displayMarkers (List.mem_of_getElem? hclosing)
            exact ⟨before, '$' :: '$' :: after, htext, hclose⟩
          dsimp only [Option.bind_eq_bind, Option.bind_some]
          split
          · rfl
          · rw [cut_of_isBoundary happart hstart hstop, pure_bind, ofByte_eq, pure_bind,
              advance_eq, pure_bind]
            rfl

/-- Find the region around the cursor, display math first. -/
def locate? (b : Buffer) (cursor : Position) : Guarded (Option Region) := do
  match ← displayAt? b cursor with
  | some region => pure (some region)
  | none => inlineAt? b cursor

theorem locate?_eq (b : Buffer) (cursor : Position) :
    locate? b cursor = pure (Region.locate? b cursor) := by
  rw [locate?, displayAt?_eq, pure_bind, inlineAt?_eq, Region.locate?]
  cases Region.displayAt? b cursor <;> rfl

/-- The equation that may be previewed at the cursor. -/
def equation? (b : Buffer) (cursor : Position) (popupOpen : Bool) : Guarded (Option Region) := do
  if popupOpen then pure none
  else do
    let code ← inCode b cursor
    if code then pure none
    else do
      let some region ← inlineAt? b cursor | pure none
      let display ← displayAt? b cursor
      pure (if display.isSome then none else some region)

theorem equation?_eq (b : Buffer) (cursor : Position) (popupOpen : Bool) :
    equation? b cursor popupOpen = pure (Preview.equation? b cursor popupOpen) := by
  rw [equation?, inCode_eq, pure_bind, inlineAt?_eq, pure_bind, displayAt?_eq, Preview.equation?]
  cases popupOpen with
  | true => rfl
  | false =>
      cases CodeContext.inCode b cursor with
      | true => rfl
      | false =>
          cases Region.inlineAt? b cursor with
          | none => cases Region.displayAt? b cursor <;> rfl
          | some region => cases Region.displayAt? b cursor <;> rfl

/-! ### Queries -/

/-- Find the longest end of a text that `read` accepts at a place where a query may start, with
the bytes before it. -/
def tailFrom {α : Type} (boundary : Char → Bool) (read : Text → Option α) (byte : Nat)
    (fresh : Bool) : Text → Option (Nat × α)
  | [] => none
  | c :: t =>
      match if fresh then read (c :: t) else none with
      | some found => some (byte, found)
      | none => tailFrom boundary read (byte + c.utf8Size) (boundary c) t

/-- Detect a query at the end of the text before the cursor. -/
def detect? (before : Text) (cursor : Position) : Guarded (Option Query) :=
  match before.getLast? with
  | none => pure none
  | some last =>
      if last = '@' then
        if before.beginsWith "#import".toList then pure none
        else
          match tailFrom Query.beforeSnippet Query.readSnippet? 0 true before with
          | none => pure none
          | some (start, word, argument) => do
              let dropped ← cut before 0 start
              pure (some ⟨.snippet, word, argument, ⟨cursor.line, dropped.units⟩⟩)
      else if last = ' ' then pure none
      else
        match tailFrom Query.beforeSymbol Query.readSymbol? 0 true before with
        | none => pure none
        | some (start, word) => do
            let dropped ← cut before 0 start
            pure (some ⟨.symbol, word, none, ⟨cursor.line, dropped.units⟩⟩)

/-- Detect a query right before the cursor of a document. -/
def detectAt? (b : Buffer) (cursor : Position) : Guarded (Option Query) := do
  let place ← clamp b cursor
  let some line ← line? b place.line | pure none
  let before ← cut line 0 (line.columnToByte place.column)
  detect? before place

/-- A scan by bytes and a scan by code units find the same end, behind the same beginning. -/
theorem tailFrom_cases {α : Type} (boundary : Char → Bool) (read : Text → Option α)
    (byte column : Nat) (fresh : Bool) (t : Text) :
    (tailFrom boundary read byte fresh t = none ∧
        Query.scanTails boundary read column fresh t = none) ∨
      ∃ (dropped : Text) (tail : Text) (found : α), t = dropped ++ tail ∧
        tailFrom boundary read byte fresh t = some (byte + dropped.bytes, found) ∧
        Query.scanTails boundary read column fresh t = some (column + dropped.units, found) := by
  induction t generalizing byte column fresh with
  | nil => exact Or.inl ⟨rfl, rfl⟩
  | cons c t ih =>
      rw [tailFrom, Query.scanTails]
      cases hread : (if fresh then read (c :: t) else none) with
      | some found => exact Or.inr ⟨[], c :: t, found, rfl, rfl, rfl⟩
      | none =>
          rcases ih (byte + c.utf8Size) (column + charUnits c) (boundary c) with
            hnone | ⟨dropped, tail, found, rfl, hbytes, hunits⟩
          · exact Or.inl hnone
          · refine Or.inr ⟨c :: dropped, tail, found, rfl, ?_, ?_⟩
            · rw [hbytes, bytes_cons, Nat.add_assoc]
            · rw [hunits, units_cons, Nat.add_assoc]

theorem detect?_eq (before : Text) (cursor : Position) :
    detect? before cursor = pure (Query.detect? before cursor) := by
  rw [detect?, Query.detect?]
  cases before.getLast? with
  | none => rfl
  | some last =>
      dsimp only
      split
      · split
        · rfl
        · rcases tailFrom_cases Query.beforeSnippet Query.readSnippet? 0 0 true before with
            ⟨hbytes, hunits⟩ | ⟨dropped, tail, ⟨word, argument⟩, rfl, hbytes, hunits⟩
          · rw [hbytes, hunits]
            rfl
          · rw [hbytes, hunits, Nat.zero_add, Nat.zero_add]
            dsimp only
            rw [cut_front, pure_bind]
            rfl
      · split
        · rfl
        · rcases tailFrom_cases Query.beforeSymbol Query.readSymbol? 0 0 true before with
            ⟨hbytes, hunits⟩ | ⟨dropped, tail, word, rfl, hbytes, hunits⟩
          · rw [hbytes, hunits]
            rfl
          · rw [hbytes, hunits, Nat.zero_add, Nat.zero_add]
            dsimp only
            rw [cut_front, pure_bind]
            rfl

theorem detectAt?_eq (b : Buffer) (cursor : Position) :
    detectAt? b cursor = pure (Query.detectAt? b cursor) := by
  rw [detectAt?, clamp_eq, pure_bind, line?_eq, pure_bind, line?_clamp]
  dsimp only
  rw [cut_zero (isBoundary_columnToByte _ _), pure_bind, detect?_eq]
  rfl

end Guarded

end MathTyping
