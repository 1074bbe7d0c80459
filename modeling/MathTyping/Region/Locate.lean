import MathTyping.Region
import MathTyping.Text.Blank
import MathTyping.Text.Escape

/-!
# Finding the region around the cursor

Both searches look outward from the cursor and never parse the document.  An
inline region lies between the nearest unescaped dollars on the line of the
cursor.  A display region lies between two consecutive markers `$$`, the first
of which is an odd one counted from the top.  A layout that leaves a doubt
gives no region.
-/

namespace MathTyping

namespace Text

/-- List the byte offsets of the unescaped dollars of a line, the text before it
given backwards. -/
def dollarsFrom (seen : Text) (offset : Nat) : Text → List Nat
  | [] => []
  | c :: t =>
      let later := dollarsFrom (c :: seen) (offset + c.utf8Size) t
      if c = '$' ∧ escapedAfter seen = false then offset :: later else later

/-- List the byte offsets of the unescaped dollars of a line. -/
def dollars (line : Text) : List Nat := dollarsFrom [] 0 line

/-- Tell whether a neighbour of a double dollar is content: there is one, and it
is not blank. -/
def touches (neighbour : Option Char) : Bool := neighbour.any fun c => !isAsciiBlank c

/-- List the byte offsets of the display markers from a place on.  The text
before is given backwards, and `lone` counts the single dollars since the last
line feed.  A double dollar that closes one inline expression and opens the
next is no marker: an odd number of single dollars precedes it, and content
touches it on both sides. -/
def displayMarkersFrom (seen : Text) (offset lone : Nat) : Text → List Nat
  | [] => []
  | c :: t =>
      if c = '\n' then displayMarkersFrom (c :: seen) (offset + 1) 0 t
      else if c = '$' ∧ escapedAfter seen = false then
        match t with
        | [] => []
        | d :: u =>
            if d = '$' then
              -- Both dollars are taken at once, so three in a row hold one marker.
              let later := displayMarkersFrom (d :: c :: seen) (offset + 2) lone u
              if lone % 2 = 1 ∧ touches seen.head? ∧ touches u.head? then later
              else offset :: later
            else displayMarkersFrom (c :: seen) (offset + 1) (lone + 1) (d :: u)
      else displayMarkersFrom (c :: seen) (offset + c.utf8Size) lone t

/-- List the byte offsets of the display markers of a document. -/
def displayMarkers (t : Text) : List Nat := displayMarkersFrom [] 0 0 t

end Text

namespace Region

/-- Tell whether the characters around the cursor are a dollar and a space: the
cursor then stands on padding, not on content. -/
def isPadding (before after : Option Char) : Bool :=
  (before == some '$' && after == some ' ') || (before == some ' ' && after == some '$')

/-- Find the inline region around the cursor. -/
def inlineAt? (b : Buffer) (cursor : Position) : Option Region :=
  let cursor := b.clamp cursor
  let line := b.line cursor.line
  let split := line.columnToByte cursor.column
  let before := Text.takeBytes split line
  let after := Text.dropBytes split line
  if isPadding before.getLast? after.head? then none
  else do
    let opening ← (line.dollars.filter (· < split)).getLast?
    let closing ← line.dollars.find? (split ≤ ·)
    let content := line.slice (opening + 1) closing
    let start : Position := ⟨cursor.line, line.byteToColumn (opening + 1)⟩
    pure ⟨.inline, content, start, start.advance content⟩

/-- Find the display region around the cursor. -/
def displayAt? (b : Buffer) (cursor : Position) : Option Region :=
  let offset := b.toByte cursor
  let before := Text.takeBytes offset b.text
  let after := Text.dropBytes offset b.text
  if before.getLast? = some '$' ∧ after.head? = some '$' then none
  else
    let markers := b.text.displayMarkers
    let passed := markers.countP (· + 2 ≤ offset)
    -- After an even number of markers the cursor is between two regions.
    if passed % 2 = 0 then none
    else do
      let opening ← markers[passed - 1]?
      let closing ← markers[passed]?
      if closing < offset then none
      else
        let content := b.text.slice (opening + 2) closing
        let start := b.ofByte (opening + 2)
        pure ⟨.display, content, start, start.advance content⟩

/-- Find the region around the cursor, display math first. -/
def locate? (b : Buffer) (cursor : Position) : Option Region :=
  (displayAt? b cursor).or (inlineAt? b cursor)

end Region

end MathTyping
