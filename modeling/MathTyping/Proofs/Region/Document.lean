import Mathlib.Data.List.Chain
import MathTyping.Proofs.Region.Extent

/-!
# Documents with math

A document is written as a list of segments: prose, and math of either kind between its
delimiters.  No segment holds a dollar or a backslash of its own, and two expressions stand
apart, unless both are inline and content touches the double dollar that they share.

The scan for display markers goes over such a document segment by segment.  Between two
segments it has read an even number of lone dollars of the line, inside an inline expression an
odd one, so it takes `$$` for a marker exactly where display math begins or ends
(`displayMarkers_buffer`).  Hence every expression is found from every cursor between its
delimiters (`locate?_eq_region`).
-/

namespace MathTyping

namespace Text

variable {seen s t : Text} {offset lone : Nat}

/-! ### The scan for markers, by what comes next -/

/-- A text without dollars holds no marker, and a line feed in it ends the count of dollars. -/
theorem displayMarkersFrom_append (t : Text) (h : '$' ∉ s) :
    displayMarkersFrom seen offset lone (s ++ t) =
      displayMarkersFrom (s.reverse ++ seen) (offset + s.bytes) (if '\n' ∈ s then 0 else lone)
        t := by
  induction s generalizing seen offset lone with
  | nil => simp
  | cons c s ih =>
      obtain ⟨hc, hs⟩ := not_or.mp (List.mem_cons.not.mp h)
      by_cases hfeed : c = '\n'
      · subst hfeed
        have hsize : '\n'.utf8Size = 1 := rfl
        rw [List.cons_append, displayMarkersFrom.eq_def]
        simp [ih hs, hsize, Nat.add_assoc]
      · have hdollar : ¬ (c = '$' ∧ escapedAfter seen = false) := fun hand => hc hand.1.symm
        rw [List.cons_append, displayMarkersFrom.eq_def]
        simp only [if_neg hfeed, if_neg hdollar]
        simp [ih hs, Ne.symm hfeed, Nat.add_assoc]

/-- A lone dollar is counted. -/
theorem displayMarkersFrom_lone {c : Char} (hseen : escapedAfter seen = false) (hc : c ≠ '$') :
    displayMarkersFrom seen offset lone ('$' :: c :: t) =
      displayMarkersFrom ('$' :: seen) (offset + 1) (lone + 1) (c :: t) := by
  rw [displayMarkersFrom.eq_def]
  simp [hseen, hc]

/-- A dollar at the end of the document is no marker. -/
theorem displayMarkersFrom_last (hseen : escapedAfter seen = false) :
    displayMarkersFrom seen offset lone ['$'] = [] := by
  rw [displayMarkersFrom.eq_def]
  simp [hseen]

/-- A double dollar behind an even number of lone ones is a marker. -/
theorem displayMarkersFrom_marker (hseen : escapedAfter seen = false) (hlone : lone % 2 = 0) :
    displayMarkersFrom seen offset lone ('$' :: '$' :: t) =
      offset :: displayMarkersFrom ('$' :: '$' :: seen) (offset + 2) lone t := by
  rw [displayMarkersFrom.eq_def]
  simp [hseen, hlone]

/-- A double dollar that joins two inline expressions is none. -/
theorem displayMarkersFrom_joint (hseen : escapedAfter seen = false) (hlone : lone % 2 = 1)
    (hbefore : touches seen.head? = true) (hbehind : touches t.head? = true) :
    displayMarkersFrom seen offset lone ('$' :: '$' :: t) =
      displayMarkersFrom ('$' :: '$' :: seen) (offset + 2) lone t := by
  rw [displayMarkersFrom.eq_def]
  simp [hseen, hlone, hbefore, hbehind]

end Text

/-! ### Segments -/

/-- A piece of a document: prose, or math without its delimiters. -/
inductive Segment where
  | prose (text : Text)
  | math (kind : MathKind) (content : Text)
deriving DecidableEq

namespace Segment

open Position (origin)

/-- The text of a segment. -/
def text : Segment → Text
  | prose t => t
  | math kind content => kind.delimiter ++ content ++ kind.delimiter

/-- The text of some consecutive segments. -/
def render (segments : List Segment) : Text := segments.flatMap text

/-- A text that holds no delimiter and escapes none. -/
def IsPlain (t : Text) : Prop := '$' ∉ t ∧ '\\' ∉ t

instance (t : Text) : Decidable (IsPlain t) := inferInstanceAs (Decidable (_ ∧ _))

/-- What a segment may hold: math is not empty, and inline math is on one line. -/
def Allowed : Segment → Prop
  | prose t => IsPlain t
  | math .inline content => IsPlain content ∧ content ≠ [] ∧ '\n' ∉ content
  | math .display content => IsPlain content ∧ content ≠ []

instance : (s : Segment) → Decidable s.Allowed
  | prose _ => inferInstanceAs (Decidable (IsPlain _))
  | math .inline _ => inferInstanceAs (Decidable (_ ∧ _ ∧ _))
  | math .display _ => inferInstanceAs (Decidable (_ ∧ _))

/-- What may stand side by side with nothing between: two expressions only if both are inline
and neither has a blank at the dollars between them. -/
def Meets : Segment → Segment → Prop
  | math .inline c, math .inline d =>
      (∀ e ∈ c.getLast?, isAsciiBlank e = false) ∧ ∀ e ∈ d.head?, isAsciiBlank e = false
  | math _ _, math _ _ => False
  | _, _ => True

instance : (s t : Segment) → Decidable (Meets s t)
  | math .inline _, math .inline _ =>
      @instDecidableAnd _ _ (Option.decidableForallMem _) (Option.decidableForallMem _)
  | math .inline _, math .display _ => inferInstanceAs (Decidable False)
  | math .display _, math _ _ => inferInstanceAs (Decidable False)
  | prose _, _ => inferInstanceAs (Decidable True)
  | math .inline _, prose _ => inferInstanceAs (Decidable True)
  | math .display _, prose _ => inferInstanceAs (Decidable True)

/-- Prose that separates its neighbours, and math. -/
def isSolid (s : Segment) : Bool := decide (s ≠ prose [])

/-- The region of math that is written behind some segments. -/
def region (before : List Segment) (kind : MathKind) (content : Text) : Region :=
  let start := origin.advance (render before ++ kind.delimiter)
  ⟨kind, content, start, start.advance content⟩

@[simp] theorem render_nil : render [] = [] := rfl

@[simp] theorem render_cons (s : Segment) (rest : List Segment) :
    render (s :: rest) = s.text ++ render rest := rfl

@[simp] theorem render_append (s t : List Segment) : render (s ++ t) = render s ++ render t :=
  List.flatMap_append

theorem isPlain_content {kind : MathKind} {content : Text} (h : (math kind content).Allowed) :
    IsPlain content ∧ content ≠ [] := by
  cases kind with
  | inline => exact ⟨h.1, h.2.1⟩
  | display => exact h

/-- A text that is not empty begins and ends with characters of its own. -/
theorem exists_cons_of_plain {t : Text} (h : IsPlain t) (hne : t ≠ []) :
    ∃ c rest, t = c :: rest ∧ c ≠ '$' := by
  obtain ⟨c, rest, rfl⟩ := List.exists_cons_of_ne_nil hne
  exact ⟨c, rest, rfl, (List.ne_of_not_mem_cons h.1).symm⟩

theorem backslash_notMem_text {s : Segment} (h : s.Allowed) : '\\' ∉ s.text := by
  cases s with
  | prose t => exact h.2
  | math kind content =>
      have hcontent := (isPlain_content h).1.2
      cases kind <;> simp [text, MathKind.delimiter, hcontent]

theorem backslash_notMem_render {segments : List Segment} (h : ∀ s ∈ segments, s.Allowed) :
    '\\' ∉ render segments := by
  intro hmem
  obtain ⟨s, hs, hc⟩ := List.mem_flatMap.mp hmem
  exact backslash_notMem_text (h s hs) hc

/-! ### The markers of a document -/

/-- The byte offsets of the delimiters of display math. -/
def markersFrom (offset : Nat) : List Segment → List Nat
  | [] => []
  | math .display content :: rest =>
      offset :: (offset + content.bytes + 2) :: markersFrom (offset + content.bytes + 4) rest
  | s :: rest => markersFrom (offset + s.text.bytes) rest

theorem bytes_inline (content : Text) :
    (math .inline content).text.bytes = content.bytes + 2 := by
  have hone : '$'.utf8Size = 1 := rfl
  simp [text, MathKind.delimiter, hone]
  omega

theorem bytes_display (content : Text) :
    (math .display content).text.bytes = content.bytes + 4 := by
  have hone : '$'.utf8Size = 1 := rfl
  simp [text, MathKind.delimiter, hone]
  omega

theorem markersFrom_inline (offset : Nat) (content : Text) (rest : List Segment) :
    markersFrom offset (math .inline content :: rest) =
      markersFrom (offset + content.bytes + 2) rest := by
  rw [markersFrom, bytes_inline, Nat.add_assoc]
  simp

theorem markersFrom_append (offset : Nat) (s t : List Segment) :
    markersFrom offset (s ++ t) =
      markersFrom offset s ++ markersFrom (offset + (render s).bytes) t := by
  induction s generalizing offset with
  | nil => rfl
  | cons first s ih =>
      rcases first with t | ⟨_ | _, content⟩
      · simp [markersFrom, ih, Nat.add_assoc]
      · simp [markersFrom, ih, Nat.add_assoc]
      · simp [markersFrom, ih, bytes_display, Nat.add_assoc]

/-- Every expression has two markers or none. -/
theorem even_length_markersFrom (offset : Nat) (segments : List Segment) :
    (markersFrom offset segments).length % 2 = 0 := by
  induction segments generalizing offset with
  | nil => rfl
  | cons s rest ih =>
      rcases s with t | ⟨_ | _, content⟩
      · exact ih _
      · exact ih _
      · have := ih (offset + content.bytes + 4)
        simp [markersFrom]
        omega

/-- The markers of some segments are within their text. -/
theorem mem_markersFrom {offset m : Nat} {segments : List Segment}
    (h : m ∈ markersFrom offset segments) :
    offset ≤ m ∧ m + 2 ≤ offset + (render segments).bytes := by
  induction segments generalizing offset with
  | nil => contradiction
  | cons s rest ih =>
      rw [render_cons, Text.bytes_append]
      rcases s with t | ⟨_ | _, content⟩
      · have := ih h
        omega
      · have := ih h
        omega
      · have hbytes := bytes_display content
        simp only [markersFrom, List.mem_cons] at h
        rcases h with rfl | rfl | hmem
        · omega
        · omega
        · have := ih hmem
          omega

/-- Prose that is empty changes neither the text nor the markers. -/
theorem filter_isSolid (offset : Nat) (segments : List Segment) :
    render (segments.filter isSolid) = render segments ∧
      markersFrom offset (segments.filter isSolid) = markersFrom offset segments := by
  induction segments generalizing offset with
  | nil => exact ⟨rfl, rfl⟩
  | cons s rest ih =>
      by_cases hs : s = prose []
      · subst hs
        have hnot : isSolid (prose []) = false := by decide
        simp [hnot, text, markersFrom, ih, (ih 0).1]
      · have hsolid : isSolid s = true := decide_eq_true hs
        rw [List.filter_cons_of_pos hsolid]
        refine ⟨by rw [render_cons, render_cons, (ih 0).1], ?_⟩
        rcases s with t | ⟨_ | _, content⟩ <;> simp [markersFrom, ih]

/-- What the scan finds from a place between two segments on. -/
def ScansOutside (segments : List Segment) : Prop :=
  ∀ seen offset lone, '\\' ∉ seen → lone % 2 = 0 →
    Text.displayMarkersFrom seen offset lone (render segments) = markersFrom offset segments

/-- What the scan finds from the first dollar of an inline expression on. -/
def ScansInside (segments : List Segment) : Prop :=
  ∀ seen offset lone content, '\\' ∉ seen → lone % 2 = 1 → (math .inline content).Allowed →
    (math .inline content :: segments).IsChain Meets →
    Text.displayMarkersFrom seen offset lone (content ++ '$' :: render segments) =
      markersFrom (offset + content.bytes + 1) segments

variable {rest : List Segment}

theorem backslash_notMem_reverse_append {s seen : Text} (hs : '\\' ∉ s) (hseen : '\\' ∉ seen) :
    '\\' ∉ s.reverse ++ seen := by
  simp [hs, hseen]

theorem scansOutside_prose {t : Text} (h : ScansOutside rest) (ht : (prose t).Allowed) :
    ScansOutside (prose t :: rest) := by
  intro seen offset lone hseen hlone
  rw [render_cons, text, Text.displayMarkersFrom_append _ ht.1]
  exact h _ _ _ (backslash_notMem_reverse_append ht.2 hseen) (by split <;> omega)

theorem scansOutside_inline {content : Text} (h : ScansInside rest)
    (hcontent : (math .inline content).Allowed)
    (happart : (math .inline content :: rest).IsChain Meets) :
    ScansOutside (math .inline content :: rest) := by
  intro seen offset lone hseen hlone
  obtain ⟨c, more, hcons, hc⟩ := exists_cons_of_plain hcontent.1 hcontent.2.1
  have htext : render (math .inline content :: rest) =
      '$' :: c :: (more ++ '$' :: render rest) := by
    simp [text, MathKind.delimiter, hcons]
  rw [htext, Text.displayMarkersFrom_lone (Text.escapedAfter_of_notMem hseen) hc,
    ← List.cons_append, ← hcons, h _ _ _ content (by simpa using hseen) (by omega) hcontent happart,
    markersFrom_inline]
  congr 1
  omega

theorem scansOutside_display {content : Text} (h : ScansOutside rest)
    (hcontent : (math .display content).Allowed) :
    ScansOutside (math .display content :: rest) := by
  intro seen offset lone hseen hlone
  have htext : render (math .display content :: rest) =
      '$' :: '$' :: (content ++ '$' :: '$' :: render rest) := by
    simp [text, MathKind.delimiter]
  have hinside : '\\' ∉ content.reverse ++ '$' :: '$' :: seen :=
    backslash_notMem_reverse_append hcontent.1.2 (by simpa using hseen)
  have heven : (if '\n' ∈ content then 0 else lone) % 2 = 0 := by split <;> omega
  rw [htext, Text.displayMarkersFrom_marker (Text.escapedAfter_of_notMem hseen) hlone,
    Text.displayMarkersFrom_append _ hcontent.1.1,
    Text.displayMarkersFrom_marker (Text.escapedAfter_of_notMem hinside) heven,
    h _ _ _ (by simpa using hinside) heven, markersFrom]
  simp only [List.cons.injEq, true_and]
  refine ⟨by omega, ?_⟩
  congr 1
  omega

theorem scansInside_nil : ScansInside [] := by
  intro seen offset lone content hseen hlone hcontent _
  have hend : '\\' ∉ content.reverse ++ seen := backslash_notMem_reverse_append hcontent.1.2 hseen
  rw [render_nil, Text.displayMarkersFrom_append _ hcontent.1.1,
    Text.displayMarkersFrom_last (Text.escapedAfter_of_notMem hend)]
  rfl

theorem scansInside_prose {t : Text} (h : ScansOutside (prose t :: rest))
    (ht : (prose t).Allowed) (hne : t ≠ []) : ScansInside (prose t :: rest) := by
  intro seen offset lone content hseen hlone hcontent _
  have hend : '\\' ∉ content.reverse ++ seen := backslash_notMem_reverse_append hcontent.1.2 hseen
  obtain ⟨c, more, hcons, hc⟩ := exists_cons_of_plain ht hne
  have htext : render (prose t :: rest) = c :: (more ++ render rest) := by
    simp [text, hcons]
  rw [Text.displayMarkersFrom_append _ hcontent.1.1, if_neg hcontent.2.2, htext,
    Text.displayMarkersFrom_lone (Text.escapedAfter_of_notMem hend) hc, ← htext,
    h _ _ _ (by simpa using hend) (by omega)]

theorem scansInside_inline {d : Text} (h : ScansInside rest)
    (hd : (math .inline d).Allowed) : ScansInside (math .inline d :: rest) := by
  intro seen offset lone content hseen hlone hcontent happart
  have hend : '\\' ∉ content.reverse ++ seen := backslash_notMem_reverse_append hcontent.1.2 hseen
  obtain ⟨⟨hlast, hfirst⟩, hrest⟩ := List.isChain_cons_cons.mp happart
  obtain ⟨init, last, hinit⟩ := (List.eq_nil_or_concat content).resolve_left hcontent.2.1
  obtain ⟨first, more, hcons, -⟩ := exists_cons_of_plain hd.1 hd.2.1
  have htext : render (math .inline d :: rest) = '$' :: (d ++ '$' :: render rest) := by
    simp [text, MathKind.delimiter]
  have hbefore : Text.touches (content.reverse ++ seen).head? = true := by
    have := hlast last (by simp [hinit])
    simp [hinit, Text.touches, this]
  have hbehind : Text.touches (d ++ '$' :: render rest).head? = true := by
    have := hfirst first (by simp [hcons])
    simp [hcons, Text.touches, this]
  rw [Text.displayMarkersFrom_append _ hcontent.1.1, if_neg hcontent.2.2, htext,
    Text.displayMarkersFrom_joint (Text.escapedAfter_of_notMem hend) hlone hbefore hbehind,
    h _ _ _ d (by simpa using hend) hlone hd hrest, markersFrom_inline]
  congr 1
  omega

theorem scansInside_display (content : Text) : ScansInside (math .display content :: rest) := by
  intro seen offset lone inline hseen hlone hinline happart
  exact absurd (List.isChain_cons_cons.mp happart).1 id

/-- The scan over segments that may stand side by side finds the delimiters of display math. -/
theorem scans_of_isChain {segments : List Segment} (hallowed : ∀ s ∈ segments, s.Allowed)
    (hsolid : ∀ s ∈ segments, isSolid s = true) (happart : segments.IsChain Meets) :
    ScansOutside segments ∧ ScansInside segments := by
  -- Inline math hands the scan over before its last dollar, which the next segment may join, so
  -- both statements go through one induction.
  induction segments with
  | nil => exact ⟨fun _ _ _ _ _ => rfl, scansInside_nil⟩
  | cons s rest ih =>
      obtain ⟨houtside, hinside⟩ := ih (fun t ht => hallowed t (List.mem_cons_of_mem _ ht))
        (fun t ht => hsolid t (List.mem_cons_of_mem _ ht)) happart.tail
      have hs := hallowed s List.mem_cons_self
      rcases s with t | ⟨_ | _, content⟩
      · have hne : t ≠ [] := by
          rintro rfl
          exact absurd (hsolid _ List.mem_cons_self) (by decide)
        have hprose := scansOutside_prose houtside hs
        exact ⟨hprose, scansInside_prose hprose hs hne⟩
      · exact ⟨scansOutside_inline hinside hs happart, scansInside_inline hinside hs⟩
      · exact ⟨scansOutside_display houtside hs, scansInside_display content⟩

end Segment

/-! ### Finding the math of a document -/

/-- A document whose segments may stand as they do; empty prose separates nothing. -/
structure Document where
  segments : List Segment
  allowed : ∀ s ∈ segments, s.Allowed
  apart : (segments.filter Segment.isSolid).IsChain Segment.Meets

namespace Document

open Position (origin)
open Segment (render markersFrom)

/-- The document as a buffer. -/
def buffer (doc : Document) : Buffer := ⟨render doc.segments⟩

/-- Tell whether a position is between a dollar and a space. -/
def BesidePadding (b : Buffer) (p : Position) : Prop :=
  let before := Text.takeBytes (b.toByte p) b.text
  let behind := Text.dropBytes (b.toByte p) b.text
  before.getLast? = some '$' ∧ behind.head? = some ' ' ∨
    before.getLast? = some ' ' ∧ behind.head? = some '$'

instance (b : Buffer) (p : Position) : Decidable (BesidePadding b p) :=
  inferInstanceAs (Decidable (_ ∨ _))

theorem displayMarkers_buffer (doc : Document) :
    doc.buffer.text.displayMarkers = markersFrom 0 doc.segments := by
  have hallowed : ∀ s ∈ doc.segments.filter Segment.isSolid, s.Allowed :=
    fun s hs => doc.allowed s (List.mem_filter.mp hs).1
  have hsolid : ∀ s ∈ doc.segments.filter Segment.isSolid, Segment.isSolid s = true :=
    fun s hs => (List.mem_filter.mp hs).2
  obtain ⟨houtside, -⟩ := Segment.scans_of_isChain hallowed hsolid doc.apart
  obtain ⟨hrender, hmarkers⟩ := Segment.filter_isSolid 0 doc.segments
  have hscan := houtside [] 0 0 List.not_mem_nil rfl
  rwa [hrender, hmarkers] at hscan

variable {doc : Document} {before after : List Segment} {kind : MathKind} {content : Text}
  {cursor : Position}

theorem allowed_math (hdoc : doc.segments = before ++ .math kind content :: after) :
    (Segment.math kind content).Allowed :=
  doc.allowed _ (by simp [hdoc])

theorem region_stands (hdoc : doc.segments = before ++ .math kind content :: after) :
    (Segment.region before kind content).Stands doc.buffer (render before ++ kind.delimiter)
      (kind.delimiter ++ render after) where
  text := by simp [buffer, hdoc, Segment.text, Segment.region]
  opening := List.suffix_append _ _
  closing := List.prefix_append _ _
  start := rfl
  stop := rfl

/-- A cursor between the delimiters cuts the content, and the bytes of its place are known. -/
theorem exists_cut_content (hdoc : doc.segments = before ++ .math kind content :: after)
    (hcursor : (Segment.region before kind content).contains cursor = true) :
    ∃ y z, content = y ++ z ∧
      Position.Names origin (doc.buffer.clamp cursor) ((render before ++ kind.delimiter) ++ y) ∧
      doc.buffer.text = ((render before ++ kind.delimiter) ++ y) ++
        (z ++ (kind.delimiter ++ render after)) ∧
      doc.buffer.toByte cursor = Text.bytes ((render before ++ kind.delimiter) ++ y) := by
  have hstands := region_stands hdoc
  obtain ⟨y, z, hcontent, hnames⟩ := hstands.exists_cut hcursor
  have hcut : content = y ++ z := hcontent
  have htext : doc.buffer.text = ((render before ++ kind.delimiter) ++ y) ++
      (z ++ (kind.delimiter ++ render after)) := by
    rw [hstands.text, hcontent]
    simp
  refine ⟨y, z, hcut, hnames, htext, ?_⟩
  rw [← Buffer.toByte_clamp, Buffer.toByte_of_names htext hnames]

/-- A cut of a content is not between two dollars. -/
theorem not_between_dollars {y z pre post : Text} (hplain : '$' ∉ y ++ z) (hne : y ++ z ≠ []) :
    ¬ ((pre ++ y).getLast? = some '$' ∧ (z ++ post).head? = some '$') := by
  rintro ⟨hlast, hfirst⟩
  rcases List.eq_nil_or_concat y with rfl | ⟨init, c, rfl⟩
  · obtain ⟨c, rest, rfl⟩ := List.exists_cons_of_ne_nil (show z ≠ [] from hne)
    simp at hfirst hplain
    exact hplain.1 hfirst.symm
  · rw [List.concat_eq_append, ← List.append_assoc, List.getLast?_concat] at hlast
    simp at hlast hplain
    exact hplain.2.1 hlast.symm

/-- Between its delimiters display math is found. -/
theorem displayAt?_display (hdoc : doc.segments = before ++ .math .display content :: after)
    (hcursor : (Segment.region before .display content).contains cursor = true) :
    Region.displayAt? doc.buffer cursor = some (Segment.region before .display content) := by
  obtain ⟨⟨hplain, -⟩, hne⟩ := allowed_math hdoc
  have hstands := region_stands hdoc
  obtain ⟨y, z, rfl, -, htext, hbyte⟩ := exists_cut_content hdoc hcursor
  have hone : '$'.utf8Size = 1 := rfl
  have hpre : Text.bytes (render before ++ MathKind.display.delimiter) =
      (render before).bytes + 2 := by
    simp [MathKind.delimiter, hone]
  have hmarkers : doc.buffer.text.displayMarkers =
      (markersFrom 0 before ++ [(render before).bytes]) ++
        Text.bytes ((render before ++ MathKind.display.delimiter) ++ (y ++ z)) ::
          markersFrom ((render before).bytes + Text.bytes (y ++ z) + 4) after := by
    rw [displayMarkers_buffer, hdoc, Segment.markersFrom_append, Text.bytes_append _ (y ++ z), hpre]
    simp [markersFrom]
    omega
  -- Passed are the markers of the segments before and the one that opens the block: an odd number.
  have hpassed : ∀ m ∈ markersFrom 0 before ++ [(render before).bytes],
      m + 2 ≤ doc.buffer.toByte cursor := by
    intro m hm
    rw [hbyte, Text.bytes_append, hpre]
    rcases List.mem_append.mp hm with hmem | hmem
    · have := Segment.mem_markersFrom hmem
      omega
    · obtain rfl := List.mem_singleton.mp hmem
      omega
  have hahead : ∀ m ∈ Text.bytes ((render before ++ MathKind.display.delimiter) ++ (y ++ z)) ::
      markersFrom ((render before).bytes + Text.bytes (y ++ z) + 4) after,
      doc.buffer.toByte cursor < m + 2 := by
    intro m hm
    rw [hbyte, Text.bytes_append, hpre]
    rcases List.mem_cons.mp hm with rfl | hmem
    · rw [Text.bytes_append, hpre, Text.bytes_append]
      omega
    · have := Segment.mem_markersFrom hmem
      rw [Text.bytes_append] at this
      omega
  have hodd : ¬ (markersFrom 0 before ++ [(render before).bytes]).length % 2 = 0 := by
    have := Segment.even_length_markersFrom 0 before
    simp
    omega
  have hcuts : ¬ ((Text.takeBytes (doc.buffer.toByte cursor) doc.buffer.text).getLast? = some '$' ∧
      (Text.dropBytes (doc.buffer.toByte cursor) doc.buffer.text).head? = some '$') := by
    rw [hbyte, htext, Text.takeBytes_bytes_append, Text.dropBytes_bytes_append]
    exact not_between_dollars hplain hne
  have hinside : ¬ Text.bytes ((render before ++ MathKind.display.delimiter) ++ (y ++ z)) <
      doc.buffer.toByte cursor := by
    rw [hbyte]
    simp
  have hslice : doc.buffer.text.slice (Text.bytes (render before ++ MathKind.display.delimiter))
      (Text.bytes ((render before ++ MathKind.display.delimiter) ++ (y ++ z))) = y ++ z := by
    rw [hstands.text]
    exact Text.slice_append _ _ _
  rw [Region.displayAt?_eq hmarkers hpassed hahead, if_neg (not_or.mpr ⟨hcuts, hodd⟩)]
  simp only [List.getLast?_concat, List.head?_cons, Option.bind_eq_bind, Option.bind_some,
    Option.pure_def]
  rw [if_neg hinside, ← hpre, hslice, Buffer.ofByte_bytes hstands.text_eq]
  rfl

/-- Between the dollars of inline math there is no display math. -/
theorem displayAt?_inline (hdoc : doc.segments = before ++ .math .inline content :: after)
    (hcursor : (Segment.region before .inline content).contains cursor = true) :
    Region.displayAt? doc.buffer cursor = none := by
  obtain ⟨y, z, rfl, -, htext, hbyte⟩ := exists_cut_content hdoc hcursor
  have hone : '$'.utf8Size = 1 := rfl
  have hpre : Text.bytes (render before ++ MathKind.inline.delimiter) =
      (render before).bytes + 1 := by
    simp [MathKind.delimiter, hone]
  have hmarkers : doc.buffer.text.displayMarkers = markersFrom 0 before ++
      markersFrom ((render before).bytes + Text.bytes (y ++ z) + 2) after := by
    rw [displayMarkers_buffer, hdoc, Segment.markersFrom_append, Segment.markersFrom_inline,
      Nat.zero_add]
  have hpassed : ∀ m ∈ markersFrom 0 before, m + 2 ≤ doc.buffer.toByte cursor := by
    intro m hm
    have := Segment.mem_markersFrom hm
    rw [hbyte, Text.bytes_append, hpre]
    omega
  have hahead : ∀ m ∈ markersFrom ((render before).bytes + Text.bytes (y ++ z) + 2) after,
      doc.buffer.toByte cursor < m + 2 := by
    intro m hm
    have := Segment.mem_markersFrom hm
    rw [Text.bytes_append] at this
    rw [hbyte, Text.bytes_append, hpre]
    omega
  rw [Region.displayAt?_eq hmarkers hpassed hahead,
    if_pos (Or.inr (Segment.even_length_markersFrom 0 before))]

/-- A line of the document escapes nothing. -/
theorem backslash_notMem_line (doc : Document) {index : Nat} (h : index < doc.buffer.lineCount) :
    '\\' ∉ doc.buffer.line index := by
  obtain ⟨-, head, tail, htext, -⟩ := Buffer.exists_line h
  intro hmem
  have hall : '\\' ∈ doc.buffer.text := by
    rw [htext]
    exact List.mem_append_left _ (List.mem_append_right _ hmem)
  exact Segment.backslash_notMem_render doc.allowed hall

/-- Between its dollars inline math is found, except beside padding. -/
theorem inlineAt?_inline (hdoc : doc.segments = before ++ .math .inline content :: after)
    (hcursor : (Segment.region before .inline content).contains cursor = true) :
    Region.inlineAt? doc.buffer cursor =
      if BesidePadding doc.buffer cursor then none
      else some (Segment.region before .inline content) := by
  obtain ⟨⟨hplain, -⟩, -, hfeed⟩ := allowed_math hdoc
  obtain ⟨y, z, rfl, hnames, htext, hbyte⟩ := exists_cut_content hdoc hcursor
  obtain ⟨hy, hz⟩ := not_or.mp (List.mem_append.not.mp hplain)
  have hline : '\n' ∉ ('$' :: y) ++ (z ++ ['$']) := by
    simp at hfeed ⊢
    exact hfeed
  have hstretch : doc.buffer.text =
      render before ++ (('$' :: y) ++ (z ++ ['$'])) ++ render after := by
    simp [htext, MathKind.delimiter]
  have hnamed : Position.Names origin (doc.buffer.clamp cursor) (render before ++ '$' :: y) := by
    simpa [MathKind.delimiter] using hnames
  obtain ⟨m, hfront, hback, hstart⟩ := Buffer.exists_parts_of_names hstretch hline hnamed
  have htail : (z ++ ['$']) ++ m = z ++ '$' :: m := by simp
  rw [htail] at hback
  -- No backslash is on the line, so both dollars count; the content holds no other.
  have hescape : '\\' ∉ doc.buffer.lineBefore cursor ++ doc.buffer.lineBehind cursor := by
    rw [← Buffer.line_eq_parts]
    exact doc.backslash_notMem_line (Buffer.clamp_eq_self_iff.mp (doc.buffer.clamp_clamp cursor)).1
  have hgap : Region.InGap (doc.buffer.lineBefore cursor) (doc.buffer.lineBehind cursor)
      (render before).lastLine y z m := by
    rw [hfront, hback] at hescape
    refine ⟨hfront, hback, Text.unescaped_of_notMem ?_, Text.unescaped_of_notMem ?_,
      Text.bare_of_notMem _ hplain⟩
    · simp at hescape ⊢
      exact hescape.1
    · rw [hfront]
      simp at hescape ⊢
      tauto
  have hpadding : Region.isPadding (doc.buffer.lineBefore cursor).getLast?
      (doc.buffer.lineBehind cursor).head? = true ↔ BesidePadding doc.buffer cursor := by
    have hlast : (doc.buffer.lineBefore cursor).getLast? =
        ((render before ++ MathKind.inline.delimiter) ++ y).getLast? := by
      simp [hfront, MathKind.delimiter, List.getLast?_append, List.getLast?_cons]
    have hfirst : (doc.buffer.lineBehind cursor).head? =
        (z ++ (MathKind.inline.delimiter ++ render after)).head? := by
      simp [hback, MathKind.delimiter, List.head?_append]
    rw [Region.isPadding_iff, BesidePadding, hbyte, htext, Text.takeBytes_bytes_append,
      Text.dropBytes_bytes_append, hlast, hfirst]
  have hregion : (Segment.region before .inline (y ++ z)).start =
      ⟨(doc.buffer.clamp cursor).line, Text.units ((render before).lastLine ++ ['$'])⟩ := by
    show origin.advance (render before ++ ['$']) = _
    rw [Position.advance_append, hstart, Text.units_append]
    rfl
  rw [hgap.inlineAt?_eq, Region.gapRegion, ← hregion]
  simp only [hpadding]
  rfl

/-- **Every expression of a document is found** from every position between its delimiters, both
ends included, as the kind, the content and the place with which it is written; only beside the
padding of inline math nothing is found. -/
theorem locate?_eq_region (doc : Document) (before after : List Segment) (kind : MathKind)
    (content : Text) (cursor : Position)
    (hdoc : doc.segments = before ++ .math kind content :: after)
    (hcursor : (Segment.region before kind content).contains cursor = true) :
    Region.locate? doc.buffer cursor =
      if kind = .inline ∧ BesidePadding doc.buffer cursor then none
      else some (Segment.region before kind content) := by
  cases kind with
  | inline =>
      rw [Region.locate?, displayAt?_inline hdoc hcursor, Option.none_or,
        inlineAt?_inline hdoc hcursor]
      simp
  | display =>
      rw [Region.locate?, displayAt?_display hdoc hcursor, Option.some_or]
      simp

/-- Two expressions share a double dollar, and display math follows. -/
def joinedMath : Document where
  segments := [.prose "é ".toList, .math .inline "a".toList, .math .inline "𝔸 b".toList,
    .prose "\n".toList, .math .display "x\n y".toList]
  allowed := by decide
  apart := by decide

/-- The second expression is found, also from within its surrogate pair. -/
theorem joined_expression_found :
    let before := [Segment.prose "é ".toList, .math .inline "a".toList]
    let content := "𝔸 b".toList
    joinedMath.segments = before ++ .math .inline content ::
        [.prose "\n".toList, .math .display "x\n y".toList] ∧
      (Segment.region before .inline content).contains ⟨0, 7⟩ ∧
      Region.locate? joinedMath.buffer ⟨0, 7⟩ = some ⟨.inline, content, ⟨0, 6⟩, ⟨0, 10⟩⟩ := by
  intro before content
  have hcursor : (Segment.region before .inline content).contains ⟨0, 7⟩ = true := by
    decide +kernel
  have hfound := locate?_eq_region joinedMath before _ .inline content ⟨0, 7⟩ rfl hcursor
  have hpadding : ¬ BesidePadding joinedMath.buffer ⟨0, 7⟩ := by decide +kernel
  rw [if_neg fun h => hpadding h.2] at hfound
  exact ⟨rfl, hcursor, hfound⟩

end Document

end MathTyping
