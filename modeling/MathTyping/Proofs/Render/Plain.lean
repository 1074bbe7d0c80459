import Mathlib.Data.List.Basic
import MathTyping.Proofs.Text.Occurrences
import MathTyping.Render.Local

/-!
# The plain drawing of a source

The local renderer writes a source as the text of an element, one character after the other, and
refuses it at the first control character.  To read the drawing back takes only what every viewer
of markup does: tags end the text of an element, and an entity stands for one character.

An angle bracket is never written as it is, so the text of the element goes to its closing tag
(`body?_markup`).  An ampersand is written as an entity of its own, so no run of characters of the
source is taken for one (`decode_entity`).  What is lost of the source is which spaces were line
feeds, and nothing else.
-/

namespace MathTyping

namespace Text

theorem ofNat_eq_digits (n : Nat) : ofNat n = Nat.toDigits 10 n := by
  rw [ofNat, show toString n = Nat.repr n from rfl, Nat.repr]
  simp

theorem isDigit_of_mem_ofNat {n : Nat} {c : Char} (h : c ∈ ofNat n) : c.isDigit :=
  Nat.isDigit_of_mem_toDigits (by decide) (by decide) (ofNat_eq_digits n ▸ h)

end Text

namespace LocalRenderer

variable {source before after body : Text} {c : Char}

/-! ### Reading markup -/

/-- The value of the first attribute of a name. -/
def attribute? (name markup : Text) : Option Text :=
  (Text.cut? (' ' :: name ++ ['=', '"']) markup).bind fun (_, value) =>
    (Text.cut? ['"'] value).map (·.1)

/-- The text of an element inside an outer one: what is behind the second tag, up to the next. -/
def body? (markup : Text) : Option Text :=
  (Text.cut? ['>'] markup).bind fun (_, inner) =>
    (Text.cut? ['>'] inner).bind fun (_, inside) => (Text.cut? ['<'] inside).map (·.1)

/-- Read the entities of a text as the characters that they stand for. -/
def decode : Text → Text
  | '&' :: 'l' :: 't' :: ';' :: t => '<' :: decode t
  | '&' :: 'g' :: 't' :: ';' :: t => '>' :: decode t
  | '&' :: 'a' :: 'm' :: 'p' :: ';' :: t => '&' :: decode t
  | c :: t => c :: decode t
  | [] => []

/-- The markup around a body, tag by tag. -/
theorem markup_eq (n : Nat) (body : Text) :
    markup n body =
      ("<svg xmlns=\"http://www.w3.org/2000/svg\" width=\"".toList ++
        (Text.ofNat n ++ ("\" height=\"".toList ++ ['1', '6', '"']))) ++ '>' ::
      ("<text x=\"0\" y=\"12\" font-family=\"monospace\"".toList ++ '>' ::
        (body ++ '<' :: "/text></svg>".toList)) := by
  have hheight : Text.ofNat lineHeight = ['1', '6'] := by
    rw [Text.ofNat_eq_digits]
    rfl
  have hinner : "\"><text x=\"0\" y=\"12\" font-family=\"monospace\">".toList =
      '"' :: '>' :: ("<text x=\"0\" y=\"12\" font-family=\"monospace\"".toList ++ ['>']) := by
    simp
  have hclose : "</text></svg>".toList = '<' :: "/text></svg>".toList := by simp
  unfold markup
  simp only [hheight, hinner, hclose, List.append_assoc, List.cons_append, List.nil_append]

theorem attribute?_markup (n : Nat) (body : Text) :
    attribute? "width".toList (markup n body) = some (Text.ofNat n) := by
  have hdigits : '"' ∉ Text.ofNat n := fun h => absurd (Text.isDigit_of_mem_ofNat h) (by decide)
  have hname : Text.cut? (' ' :: "width".toList ++ ['=', '"'])
      "<svg xmlns=\"http://www.w3.org/2000/svg\" width=\"".toList =
        some ("<svg xmlns=\"http://www.w3.org/2000/svg\"".toList, []) := by
    simp [Text.cut?, Text.dropPrefix?]
  have hheight : "\" height=\"".toList = '"' :: " height=\"".toList := by simp
  -- The value ends at the first quotation mark behind it, as a number has none.
  rw [markup_eq, attribute?, List.append_assoc, Text.cut?_append hname, Option.bind_some, hheight]
  simp only [List.nil_append, List.append_assoc, List.cons_append]
  rw [Text.cut?_character hdigits, Option.map_some]

/-- The text of the element ends where the markup closes it. -/
theorem body?_markup (n : Nat) (h : '<' ∉ body) : body? (markup n body) = some body := by
  have hdigits : '>' ∉ Text.ofNat n := fun h => absurd (Text.isDigit_of_mem_ofNat h) (by decide)
  have houter : '>' ∉ "<svg xmlns=\"http://www.w3.org/2000/svg\" width=\"".toList ++
      (Text.ofNat n ++ ("\" height=\"".toList ++ ['1', '6', '"'])) := by
    simp [hdigits]
  have hinner : '>' ∉ "<text x=\"0\" y=\"12\" font-family=\"monospace\"".toList := by simp
  rw [markup_eq, body?, Text.cut?_character houter, Option.bind_some]
  dsimp only
  rw [Text.cut?_character hinner, Option.bind_some]
  dsimp only
  rw [Text.cut?_character h, Option.map_some]

/-! ### Characters and what is written for them -/

/-- A character as a drawing shows it: a line feed is a space. -/
def shown (c : Char) : Char := if c = '\n' then ' ' else c

theorem decode_cons_of_ne (h : c ≠ '&') (t : Text) : decode (c :: t) = c :: decode t := by
  rw [decode] <;> rintro _ rfl <;> contradiction

theorem entity_of_notMem (h : c ∉ ['<', '>', '&', '\n']) : entity c = [c] := by
  simp only [List.mem_cons, List.not_mem_nil, or_false, not_or] at h
  obtain ⟨hless, hgreater, hamp, hfeed⟩ := h
  rw [entity, if_neg hless, if_neg hgreater, if_neg hamp, if_neg hfeed]

/-- What is written for a character reads back as the character, whatever follows. -/
theorem decode_entity (c : Char) (rest : Text) :
    decode (entity c ++ rest) = shown c :: decode rest := by
  by_cases hspecial : c ∈ ['<', '>', '&', '\n']
  · simp only [List.mem_cons, List.not_mem_nil, or_false] at hspecial
    rcases hspecial with rfl | rfl | rfl | rfl <;> rfl
  -- No other character begins an entity, so it is read alone.
  · have hamp : c ≠ '&' := by rintro rfl; simp at hspecial
    have hfeed : c ≠ '\n' := by rintro rfl; simp at hspecial
    rw [entity_of_notMem hspecial, shown, if_neg hfeed]
    exact decode_cons_of_ne hamp rest

theorem decode_flatMap_entity (source : Text) :
    decode (source.flatMap entity) = source.map shown := by
  induction source with
  | nil => rfl
  | cons c t ih => rw [List.flatMap_cons, decode_entity, ih, List.map_cons]

theorem angles_notMem_entity (c : Char) : '<' ∉ entity c ∧ '>' ∉ entity c := by
  by_cases hspecial : c ∈ ['<', '>', '&', '\n']
  · simp only [List.mem_cons, List.not_mem_nil, or_false] at hspecial
    rcases hspecial with rfl | rfl | rfl | rfl <;> decide
  · rw [entity_of_notMem hspecial, List.mem_singleton, List.mem_singleton]
    constructor <;> rintro rfl <;> simp at hspecial

theorem angles_notMem_flatMap_entity (source : Text) :
    '<' ∉ source.flatMap entity ∧ '>' ∉ source.flatMap entity := by
  simp [List.mem_flatMap, angles_notMem_entity]

/-! ### What is refused -/

/-- A character that the local renderer refuses: a control character but for line feeds. -/
def Refused (c : Char) : Prop := isControl c ∧ c ≠ '\n'

instance (c : Char) : Decidable (Refused c) := inferInstanceAs (Decidable (_ ∧ _))

theorem written_refused (h : Refused c) (source t : Text) :
    written source (c :: t) = .error (controlError ((Text.firstAt? [c] source).getD 0) c) :=
  if_pos h

theorem written_accepted (h : ¬ Refused c) (source t : Text) :
    written source (c :: t) = (written source t).map (entity c ++ ·) :=
  if_neg h

/-- Nothing is refused before the first refused character. -/
theorem written_append (source : Text) (h : ∀ d ∈ before, ¬ Refused d) (t : Text) :
    written source (before ++ t) = (written source t).map (before.flatMap entity ++ ·) := by
  induction before with
  | nil => cases hlater : written source t <;> simp [hlater, Except.map]
  | cons d before ih =>
      obtain ⟨hd, hbefore⟩ := List.forall_mem_cons.mp h
      rw [List.cons_append, written_accepted hd, ih hbefore]
      cases written source t <;> simp [Except.map]

theorem written_of_accepted (h : ∀ c ∈ source, ¬ Refused c) :
    written source source = .ok (source.flatMap entity) := by
  have hwritten := written_append source h []
  rw [List.append_nil] at hwritten
  rw [hwritten, written, Except.map, List.append_nil]

/-- The first refused character is the one that is reported.  It has no earlier occurrence, so the
search finds it where the writing has got to. -/
theorem written_of_refused (h : ∀ d ∈ before, ¬ Refused d) (hc : Refused c) (after : Text) :
    written (before ++ c :: after) (before ++ c :: after) =
      .error (controlError before.bytes c) := by
  have hfirst : Text.firstAt? [c] (before ++ c :: after) = some before.bytes := by
    rw [Text.firstAt?, Text.cut?_character fun hmem => h c hmem hc]
    rfl
  rw [written_append _ h, written_refused hc, hfirst]
  rfl

/-- A source is accepted throughout, or it has a first refused character. -/
theorem accepted_or_first_refused (source : Text) :
    (∀ c ∈ source, ¬ Refused c) ∨ ∃ before c after, source = before ++ c :: after ∧ Refused c ∧
      ∀ d ∈ before, ¬ Refused d := by
  cases hfind : source.find? fun c => Refused c with
  | none => exact Or.inl (by simpa using hfind)
  | some c =>
      obtain ⟨hc, before, after, htext, hbefore⟩ := List.find?_eq_some_iff_append.mp hfind
      exact Or.inr ⟨before, c, after, htext, by simpa using hc, by simpa using hbefore⟩

/-- A drawing shows a source: it is as wide as the source is long, and its text reads back as the
source with spaces for line feeds. -/
structure Shows (source : Text) (drawing : Rendering) : Prop where
  diagnostics : drawing.diagnostics = []
  width : attribute? "width".toList drawing.svg = some (Text.ofNat (8 * max 1 source.length))
  body : ∃ body, drawing.svg = markup (8 * max 1 source.length) body ∧
    body? drawing.svg = some body ∧ '<' ∉ body ∧ '>' ∉ body ∧
    decode body = source.map fun c => if c = '\n' then ' ' else c

/-- Diagnostics report the first control character of a source that is no line feed: a single
error covers its bytes, and a search for the character finds it there. -/
def ReportsFirst (source : Text) (diagnostics : List Diagnostic) : Prop :=
  ∃ before c after, source = before ++ c :: after ∧
    (isControl c ∧ c ≠ '\n') ∧ (∀ d ∈ before, isControl d → d = '\n') ∧
    Text.cut? [c] source = some (before, after) ∧
    ∃ d, diagnostics = [d] ∧ d.severity = .error ∧
      d.span = ⟨before.bytes, before.bytes + c.utf8Size⟩

theorem not_refused_iff : ¬ Refused c ↔ (isControl c → c = '\n') := by
  rw [Refused, not_and, not_not]

theorem shows_of_accepted (h : ∀ c ∈ source, ¬ Refused c) :
    ∃ drawing, render source = .ok drawing ∧ Shows source drawing := by
  obtain ⟨hless, hgreater⟩ := angles_notMem_flatMap_entity source
  have hwidth : width source = 8 * max 1 source.length := by
    rw [width, cellWidth, Nat.mul_comm, Nat.max_comm]
  refine ⟨⟨markup (width source) (source.flatMap entity), []⟩, ?_, rfl, ?_, ?_⟩
  · rw [render, written_of_accepted h]
  · rw [hwidth, attribute?_markup]
  · rw [hwidth]
    exact ⟨_, rfl, body?_markup _ hless, hless, hgreater, decode_flatMap_entity source⟩

theorem reports_of_refused (h : ∀ d ∈ before, ¬ Refused d) (hc : Refused c) (after : Text) :
    ∃ diagnostics, render (before ++ c :: after) = .error diagnostics ∧
      ReportsFirst (before ++ c :: after) diagnostics := by
  have hfirst : c ∉ before := fun hmem => h c hmem hc
  refine ⟨[controlError before.bytes c], ?_, before, c, after, rfl, hc,
    fun d hd => not_refused_iff.mp (h d hd), Text.cut?_character hfirst after, _, rfl, rfl, rfl⟩
  rw [render, written_of_refused h hc]

/-- **The local renderer shows the whole source and nothing else, or reports what it cannot show.**
It succeeds exactly if the source has no control character but line feeds.  Its drawing then reads
back as the source, and otherwise there is one error, at the first such character. -/
theorem drawn_or_first_control_reported (source : Text) (kind : RenderKind) (processor : Text) :
    ((∃ drawing, renderer.render source kind processor = .ok drawing) ↔
        ∀ c ∈ source, isControl c → c = '\n') ∧
      (∀ drawing, renderer.render source kind processor = .ok drawing → Shows source drawing) ∧
      ∀ diagnostics, renderer.render source kind processor = .error diagnostics →
        ReportsFirst source diagnostics := by
  have hrender : renderer.render source kind processor = render source := rfl
  rw [hrender]
  rcases accepted_or_first_refused source with haccepted | ⟨before, c, after, rfl, hc, hbefore⟩
  · obtain ⟨drawing, hdrawing, hshows⟩ := shows_of_accepted haccepted
    rw [hdrawing]
    refine ⟨iff_of_true ⟨drawing, rfl⟩ fun c hmem => not_refused_iff.mp (haccepted c hmem), ?_, ?_⟩
    · rintro _ ⟨⟩
      exact hshows
    · rintro _ ⟨⟩
  · obtain ⟨diagnostics, hdiagnostics, hreports⟩ := reports_of_refused hbefore hc after
    rw [hdiagnostics]
    refine ⟨iff_of_false ?_ ?_, ?_, ?_⟩
    · rintro ⟨_, ⟨⟩⟩
    · intro hall
      exact hc.2 (hall c (by simp) hc.1)
    · rintro _ ⟨⟩
    · rintro _ ⟨⟩
      exact hreports

/-- A source that contains the text of an entity, and one with a control character twice. -/
theorem entity_text_drawn :
    let drawn : Text := "<a>&lt;\n𝔸".toList
    let refused : Text := "é\n\x07b\x07".toList
    (∃ drawing, renderer.render drawn .inline [] = .ok drawing ∧ Shows drawn drawing ∧
      drawing.svg = markup 72 "&lt;a&gt;&amp;lt; 𝔸".toList) ∧
    ∃ d, renderer.render refused .inline [] = .error [d] ∧ ReportsFirst refused [d] ∧
      d.span = ⟨3, 4⟩ := by
  intro drawn refused
  obtain ⟨-, hshows, -⟩ := drawn_or_first_control_reported drawn .inline []
  obtain ⟨-, -, hreports⟩ := drawn_or_first_control_reported refused .inline []
  have hdrawn : renderer.render drawn .inline [] =
      .ok ⟨markup 72 "&lt;a&gt;&amp;lt; 𝔸".toList, []⟩ := rfl
  have hrefused : renderer.render refused .inline [] = .error [controlError 3 '\x07'] := rfl
  exact ⟨⟨_, hdrawn, hshows _ hdrawn, rfl⟩, _, hrefused, hreports _ hrefused, rfl⟩

end LocalRenderer

end MathTyping
