import MathTyping.Json.Session
import MathTyping.Proofs.Json.Suggestion

/-!
# Reading back renders and snapshots

A request to a renderer tells its type, and the type decides which fields are read.
The type is written in front of the fields, none of which has its name.

All the forms of the library are lawful then, and lawful forms survive a round trip:
a value within bounds is read back from its tree and from its text, and so is every
value that was read from some JSON before.  What is lost in reading, such as members
that nobody asks for, the place of a default or the case of a class, is lost once.
-/

namespace MathTyping

open Json

instance : Bounded Severity := ⟨fun _ => True⟩

instance : LawfulForm Severity where
  fits_of_read _ := trivial
  read_toJson {s} _ := by cases s <;> rfl
  plain_toJson s := .integer s.code
  toJson_ne_null _ := nofun

instance : Bounded ByteSpan :=
  ⟨fun s => Fits s.start ∧ Fits s.stop⟩

instance : LawfulForm ByteSpan := by
  refine lawful_record (fun _ => rfl) (fun _ => rfl) (fun _ => rfl) ?fits ?back (fun s => by simp)
  case fits =>
      intro ms s hread
      simp only [Option.bind_eq_bind, Option.bind_eq_some_iff] at hread
      obtain ⟨_, hstart, _, hstop, ⟨⟩⟩ := hread
      exact ⟨fits_of_required? hstart, fits_of_required? hstop⟩
  case back =>
      rintro s ⟨hstart, hstop⟩
      simp [required?_toJson hstart, required?_toJson hstop]

instance : Bounded Diagnostic :=
  ⟨fun d => Fits d.severity ∧ Fits d.span ∧ Fits d.message ∧ Fits d.trace ∧ Fits d.hints⟩

instance : LawfulForm Diagnostic := by
  refine lawful_record (fun _ => rfl) (fun _ => rfl) (fun _ => rfl) ?fits ?back (fun d => by simp)
  case fits =>
      intro ms d hread
      simp only [Option.bind_eq_bind, Option.bind_eq_some_iff] at hread
      obtain ⟨_, hseverity, _, hspan, _, hmessage, _, htrace, _, hhints, ⟨⟩⟩ := hread
      exact ⟨fits_of_required? hseverity, fits_of_defaulted? ⟨fits_zero, fits_zero⟩ hspan,
        fits_of_required? hmessage, fits_of_defaulted? fits_nil htrace,
        fits_of_defaulted? fits_nil hhints⟩
  case back =>
      rintro d ⟨hseverity, hspan, hmessage, htrace, hhints⟩
      simp [required?_toJson hseverity, defaulted?_toJson hspan, required?_toJson hmessage,
        defaulted?_toJson htrace, defaulted?_toJson hhints]

instance : Bounded Rendering :=
  ⟨fun r => Fits r.svg ∧ Fits r.diagnostics⟩

instance : LawfulForm Rendering := by
  refine lawful_record (fun _ => rfl) (fun _ => rfl) (fun _ => rfl) ?fits ?back (fun r => by simp)
  case fits =>
      intro ms r hread
      simp only [Option.bind_eq_bind, Option.bind_eq_some_iff] at hread
      obtain ⟨_, hsvg, _, hdiagnostics, ⟨⟩⟩ := hread
      exact ⟨fits_of_required? hsvg, fits_of_defaulted? fits_nil hdiagnostics⟩
  case back =>
      rintro r ⟨hsvg, hdiagnostics⟩
      simp [required?_toJson hsvg, defaulted?_toJson hdiagnostics]

instance : Bounded Snapshot :=
  ⟨fun s => Fits s.text ∧ Fits s.cursor⟩

instance : LawfulForm Snapshot := by
  refine lawful_record (fun _ => rfl) (fun _ => rfl) (fun _ => rfl) ?fits ?back (fun s => by simp)
  case fits =>
      intro ms s hread
      simp only [Option.bind_eq_bind, Option.bind_eq_some_iff] at hread
      obtain ⟨_, htext, _, hcursor, ⟨⟩⟩ := hread
      exact ⟨fits_of_required? htext, fits_of_required? hcursor⟩
  case back =>
      rintro s ⟨htext, hcursor⟩
      simp [required?_toJson htext, required?_toJson hcursor]

instance : Bounded PreviewRequest :=
  ⟨fun q => Fits q.ticket ∧ Fits q.source ∧ Fits q.kind ∧ Fits q.processor⟩

namespace PreviewRequest

theorem fits_of_ofMembers? {ms : Members} {q : PreviewRequest} (h : ofMembers? ms = some q) :
    Fits q := by
  simp only [ofMembers?, Option.bind_eq_bind, Option.bind_eq_some_iff] at h
  obtain ⟨_, hticket, _, hsource, _, -, _, hprocessor, ⟨⟩⟩ := h
  exact ⟨fits_of_required? hticket, fits_of_required? hsource, trivial,
    fits_of_required? hprocessor⟩

theorem ofMembers?_fields {q : PreviewRequest} (hq : Fits q) (type : Json) :
    ofMembers? (written (("type", type) :: q.fields)) = some q := by
  -- The type has a name of its own, so it hides none of the fields.
  obtain ⟨hticket, hsource, -, hprocessor⟩ := hq
  simp [ofMembers?, fields, required?_toJson hticket, required?_toJson hsource,
    required?_toJson hprocessor, requiredBy?_of_value (named?_renderKind .typed q.kind)]

end PreviewRequest

instance : Bounded RenderRequest where
  Fits
    | .brackets content => Fits content
    | .preview q => Fits q

namespace RenderRequest

/-- A request is read by its type first, and by the fields of that type then. -/
theorem readJson?_eq (j : Json) : (readJson? j : Option RenderRequest) =
    j.type?.bind fun type =>
      if type = "brackets".toList then
        (j.fields? .typed ["type", "content"]).bind fun ms =>
          (required? ms "content").bind fun content => some (brackets content)
      else if type = "preview".toList then
        (j.fields? .typed ["type", "ticket", "source", "kind", "processor"]).bind fun ms =>
          (PreviewRequest.ofMembers? ms).bind fun q => some (preview q)
      else none :=
  rfl

theorem fits_of_readJson? {j : Json} {q : RenderRequest} (h : readJson? j = some q) : Fits q := by
  rw [readJson?_eq] at h
  obtain ⟨type, -, h⟩ := Option.bind_eq_some_iff.mp h
  split at h
  case isTrue =>
      obtain ⟨_, -, h⟩ := Option.bind_eq_some_iff.mp h
      obtain ⟨content, hcontent, ⟨⟩⟩ := Option.bind_eq_some_iff.mp h
      exact (fits_of_required? hcontent : Fits content)
  case isFalse =>
      split at h
      case isTrue =>
          obtain ⟨_, -, h⟩ := Option.bind_eq_some_iff.mp h
          obtain ⟨request, hrequest, ⟨⟩⟩ := Option.bind_eq_some_iff.mp h
          exact PreviewRequest.fits_of_ofMembers? hrequest
      case isFalse => contradiction

theorem fields?_typed (rule : Leniency) (names : List String) (type : String)
    (fields : List (String × Json)) :
    (typed type fields).fields? rule names =
      some (written (("type", .string type.toList) :: fields)) :=
  rfl

/-- The type is read off the member that is written in front of the fields. -/
theorem type?_typed (type : String) {fields : List (String × Json)}
    (h : valuesOf (written fields) "type" = []) : (typed type fields).type? = some type.toList := by
  have hvalues : valuesOf (written (("type", .string type.toList) :: fields)) "type" =
      [.string type.toList] := by
    rw [valuesOf_written_cons, if_pos rfl, h]
  simp only [type?, fields?_typed, Option.bind_eq_bind, Option.bind_some, hvalues]

theorem readJson?_toJson {q : RenderRequest} (hq : Fits q) : readJson? (toJson q) = some q := by
  cases q with
  | brackets content =>
      have hcontent : required? (written [("type", .string "brackets".toList),
          ("content", toJson content)]) "content" = some content :=
        required?_toJson hq (by simp)
      show readJson? (typed "brackets" [("content", toJson content)]) = _
      rw [readJson?_eq, type?_typed "brackets" (by simp), Option.bind_some, if_pos rfl,
        fields?_typed, Option.bind_some, hcontent, Option.bind_some]
  | preview q =>
      show readJson? (typed "preview" q.fields) = _
      rw [readJson?_eq, type?_typed "preview" (by simp [PreviewRequest.fields]), Option.bind_some,
        if_neg (by decide), if_pos rfl, fields?_typed, Option.bind_some,
        PreviewRequest.ofMembers?_fields hq, Option.bind_some]

theorem plain_toJson (q : RenderRequest) : (toJson q).Plain := by
  cases q with
  | brackets content => exact plain_record (by simp [Plain.string])
  | preview q => exact plain_record (by simp [PreviewRequest.fields, Plain.string])

end RenderRequest

instance : LawfulForm RenderRequest where
  fits_of_read := RenderRequest.fits_of_readJson?
  read_toJson := RenderRequest.readJson?_toJson
  plain_toJson := RenderRequest.plain_toJson
  toJson_ne_null q := by
    cases q with
    | brackets content => exact nofun
    | preview q => exact nofun

/-! ## Round trips -/

/-- Written and read again, as a tree and as text, a value is the same. -/
def Survives [JsonForm α] (a : α) : Prop :=
  readJson? (toJson a) = some a ∧ (parse? (toJson a).compact).bind readJson? = some a

/-- Every value within bounds survives, and so does every value that was read. -/
def RoundTrips (α : Type) [JsonForm α] [Bounded α] : Prop :=
  (∀ a : α, Fits a → Survives a) ∧ ∀ (j : Json) (a : α), readJson? j = some a → Survives a

theorem roundTrips [JsonForm α] [Bounded α] [LawfulForm α] : RoundTrips α := by
  have hsurvives : ∀ a : α, Fits a → Survives a := by
    intro a ha
    have hread : readJson? (toJson a) = some a := read_toJson ha
    refine ⟨hread, ?_⟩
    rw [parse?_compact (plain_toJson a)]
    exact hread
  exact ⟨hsurvives, fun j a h => hsurvives a (fits_of_read h)⟩

/-- **What the library exchanges with its hosts reads back.** -/
theorem serialized_values_read_back :
    RoundTrips Region ∧ RoundTrips BracketPair ∧ RoundTrips Query ∧ RoundTrips Snippet ∧
      RoundTrips Shortcut ∧ RoundTrips Splice ∧ RoundTrips Highlight ∧ RoundTrips Diagnostic ∧
      RoundTrips Rendering ∧ RoundTrips RenderRequest ∧ RoundTrips PopupView ∧
      RoundTrips Snapshot ∧ RoundTrips SymbolRecord :=
  ⟨roundTrips, roundTrips, roundTrips, roundTrips, roundTrips, roundTrips, roundTrips, roundTrips,
    roundTrips, roundTrips, roundTrips, roundTrips, roundTrips⟩

/-- A record with its class in capitals, a member too many and three too few. -/
def looseLim : Text :=
  "\x7b\"sym\":\"lim\",\"name\":\"lim\",\"mathClass\":\"OP\",\"code\":[3]\x7d".toList

/-- The record is made regular by the first reading and kept by the second. -/
theorem looseLim_read_back :
    let lim : SymbolRecord := ⟨"lim".toList, [], "lim".toList, none, .textOperator, []⟩
    (parse? looseLim).bind readJson? = some lim ∧ Survives lim := by
  intro lim
  have hread : (parse? looseLim).bind readJson? = some lim := by decide +kernel
  obtain ⟨j, -, hj⟩ := Option.bind_eq_some_iff.mp hread
  obtain ⟨-, -, -, -, -, -, -, -, -, -, -, -, hsymbol⟩ := serialized_values_read_back
  exact ⟨hread, hsymbol.2 j lim hj⟩

end MathTyping
