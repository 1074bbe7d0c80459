import MathTyping.Json.Document
import MathTyping.Proofs.Json.Lawful

/-!
# Reading back places, regions and edits

Everything here is a record or a name, and its bounds are those of the numbers in it.
-/

namespace MathTyping

open Json

instance : Bounded Position :=
  ⟨fun p => Fits p.line ∧ Fits p.column⟩

instance : LawfulForm Position := by
  refine lawful_record (fun _ => rfl) (fun _ => rfl) (fun _ => rfl) ?fits ?back (fun p => by simp)
  case fits =>
      -- A record is read only if every field is, one after the other.
      intro ms p hread
      simp only [Option.bind_eq_bind, Option.bind_eq_some_iff] at hread
      obtain ⟨_, hline, _, hcolumn, ⟨⟩⟩ := hread
      exact ⟨fits_of_required? hline, fits_of_required? hcolumn⟩
  case back =>
      -- The written members are found under their names, and simp compares the names.
      rintro p ⟨hline, hcolumn⟩
      simp [required?_toJson hline, required?_toJson hcolumn]

instance : Bounded Range :=
  ⟨fun r => Fits r.start ∧ Fits r.stop⟩

instance : LawfulForm Range := by
  refine lawful_record (fun _ => rfl) (fun _ => rfl) (fun _ => rfl) ?fits ?back (fun r => by simp)
  case fits =>
      intro ms r hread
      simp only [Option.bind_eq_bind, Option.bind_eq_some_iff] at hread
      obtain ⟨_, hstart, _, hstop, ⟨⟩⟩ := hread
      exact ⟨fits_of_required? hstart, fits_of_required? hstop⟩
  case back =>
      rintro r ⟨hstart, hstop⟩
      simp [required?_toJson hstart, required?_toJson hstop]

instance : Bounded MathKind := ⟨fun _ => True⟩

instance : LawfulForm MathKind :=
  lawful_named (fun _ => rfl) (fun _ => rfl) (fun _ => trivial) (by intro k; cases k <;> rfl)

instance : Bounded Region :=
  ⟨fun r => Fits r.kind ∧ Fits r.content ∧ Fits r.start ∧ Fits r.stop⟩

instance : LawfulForm Region := by
  refine lawful_record (fun _ => rfl) (fun _ => rfl) (fun _ => rfl) ?fits ?back (fun r => by simp)
  case fits =>
      intro ms r hread
      simp only [Option.bind_eq_bind, Option.bind_eq_some_iff] at hread
      obtain ⟨_, hkind, _, hcontent, _, hstart, _, hstop, ⟨⟩⟩ := hread
      exact ⟨fits_of_required? hkind, fits_of_required? hcontent, fits_of_required? hstart,
        fits_of_required? hstop⟩
  case back =>
      rintro r ⟨hkind, hcontent, hstart, hstop⟩
      simp [required?_toJson hkind, required?_toJson hcontent, required?_toJson hstart,
        required?_toJson hstop]

instance : Bounded BracketKind := ⟨fun _ => True⟩

instance : LawfulForm BracketKind :=
  lawful_named (fun _ => rfl) (fun _ => rfl) (fun _ => trivial) (by intro k; cases k <;> rfl)

instance : Bounded BracketPair :=
  ⟨fun p => Fits p.kind ∧ Fits p.depth ∧ Fits p.opening.line ∧ Fits p.opening.column ∧
    Fits p.opening.byte ∧ Fits p.closing.line ∧ Fits p.closing.column ∧ Fits p.closing.byte⟩

instance : LawfulForm BracketPair := by
  refine lawful_record (fun _ => rfl) (fun _ => rfl) (fun _ => rfl) ?fits ?back (fun p => by simp)
  case fits =>
      intro ms p hread
      simp only [Option.bind_eq_bind, Option.bind_eq_some_iff] at hread
      obtain ⟨_, hkind, _, hdepth, _, hopenLine, _, hopenColumn, _, hopenByte, _, hcloseLine,
        _, hcloseColumn, _, hcloseByte, ⟨⟩⟩ := hread
      exact ⟨fits_of_required? hkind, fits_of_defaulted? fits_zero hdepth,
        fits_of_required? hopenLine, fits_of_required? hopenColumn, fits_of_required? hopenByte,
        fits_of_required? hcloseLine, fits_of_required? hcloseColumn,
        fits_of_required? hcloseByte⟩
  case back =>
      rintro p ⟨hkind, hdepth, hopenLine, hopenColumn, hopenByte, hcloseLine,
        hcloseColumn, hcloseByte⟩
      simp [required?_toJson hkind, defaulted?_toJson hdepth, required?_toJson hopenLine,
        required?_toJson hopenColumn, required?_toJson hopenByte, required?_toJson hcloseLine,
        required?_toJson hcloseColumn, required?_toJson hcloseByte]

instance : Bounded Edit :=
  ⟨fun e => Fits e.range ∧ Fits e.text⟩

instance : LawfulForm Edit := by
  refine lawful_record (fun _ => rfl) (fun _ => rfl) (fun _ => rfl) ?fits ?back (fun e => by simp)
  case fits =>
      intro ms e hread
      simp only [Option.bind_eq_bind, Option.bind_eq_some_iff] at hread
      obtain ⟨_, hrange, _, htext, ⟨⟩⟩ := hread
      exact ⟨fits_of_required? hrange, fits_of_required? htext⟩
  case back =>
      rintro e ⟨hrange, htext⟩
      simp [required?_toJson hrange, required?_toJson htext]

instance : Bounded Splice :=
  ⟨fun s => Fits s.edit ∧ Fits s.cursor⟩

instance : LawfulForm Splice := by
  refine lawful_record (fun _ => rfl) (fun _ => rfl) (fun _ => rfl) ?fits ?back (fun s => by simp)
  case fits =>
      intro ms s hread
      simp only [Option.bind_eq_bind, Option.bind_eq_some_iff] at hread
      obtain ⟨_, hedit, _, hcursor, ⟨⟩⟩ := hread
      exact ⟨fits_of_optional? hedit, fits_of_required? hcursor⟩
  case back =>
      rintro s ⟨hedit, hcursor⟩
      simp [optional?_toJson hedit, required?_toJson hcursor]

instance : Bounded Highlight :=
  ⟨fun h => Fits h.range ∧ Fits h.className⟩

instance : LawfulForm Highlight := by
  refine lawful_record (fun _ => rfl) (fun _ => rfl) (fun _ => rfl) ?fits ?back (fun h => by simp)
  case fits =>
      intro ms h hread
      simp only [Option.bind_eq_bind, Option.bind_eq_some_iff] at hread
      obtain ⟨_, hrange, _, hname, ⟨⟩⟩ := hread
      exact ⟨fits_of_required? hrange, fits_of_required? hname⟩
  case back =>
      rintro h ⟨hrange, hname⟩
      simp [required?_toJson hrange, required?_toJson hname]

end MathTyping
