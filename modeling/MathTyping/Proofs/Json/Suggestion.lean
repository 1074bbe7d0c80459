import MathTyping.Proofs.Json.Document

/-!
# Reading back symbols, queries, snippets and the popup

A class of symbols is read without regard to case, so only a class that some name
stands for is read back: an unknown class whose name differs from a known one in
case alone is not among them.  The kind of a snippet is read by the rule of the
notation at hand, but the name that is written is read the same by all of them.
-/

namespace MathTyping

open Json

namespace MathClass

theorem ofName_name_of_mem_named : ∀ c ∈ named, ofName c.name = c := by
  decide +kernel

/-- A name stands for a class with a name of its own, or for the class it names itself. -/
theorem ofName_cases (t : Text) : ofName t ∈ named ∨ ofName t = other t := by
  unfold ofName
  cases hfind : named.find? _ with
  | none => exact .inr rfl
  | some c => exact .inl (List.mem_of_find?_eq_some hfind)

theorem ofName_name_ofName (t : Text) : ofName (ofName t).name = ofName t := by
  obtain h | h := ofName_cases t
  · exact ofName_name_of_mem_named _ h
  · have hname : (ofName t).name = t := congrArg name h
    rw [hname]

end MathClass

/-- The classes that a name stands for. -/
instance : Bounded MathClass := ⟨fun c => ∃ t, c = MathClass.ofName t⟩

instance : LawfulForm MathClass where
  fits_of_read {j c} h := by
    cases j with
    | string t => exact ⟨t, (Option.some.inj h).symm⟩
    | _ => contradiction
  read_toJson {c} h := by
    obtain ⟨t, rfl⟩ := h
    exact congrArg some (MathClass.ofName_name_ofName t)
  plain_toJson c := .string c.name
  toJson_ne_null _ := nofun

instance : Bounded SymbolRecord :=
  ⟨fun s => Fits s.glyph ∧ Fits s.unicodeName ∧ Fits s.name ∧ Fits s.shorthand ∧
    Fits s.mathClass ∧ Fits s.latexName⟩

instance : LawfulForm SymbolRecord := by
  refine lawful_record (fun _ => rfl) (fun _ => rfl) (fun _ => rfl) ?fits ?back (fun s => by simp)
  case fits =>
      intro ms s hread
      simp only [Option.bind_eq_bind, Option.bind_eq_some_iff] at hread
      obtain ⟨_, hglyph, _, hunicodeName, _, hname, _, hshorthand, _, hmathClass, _, hlatexName,
        ⟨⟩⟩ := hread
      exact ⟨fits_of_required? hglyph, fits_of_defaulted? trivial hunicodeName,
        fits_of_required? hname, fits_of_optional? hshorthand, fits_of_required? hmathClass,
        fits_of_defaulted? trivial hlatexName⟩
  case back =>
      rintro s ⟨hglyph, hunicodeName, hname, hshorthand, hmathClass, hlatexName⟩
      simp [required?_toJson hglyph, defaulted?_toJson hunicodeName, required?_toJson hname,
        optional?_toJson hshorthand, required?_toJson hmathClass, defaulted?_toJson hlatexName]

instance : Bounded QueryKind := ⟨fun _ => True⟩

instance : LawfulForm QueryKind :=
  lawful_named (fun _ => rfl) (fun _ => rfl) (fun _ => trivial) (by intro k; cases k <;> rfl)

instance : Bounded Query :=
  ⟨fun q => Fits q.kind ∧ Fits q.word ∧ Fits q.argument ∧ Fits q.start⟩

instance : LawfulForm Query := by
  refine lawful_record (fun _ => rfl) (fun _ => rfl) (fun _ => rfl) ?fits ?back (fun q => by simp)
  case fits =>
      intro ms q hread
      simp only [Option.bind_eq_bind, Option.bind_eq_some_iff] at hread
      obtain ⟨_, hkind, _, hword, _, hargument, _, hstart, ⟨⟩⟩ := hread
      exact ⟨fits_of_required? hkind, fits_of_required? hword, fits_of_optional? hargument,
        fits_of_required? hstart⟩
  case back =>
      rintro q ⟨hkind, hword, hargument, hstart⟩
      simp [required?_toJson hkind, required?_toJson hword, optional?_present hargument,
        required?_toJson hstart]

instance : Bounded RenderKind := ⟨fun _ => True⟩

instance : LawfulForm RenderKind :=
  lawful_named (fun _ => rfl) (fun _ => rfl) (fun _ => trivial) (by intro k; cases k <;> rfl)

/-- The name of a kind is read the same by every rule. -/
theorem named?_renderKind (rule : Leniency) (k : RenderKind) :
    named? rule RenderKind.ofName? (toJson k) = some k := by
  cases k <;> rfl

instance : Bounded Snippet :=
  ⟨fun s => Fits s.category ∧ Fits s.name ∧ Fits s.description ∧ Fits s.kind ∧ Fits s.processor ∧
    Fits s.content ∧ Fits s.script⟩

instance : LawfulForm Snippet := by
  refine lawful_record (fun _ => rfl) (fun _ => rfl) (fun _ => rfl) ?fits ?back (fun s => by simp)
  case fits =>
      intro ms s hread
      simp only [Option.bind_eq_bind, Option.bind_eq_some_iff] at hread
      obtain ⟨_, hcategory, _, hname, _, hdescription, _, hkind, _, hprocessor, _, hcontent,
        _, hscript, ⟨⟩⟩ := hread
      exact ⟨fits_of_defaulted? trivial hcategory, fits_of_defaulted? trivial hname,
        fits_of_defaulted? trivial hdescription, trivial, fits_of_defaulted? trivial hprocessor,
        fits_of_defaulted? trivial hcontent, fits_of_defaulted? trivial hscript⟩
  case back =>
      rintro s ⟨hcategory, hname, hdescription, hkind, hprocessor, hcontent,
        hscript⟩
      simp [defaulted?_toJson hcategory, defaulted?_toJson hname, defaulted?_toJson hdescription,
        defaultedBy?_of_value (named?_renderKind .json s.kind), defaulted?_toJson hprocessor,
        defaulted?_toJson hcontent, defaulted?_toJson hscript]

instance : Bounded Shortcut :=
  ⟨fun s => Fits s.content ∧ Fits s.category ∧ Fits s.offset⟩

instance : LawfulForm Shortcut := by
  refine lawful_record (fun _ => rfl) (fun _ => rfl) (fun _ => rfl) ?fits ?back (fun s => by simp)
  case fits =>
      intro ms s hread
      simp only [Option.bind_eq_bind, Option.bind_eq_some_iff] at hread
      obtain ⟨_, hcontent, _, hcategory, _, hoffset, ⟨⟩⟩ := hread
      exact ⟨fits_of_required? hcontent, fits_of_defaulted? trivial hcategory,
        fits_of_defaulted? ⟨by decide, by decide⟩ hoffset⟩
  case back =>
      rintro s ⟨hcontent, hcategory, hoffset⟩
      simp [required?_toJson hcontent, defaulted?_toJson hcategory, defaulted?_toJson hoffset]

instance : Bounded PopupItem :=
  ⟨fun i => Fits i.label ∧ Fits i.detail ∧ Fits i.preview⟩

instance : LawfulForm PopupItem := by
  refine lawful_record (fun _ => rfl) (fun _ => rfl) (fun _ => rfl) ?fits ?back (fun i => by simp)
  case fits =>
      intro ms i hread
      simp only [Option.bind_eq_bind, Option.bind_eq_some_iff] at hread
      obtain ⟨_, hlabel, _, hdetail, _, hpreview, ⟨⟩⟩ := hread
      exact ⟨fits_of_required? hlabel, fits_of_optional? hdetail, fits_of_optional? hpreview⟩
  case back =>
      rintro i ⟨hlabel, hdetail, hpreview⟩
      simp [required?_toJson hlabel, optional?_present hdetail, optional?_present hpreview]

instance : Bounded PopupView :=
  ⟨fun v => Fits v.kind ∧ Fits v.range ∧ Fits v.items ∧ Fits v.selected⟩

instance : LawfulForm PopupView := by
  refine lawful_record (fun _ => rfl) (fun _ => rfl) (fun _ => rfl) ?fits ?back (fun v => by simp)
  case fits =>
      intro ms v hread
      simp only [Option.bind_eq_bind, Option.bind_eq_some_iff] at hread
      obtain ⟨_, hkind, _, hrange, _, hitems, _, hselected, ⟨⟩⟩ := hread
      exact ⟨fits_of_required? hkind, fits_of_required? hrange, fits_of_required? hitems,
        fits_of_optional? hselected⟩
  case back =>
      rintro v ⟨hkind, hrange, hitems, hselected⟩
      simp [required?_toJson hkind, required?_toJson hrange, required?_toJson hitems,
        optional?_toJson hselected]

end MathTyping
