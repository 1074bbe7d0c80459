import MathTyping.Json.Suggestion
import MathTyping.Proofs.Json.Printed

/-!
# Forms that give values back

A form writes values and reads them, and nothing in its definition ties the two
together.  A form is lawful if what it writes is read back, and if what it reads is
within the bounds that its own reader checks: a natural number has 64 bits, and the
class of a symbol is one that a name stands for.  Bounds matter because a value out of
bounds can be written and not read.

A record is read field by field, so it is lawful as soon as every field is: reading a
field gives a value within bounds, and reading a written field gives that value.
Both are settled here once for each way to read a field.
-/

namespace MathTyping

/-- A type some of whose values are within the bounds of a machine. -/
class Bounded (α : Type) where
  /-- Tell whether a value is within the bounds. -/
  Fits : α → Prop

export Bounded (Fits)

/-- A form that gives values back. -/
class LawfulForm (α : Type) [JsonForm α] [Bounded α] : Prop where
  fits_of_read {j : Json} {a : α} : readJson? j = some a → Fits a
  read_toJson {a : α} : Fits a → readJson? (toJson a) = some a
  plain_toJson (a : α) : (toJson a).Plain
  toJson_ne_null (a : α) : toJson a ≠ .null

export LawfulForm (fits_of_read read_toJson plain_toJson toJson_ne_null)

attribute [simp] plain_toJson

instance : Bounded Bool := ⟨fun _ => True⟩

instance : Bounded Nat := ⟨fun n => n < Nat.pow 2 64⟩

instance : Bounded Int := ⟨fun n => -Int.pow 2 63 ≤ n ∧ n < Int.pow 2 63⟩

instance : Bounded Text := ⟨fun _ => True⟩

instance [Bounded α] : Bounded (List α) := ⟨fun items => ∀ a ∈ items, Fits a⟩

instance [Bounded α] : Bounded (Option α) := ⟨fun o => ∀ a ∈ o, Fits a⟩

instance [Bounded α] [Bounded β] : Bounded (α × β) := ⟨fun p => Fits p.1 ∧ Fits p.2⟩

theorem fits_zero : Fits 0 := (by decide : 0 < Nat.pow 2 64)

theorem fits_nil [Bounded α] : Fits ([] : List α) := nofun

/-! ## Values that are no records -/

instance : LawfulForm Bool where
  fits_of_read _ := trivial
  read_toJson _ := rfl
  plain_toJson := .bool
  toJson_ne_null _ := nofun

instance : LawfulForm Text where
  fits_of_read _ := trivial
  read_toJson _ := rfl
  plain_toJson := .string
  toJson_ne_null _ := nofun

theorem readJson?_nat {j : Json} {n : Nat} :
    readJson? j = some n ↔ j = .integer n ∧ n < Nat.pow 2 64 := by
  cases j with
  | integer i =>
      show (if 0 ≤ i ∧ i < Int.pow 2 64 then some i.toNat else none) = some n ↔ _
      have hint : Int.pow 2 64 = 18446744073709551616 := rfl
      have hnat : Nat.pow 2 64 = 18446744073709551616 := rfl
      rw [Option.ite_none_right_eq_some, Option.some.injEq, Json.integer.injEq, hint, hnat]
      omega
  | _ => exact iff_of_false nofun nofun

instance : LawfulForm Nat where
  fits_of_read h := (readJson?_nat.mp h).2
  read_toJson h := readJson?_nat.mpr ⟨rfl, h⟩
  plain_toJson n := .integer n
  toJson_ne_null _ := nofun

theorem readJson?_int {j : Json} {i : Int} :
    readJson? j = some i ↔ j = .integer i ∧ -Int.pow 2 63 ≤ i ∧ i < Int.pow 2 63 := by
  cases j with
  | integer k =>
      show (if -Int.pow 2 63 ≤ k ∧ k < Int.pow 2 63 then some k else none) = some i ↔ _
      rw [Option.ite_none_right_eq_some, Option.some.injEq, Json.integer.injEq]
      constructor
      · rintro ⟨hbounds, rfl⟩
        exact ⟨rfl, hbounds⟩
      · rintro ⟨rfl, hbounds⟩
        exact ⟨hbounds, rfl⟩
  | _ => exact iff_of_false nofun nofun

instance : LawfulForm Int where
  fits_of_read h := (readJson?_int.mp h).2
  read_toJson h := readJson?_int.mpr ⟨rfl, h⟩
  plain_toJson := .integer
  toJson_ne_null _ := nofun

namespace Json

theorem fits_of_listOf? [JsonForm α] [Bounded α] [LawfulForm α] {js : List Json} {items : List α}
    (h : listOf? readJson? js = some items) : Fits items := by
  induction js generalizing items with
  | nil =>
      obtain rfl := Option.some.inj h
      exact nofun
  | cons j js ih =>
      simp only [listOf?, Option.bind_eq_bind, Option.bind_eq_some_iff] at h
      obtain ⟨a, ha, as, has, ⟨⟩⟩ := h
      intro b hb
      obtain rfl | hb := List.mem_cons.mp hb
      · exact fits_of_read ha
      · exact ih has b hb

theorem listOf?_map [JsonForm α] [Bounded α] [LawfulForm α] {items : List α} (h : Fits items) :
    listOf? readJson? (items.map toJson) = some items := by
  induction items with
  | nil => rfl
  | cons a as ih =>
      have ha : readJson? (toJson a) = some a := read_toJson (h a List.mem_cons_self)
      have has := ih fun b hb => h b (List.mem_cons_of_mem _ hb)
      rw [List.map_cons, listOf?, ha, has]
      rfl

end Json

instance [JsonForm α] [Bounded α] [LawfulForm α] : LawfulForm (List α) where
  fits_of_read {j items} h := by
    obtain ⟨js, -, hjs⟩ := Option.bind_eq_some_iff.mp h
    exact Json.fits_of_listOf? hjs
  read_toJson h := Json.listOf?_map h
  plain_toJson items := .array fun j hj => by
    obtain ⟨a, -, rfl⟩ := List.mem_map.mp hj
    exact plain_toJson a
  toJson_ne_null _ := nofun

instance [JsonForm α] [Bounded α] [LawfulForm α] [JsonForm β] [Bounded β] [LawfulForm β] :
    LawfulForm (α × β) where
  fits_of_read {j p} h := by
    match j with
    | .array [ja, jb] =>
        obtain ⟨a, ha, h⟩ := Option.bind_eq_some_iff.mp h
        obtain ⟨b, hb, ⟨⟩⟩ := Option.bind_eq_some_iff.mp h
        exact ⟨fits_of_read ha, fits_of_read hb⟩
  read_toJson {p} h := by
    show (readJson? (toJson p.1)).bind _ = _
    rw [read_toJson h.1, Option.bind_some]
    show (readJson? (toJson p.2)).bind _ = _
    rw [read_toJson h.2]
    rfl
  plain_toJson p := .array fun j hj => by
    obtain rfl | hj := List.mem_cons.mp hj
    · exact plain_toJson p.1
    · rw [List.mem_singleton.mp hj]
      exact plain_toJson p.2
  toJson_ne_null _ := nofun

/-- A type whose values are named apart has a lawful form. -/
theorem lawful_named [JsonForm α] [Bounded α] {name : α → String} {ofName? : Text → Option α}
    (hwrite : ∀ a : α, toJson a = .string (name a).toList)
    (hread : ∀ j : Json, (readJson? j : Option α) = Json.named? .json ofName? j)
    (hfits : ∀ a : α, Fits a) (hname : ∀ a, ofName? (name a).toList = some a) : LawfulForm α where
  fits_of_read _ := hfits _
  read_toJson {a} _ := by
    rw [hwrite, hread]
    exact hname a
  plain_toJson a := by
    rw [hwrite]
    exact .string _
  toJson_ne_null a := by
    rw [hwrite]
    exact nofun

/-! ## Fields -/

namespace Json

/-- The members of a record, as its object holds them. -/
def written (fields : List (String × Json)) : Members := fields.map fun m => (m.1.toList, m.2)

@[simp] theorem valuesOf_written_nil (name : String) : valuesOf (written []) name = [] := rfl

@[simp] theorem valuesOf_written_cons (field name : String) (v : Json)
    (fields : List (String × Json)) :
    valuesOf (written ((field, v) :: fields)) name =
      if field = name then v :: valuesOf (written fields) name
      else valuesOf (written fields) name := by
  rw [written, List.map_cons, valuesOf, List.filter_cons]
  split
  case isTrue h => rw [if_pos (String.toList_inj.mp (eq_of_beq h))]; rfl
  case isFalse h => rw [if_neg fun heq => h (by rw [heq, beq_self_eq_true])]; rfl

@[simp] theorem valuesOf_written_append (fields others : List (String × Json)) (name : String) :
    valuesOf (written (fields ++ others)) name =
      valuesOf (written fields) name ++ valuesOf (written others) name := by
  simp only [written, valuesOf, List.map_append, List.filter_append]

@[simp] theorem valuesOf_written_present [JsonForm α] (field name : String) (o : Option α) :
    valuesOf (written (present field o)) name =
      if field = name then o.toList.map toJson else [] := by
  cases o with
  | none => exact (ite_self []).symm
  | some a => exact valuesOf_written_cons field name (toJson a) []

/-- Fields without broken strings and decimals. -/
def PlainFields (fields : List (String × Json)) : Prop := ∀ m ∈ fields, m.2.Plain

@[simp] theorem plainFields_nil : PlainFields [] := nofun

@[simp] theorem plainFields_cons (field : String) (v : Json) (fields : List (String × Json)) :
    PlainFields ((field, v) :: fields) ↔ v.Plain ∧ PlainFields fields :=
  List.forall_mem_cons

@[simp] theorem plainFields_append (fields others : List (String × Json)) :
    PlainFields (fields ++ others) ↔ PlainFields fields ∧ PlainFields others :=
  List.forall_mem_append

theorem plain_record {fields : List (String × Json)} (h : PlainFields fields) :
    (record fields).Plain := by
  refine .object fun m hm => ?_
  obtain ⟨field, hfield, rfl⟩ := List.mem_map.mp hm
  exact h field hfield

theorem requiredBy?_of_value {read : Json → Option α} {ms : Members} {name : String} {j : Json}
    {a : α} (hread : read j = some a) (h : valuesOf ms name = [j]) :
    requiredBy? read ms name = some a := by
  rw [requiredBy?, h]
  exact hread

theorem defaultedBy?_of_value {read : Json → Option α} {ms : Members} {name : String} {j : Json}
    {a : α} (hread : read j = some a) (h : valuesOf ms name = [j]) (default : α) :
    defaultedBy? read ms name default = some a := by
  rw [defaultedBy?, h]
  exact hread

section Fields

variable [JsonForm α] [Bounded α] [LawfulForm α] {ms : Members} {name : String}

theorem fits_of_required? {a : α} (h : required? ms name = some a) : Fits a := by
  unfold required? requiredBy? at h
  split at h
  · exact fits_of_read h
  · contradiction

theorem fits_of_defaulted? {a default : α} (hdefault : Fits default)
    (h : defaulted? ms name default = some a) : Fits a := by
  unfold defaulted? defaultedBy? at h
  split at h
  · exact Option.some.inj h ▸ hdefault
  · exact fits_of_read h
  · contradiction

theorem fits_of_optional? {o : Option α} (h : optional? ms name = some o) : Fits o := by
  unfold optional? at h
  split at h
  · exact Option.some.inj h ▸ nofun
  · exact Option.some.inj h ▸ nofun
  · obtain ⟨a, ha, rfl⟩ := Option.map_eq_some_iff.mp h
    rintro _ ⟨⟩
    exact fits_of_read ha
  · contradiction

theorem required?_toJson {a : α} (ha : Fits a) (h : valuesOf ms name = [toJson a]) :
    required? ms name = some a :=
  requiredBy?_of_value (read_toJson ha) h

theorem defaulted?_toJson {a : α} (ha : Fits a) (h : valuesOf ms name = [toJson a]) (default : α) :
    defaulted? ms name default = some a :=
  defaultedBy?_of_value (read_toJson ha) h default

@[simp] theorem plain_optional (o : Option α) : (toJson o).Plain := by
  cases o with
  | none => exact .null
  | some a => exact plain_toJson a

@[simp] theorem plainFields_present (field : String) (o : Option α) :
    PlainFields (present field o) := by
  cases o with
  | none => exact plainFields_nil
  | some a => exact (plainFields_cons field (toJson a) []).mpr ⟨plain_toJson a, plainFields_nil⟩

/-- A value that is there is read, since it is not null. -/
theorem optional?_of_value {a : α} (ha : Fits a) (h : valuesOf ms name = [toJson a]) :
    optional? ms name = some (some a) := by
  unfold optional?
  rw [h]
  split
  case h_1 h => contradiction
  -- Only a written null could be taken for a value that is missing.
  case h_2 h => exact absurd (List.cons.inj h).1 (toJson_ne_null a)
  case h_3 h =>
      rw [← (List.cons.inj h).1, read_toJson ha]
      rfl
  case h_4 h => exact absurd rfl (h _)

theorem optional?_toJson {o : Option α} (ho : Fits o) (h : valuesOf ms name = [toJson o]) :
    optional? ms name = some o := by
  cases o with
  | none =>
      unfold optional?
      rw [h]
      rfl
  | some a => exact optional?_of_value (ho a rfl) h

theorem optional?_present {o : Option α} (ho : Fits o)
    (h : valuesOf ms name = o.toList.map toJson) : optional? ms name = some o := by
  cases o with
  | none =>
      unfold optional?
      rw [h]
      rfl
  | some a => exact optional?_of_value (ho a rfl) h

end Fields

end Json

/-- A record whose fields are read back from its members has a lawful form. -/
theorem lawful_record [JsonForm α] [Bounded α] {fields : Json → Option Json.Members}
    {write : α → List (String × Json)} {read : Json.Members → Option α}
    (hwrite : ∀ a : α, toJson a = .record (write a))
    (hread : ∀ j : Json, (readJson? j : Option α) = (fields j).bind read)
    (hfields : ∀ ms, fields (.object ms) = some ms)
    (hfits : ∀ ms a, read ms = some a → Fits a)
    (hback : ∀ a, Fits a → read (Json.written (write a)) = some a)
    (hplain : ∀ a, Json.PlainFields (write a)) : LawfulForm α where
  fits_of_read {j a} h := by
    rw [hread] at h
    -- Whether the members come from an object or an array makes no difference from here on.
    obtain ⟨ms, -, hms⟩ := Option.bind_eq_some_iff.mp h
    exact hfits ms a hms
  read_toJson {a} h := by
    rw [hwrite, hread, Json.record, hfields]
    exact hback a h
  plain_toJson a := by
    rw [hwrite]
    exact Json.plain_record (hplain a)
  toJson_ne_null a := by
    rw [hwrite]
    exact nofun

end MathTyping
