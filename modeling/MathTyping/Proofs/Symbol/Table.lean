import Mathlib.Data.List.Induction
import Mathlib.Data.List.Nodup
import Mathlib.Data.List.Sort
import MathTyping.Symbol.Index
import MathTyping.Proofs.Text.Occurrences

/-!
# The tables behind the symbol search

A map holds for each key the last record that was given for it (`mem_filled_iff`), but in which
order it lists its keys is not known.  When a table is sealed its keys are put in order, and there
is one order only for keys that differ, so the listing leaves no trace.

A search goes over the keys and looks up the record of each.  No key of a sealed table is without
a record, so nothing is dropped on the way: the search gives what the entries of the table give,
read as a list in the order of their keys (`Sealed.search_eq`).  The key that is searched for
goes before all keys that begin with it, so it is found first if the table has it.
-/

namespace MathTyping

namespace Text

theorem beginsWith_iff (t pre : Text) : t.beginsWith pre ↔ pre <+: t :=
  List.isPrefixOf_iff_prefix

end Text

/-! ### The order of the keys -/

theorem keyBefore_iff (a b : Text) :
    keyBefore a b ↔ a.bytes < b.bytes ∨ a.bytes = b.bytes ∧ a < b := by
  simp [keyBefore]

theorem not_keyBefore_self (a : Text) : ¬ keyBefore a a := by
  rw [keyBefore_iff]
  rintro (hbytes | ⟨-, hless⟩)
  · exact Nat.lt_irrefl _ hbytes
  · exact List.lt_irrefl a hless

theorem keyBefore_trans {a b c : Text} (hab : keyBefore a b) (hbc : keyBefore b c) :
    keyBefore a c := by
  rw [keyBefore_iff] at *
  rcases hab with hab | ⟨hab, hless⟩ <;> rcases hbc with hbc | ⟨hbc, hlater⟩
  · exact Or.inl (Nat.lt_trans hab hbc)
  · exact Or.inl (hbc ▸ hab)
  · exact Or.inl (hab ▸ hbc)
  · exact Or.inr ⟨hab.trans hbc, List.lt_trans hless hlater⟩

theorem keyBefore_or_keyBefore {a b : Text} (hne : a ≠ b) : keyBefore a b ∨ keyBefore b a := by
  rw [keyBefore_iff, keyBefore_iff]
  rcases Nat.lt_trichotomy a.bytes b.bytes with hbytes | hbytes | hbytes
  · exact Or.inl (Or.inl hbytes)
  · by_cases hless : a < b
    · exact Or.inl (Or.inr ⟨hbytes, hless⟩)
    · have hlater : b < a := Decidable.byContradiction fun hnot =>
        hne (List.le_antisymm hnot hless)
      exact Or.inr (Or.inr ⟨hbytes.symm, hlater⟩)
  · exact Or.inr (Or.inl hbytes)

/-- No key goes before one of its beginnings. -/
theorem not_keyBefore_of_begins {a b : Text} (h : a <+: b) : ¬ keyBefore b a := by
  obtain ⟨rest, rfl⟩ := h
  cases rest with
  | nil =>
      rw [List.append_nil]
      exact not_keyBefore_self a
  | cons c rest =>
      have hpos := c.utf8Size_pos
      rw [keyBefore_iff, Text.bytes_append, Text.bytes_cons]
      omega

/-- A key may stand in front of another: the other does not go before it. -/
def KeyLe (a b : Text) : Prop := ¬ keyBefore b a

instance : DecidableRel KeyLe := fun _ _ => inferInstanceAs (Decidable (¬ _))

instance : Std.Total KeyLe where
  total a b := by
    by_cases hab : keyBefore a b
    · exact Or.inl fun hba => not_keyBefore_self a (keyBefore_trans hab hba)
    · exact Or.inr hab

instance : Std.Antisymm KeyLe where
  antisymm a b hab hba := by
    by_contra hne
    exact (keyBefore_or_keyBefore hne).elim hba hab

instance : IsTrans Text KeyLe where
  trans a b c hab hbc hca := by
    by_cases hsame : b = c
    · exact hab (hsame ▸ hca)
    · exact hab (keyBefore_trans ((keyBefore_or_keyBefore hsame).resolve_right hbc) hca)

/-- There is one way only to put keys in order. -/
theorem mergeSort_keys_eq {keys listed : List Text} (h : listed.Perm keys) :
    (listed.mergeSort fun a b => !keyBefore b a) = keys.insertionSort KeyLe := by
  have hle : (fun a b => !keyBefore b a) = fun a b => decide (KeyLe a b) := by
    funext a b
    simp [KeyLe]
  rw [hle, List.mergeSort_eq_insertionSort KeyLe]
  exact ((List.perm_insertionSort KeyLe listed).trans
    (h.trans (List.perm_insertionSort KeyLe keys).symm)).eq_of_pairwise'
      (List.pairwise_insertionSort KeyLe listed) (List.pairwise_insertionSort KeyLe keys)

theorem pairwise_keyBefore_insertionSort {keys : List Text} (h : keys.Nodup) :
    (keys.insertionSort KeyLe).Pairwise fun a b => keyBefore a b := by
  have hnodup := (List.perm_insertionSort KeyLe keys).nodup_iff.mpr h
  refine List.Pairwise.imp₂ (fun a b hle hne => ?_) (List.pairwise_insertionSort KeyLe keys) hnodup
  exact (keyBefore_or_keyBefore hne).resolve_right hle

namespace SymbolMap

variable {m : SymbolMap} {key : Text} {symbol : SymbolRecord}

/-- An entry that is put into a map takes the place of the one with its key. -/
theorem mem_insert {e : Text × SymbolRecord} :
    e ∈ (m.insert key symbol).entries ↔ e = (key, symbol) ∨ e ∈ m.entries ∧ e.1 ≠ key := by
  simp [insert]

/-- Each key has one record. -/
theorem get?_eq_some_iff : m.get? key = some symbol ↔ (key, symbol) ∈ m.entries := by
  rw [get?, Option.map_eq_some_iff]
  constructor
  · rintro ⟨e, hfind, rfl⟩
    have hkey : e.1 = key := by simpa using List.find?_some hfind
    exact hkey ▸ List.mem_of_find?_eq_some hfind
  · intro hmem
    cases hfind : m.entries.find? (·.1 == key) with
    | none => simpa using List.find?_eq_none.mp hfind _ hmem
    | some e =>
        have hkey : e.1 = key := by simpa using List.find?_some hfind
        have hsame : e = (key, symbol) := List.inj_on_of_nodup_map m.nodup_keys
          (List.mem_of_find?_eq_some hfind) hmem hkey
        exact ⟨e, rfl, by rw [hsame]⟩

theorem mem_keys_iff : key ∈ m.keys ↔ ∃ symbol, m.get? key = some symbol := by
  simp only [get?_eq_some_iff, keys, List.mem_map, Prod.exists, exists_and_right,
    exists_eq_right]

end SymbolMap

namespace SymbolTable

/-! ### Entries in order -/

/-- The keys of a table with their records, in the order in which they are searched. -/
def entries (t : SymbolTable) : List (Text × SymbolRecord) :=
  t.keys.filterMap fun key => (t.get? key).map fun symbol => (key, symbol)

/-- The keys are in order, and no key stands twice. -/
def Ordered (entries : List (Text × SymbolRecord)) : Prop :=
  entries.Pairwise fun e f => keyBefore e.1 f.1

/-- What a search finds among some entries: those whose key contains the query, dealt out to the
three ranks. -/
def dealt (entries : List (Text × SymbolRecord)) (query : Text) : List SymbolMatch :=
  let matching := entries.filter fun e => e.1.contains query
  let leading := matching.filter fun e => e.1.beginsWith query
  let others := matching.filter fun e => !e.1.beginsWith query
  let bases := leading.filter fun e => !List.contains e.1 '.'
  let variants := leading.filter fun e => List.contains e.1 '.'
  let variantKind := if bases.isEmpty then MatchKind.base else MatchKind.variant
  bases.map (fun e => ⟨.base, e.1, e.2⟩) ++
    variants.map (fun e => ⟨variantKind, e.1, e.2⟩) ++
    others.map (fun e => ⟨.substring, e.1, e.2⟩)

variable {entries : List (Text × SymbolRecord)} {key : Text} {symbol : SymbolRecord}

/-- Of entries in order, the one whose key all others begin with comes first. -/
theorem Ordered.exists_cons (h : Ordered entries) {e : Text × SymbolRecord} (he : e ∈ entries)
    (hbegins : ∀ f ∈ entries, e.1 <+: f.1) : ∃ rest, entries = e :: rest := by
  cases entries with
  | nil => contradiction
  | cons f rest =>
      rcases List.mem_cons.mp he with rfl | hlater
      · exact ⟨rest, rfl⟩
      · exact absurd ((List.pairwise_cons.mp h).1 e hlater)
          (not_keyBefore_of_begins (hbegins f List.mem_cons_self))

/-! ### Sealed tables -/

variable {t : SymbolTable}

/-- The keys of a table are those of its map, in order. -/
structure Sealed (t : SymbolTable) : Prop where
  ordered : t.keys.Pairwise fun a b => keyBefore a b
  mem_keys : ∀ key, key ∈ t.keys ↔ key ∈ t.byKey.keys

/-- A table with the keys of its map put in order one by one. -/
def inOrder (t : SymbolTable) : SymbolTable := { t with keys := t.byKey.keys.insertionSort KeyLe }

/-- In which order the keys are listed leaves no trace in a sealed table. -/
theorem sealed_eq_inOrder (listing : Listing) (t : SymbolTable) : t.sealed listing = t.inOrder := by
  rw [SymbolTable.sealed, inOrder, mergeSort_keys_eq (listing.perm t.byKey.keys)]

theorem sealed_inOrder (t : SymbolTable) : t.inOrder.Sealed :=
  ⟨pairwise_keyBefore_insertionSort t.byKey.nodup_keys, fun _ => List.mem_insertionSort _⟩

/-- Every key of a sealed table has a record. -/
theorem Sealed.entries_eq (h : t.Sealed) :
    ∃ symbolOf : Text → SymbolRecord, (∀ key ∈ t.keys, t.get? key = some (symbolOf key)) ∧
      t.entries = t.keys.map fun key => (key, symbolOf key) := by
  have hsome : ∀ key ∈ t.keys, t.get? key = some ((t.get? key).getD default) := fun key hkey => by
    obtain ⟨symbol, hsymbol⟩ := SymbolMap.mem_keys_iff.mp ((h.mem_keys key).mp hkey)
    rw [get?, hsymbol, Option.getD_some]
  refine ⟨fun key => (t.get? key).getD default, hsome, ?_⟩
  rw [SymbolTable.entries, ← List.filterMap_eq_map]
  refine List.filterMap_congr fun key hkey => ?_
  rw [hsome key hkey]
  rfl

theorem Sealed.ordered_entries (h : t.Sealed) : Ordered t.entries := by
  obtain ⟨symbolOf, -, hentries⟩ := h.entries_eq
  rw [hentries, Ordered, List.pairwise_map]
  exact h.ordered

theorem Sealed.mem_entries (h : t.Sealed) (e : Text × SymbolRecord) :
    e ∈ t.entries ↔ e ∈ t.byKey.entries := by
  rw [SymbolTable.entries, List.mem_filterMap, ← SymbolMap.get?_eq_some_iff]
  constructor
  · rintro ⟨key, -, hkey⟩
    obtain ⟨symbol, hsymbol, rfl⟩ := Option.map_eq_some_iff.mp hkey
    exact hsymbol
  · intro hsymbol
    refine ⟨e.1, (h.mem_keys e.1).mpr (SymbolMap.mem_keys_iff.mpr ⟨e.2, hsymbol⟩), ?_⟩
    rw [get?, hsymbol]
    rfl

/-- Looking up keys that all have a record drops none. -/
theorem filterMap_get? {keys : List Text} (symbolOf : Text → SymbolRecord) (kind : MatchKind)
    (h : ∀ key ∈ keys, t.get? key = some (symbolOf key)) :
    (keys.map fun key => (key, kind)).filterMap (fun (key, kind) =>
        (t.get? key).map fun symbol => (⟨kind, key, symbol⟩ : SymbolMatch)) =
      keys.map fun key => ⟨kind, key, symbolOf key⟩ := by
  rw [List.filterMap_map, ← List.filterMap_eq_map]
  refine List.filterMap_congr fun key hkey => ?_
  rw [Function.comp_apply]
  dsimp only
  rw [h key hkey]
  rfl

/-- A search for keys gives what the entries in order give. -/
theorem Sealed.search_eq (h : t.Sealed) (query : Text) :
    t.search query = dealt t.entries query := by
  obtain ⟨symbolOf, hsymbols, hentries⟩ := h.entries_eq
  rw [hentries, search, dealt]
  simp only [List.partition_eq_filter_filter, List.filterMap_append, List.filter_map,
    List.map_map, List.isEmpty_map, Function.comp_def, Bool.not_not]
  rw [filterMap_get? symbolOf .base, filterMap_get? symbolOf, filterMap_get? symbolOf .substring]
  all_goals
    intro key hkey
    simp only [List.mem_filter] at hkey
  · exact hsymbols key hkey.1.1
  · exact hsymbols key hkey.1.1.1
  · exact hsymbols key hkey.1.1.1

/-! ### Tables built from records -/

/-- The table that records fill, one after the other. -/
def filled (records : List (Text × SymbolRecord)) : SymbolTable :=
  records.foldl (fun t r => t.insert r.1 r.2) empty

/-- The table that records make. -/
def ofRecords (records : List (Text × SymbolRecord)) : SymbolTable := (filled records).inOrder

theorem filled_concat (records : List (Text × SymbolRecord)) (r : Text × SymbolRecord) :
    filled (records ++ [r]) = (filled records).insert r.1 r.2 := by
  rw [filled, List.foldl_append, ← filled]
  rfl

/-- A record is the last one that was given for its key. -/
def IsLast (records : List (Text × SymbolRecord)) (r : Text × SymbolRecord) : Prop :=
  ∃ earlier later, records = earlier ++ r :: later ∧ ∀ s ∈ later, s.1 ≠ r.1

theorem not_isLast_nil (r : Text × SymbolRecord) : ¬ IsLast [] r := by
  rintro ⟨earlier, later, h, -⟩
  simp at h

theorem isLast_concat (records : List (Text × SymbolRecord)) (r e : Text × SymbolRecord) :
    IsLast (records ++ [r]) e ↔ e = r ∨ IsLast records e ∧ e.1 ≠ r.1 := by
  constructor
  · rintro ⟨earlier, later, h, hlater⟩
    rcases List.eq_nil_or_concat later with rfl | ⟨init, last, rfl⟩
    · exact Or.inl (List.singleton_inj.mp (List.append_inj' h rfl).2).symm
    · rw [List.concat_eq_append, ← List.cons_append, ← List.append_assoc] at h
      obtain ⟨rfl, hlast⟩ := List.append_inj' h rfl
      obtain rfl := List.singleton_inj.mp hlast
      rw [List.concat_eq_append, List.forall_mem_append] at hlater
      exact Or.inr ⟨⟨earlier, init, rfl, hlater.1⟩, (hlater.2 r (List.mem_singleton_self r)).symm⟩
  · rintro (rfl | ⟨⟨earlier, later, rfl, hlater⟩, hne⟩)
    · exact ⟨records, [], rfl, by simp⟩
    · refine ⟨earlier, later ++ [r], by simp, List.forall_mem_append.mpr ⟨hlater, ?_⟩⟩
      rintro s hs
      rw [List.mem_singleton.mp hs]
      exact hne.symm

theorem IsLast.mem {records : List (Text × SymbolRecord)} {r : Text × SymbolRecord}
    (h : IsLast records r) : r ∈ records := by
  obtain ⟨earlier, later, rfl, -⟩ := h
  simp

/-- The keys that have a last record are those that were given. -/
theorem exists_isLast_iff {records : List (Text × SymbolRecord)} :
    (∃ symbol, IsLast records (key, symbol)) ↔ key ∈ records.map (·.1) := by
  constructor
  · rintro ⟨symbol, hlast⟩
    exact List.mem_map.mpr ⟨_, hlast.mem, rfl⟩
  · intro h
    induction records using List.reverseRecOn with
    | nil => contradiction
    | append_singleton records r ih =>
        simp only [isLast_concat]
        by_cases hsame : key = r.1
        · exact ⟨r.2, Or.inl (by rw [hsame])⟩
        · rw [List.map_append, List.mem_append, List.map_singleton, List.mem_singleton,
            or_iff_left hsame] at h
          obtain ⟨symbol, hlast⟩ := ih h
          exact ⟨symbol, Or.inr ⟨hlast, hsame⟩⟩

/-- The map holds the last records of all keys but the empty one. -/
theorem mem_filled_iff {records : List (Text × SymbolRecord)} {e : Text × SymbolRecord} :
    e ∈ (filled records).byKey.entries ↔ e.1 ≠ [] ∧ IsLast records e := by
  induction records using List.reverseRecOn with
  | nil => exact iff_of_false List.not_mem_nil fun h => not_isLast_nil e h.2
  | append_singleton records r ih =>
      rw [isLast_concat, filled_concat, insert]
      split
      · rename_i hnil
        rw [ih, List.isEmpty_iff.mp hnil]
        constructor
        · rintro ⟨hne, hlast⟩
          exact ⟨hne, Or.inr ⟨hlast, hne⟩⟩
        · rintro ⟨hne, rfl | ⟨hlast, -⟩⟩
          · exact absurd (List.isEmpty_iff.mp hnil) hne
          · exact ⟨hne, hlast⟩
      · rename_i hne
        have hne : r.1 ≠ [] := fun hnil => hne (List.isEmpty_iff.mpr hnil)
        rw [SymbolMap.mem_insert, ih]
        constructor
        · rintro (rfl | ⟨⟨hkey, hlast⟩, hother⟩)
          · exact ⟨hne, Or.inl rfl⟩
          · exact ⟨hkey, Or.inr ⟨hlast, hother⟩⟩
        · rintro ⟨hkey, rfl | ⟨hlast, hother⟩⟩
          · exact Or.inl rfl
          · exact Or.inr ⟨⟨hkey, hlast⟩, hother⟩

theorem sealed_ofRecords (records : List (Text × SymbolRecord)) : (ofRecords records).Sealed :=
  sealed_inOrder _

theorem ordered_ofRecords (records : List (Text × SymbolRecord)) :
    Ordered (ofRecords records).entries :=
  (sealed_ofRecords records).ordered_entries

/-- The entries are the last records of all keys but the empty one. -/
theorem mem_ofRecords_iff {records : List (Text × SymbolRecord)} {e : Text × SymbolRecord} :
    e ∈ (ofRecords records).entries ↔ e.1 ≠ [] ∧ IsLast records e := by
  rw [(sealed_ofRecords records).mem_entries]
  exact mem_filled_iff

theorem search_ofRecords (records : List (Text × SymbolRecord)) (query : Text) :
    (ofRecords records).search query = dealt (ofRecords records).entries query :=
  (sealed_ofRecords records).search_eq query

/-! ### Searching -/

variable {query : Text}

/-- What is found is among the entries. -/
theorem mem_of_mem_dealt {m : SymbolMatch} (h : m ∈ dealt entries query) :
    (m.key, m.symbol) ∈ entries := by
  rw [dealt] at h
  simp only [List.mem_append, List.mem_map, List.mem_filter] at h
  rcases h with (⟨e, he, rfl⟩ | ⟨e, he, rfl⟩) | ⟨e, he, rfl⟩
  · exact he.1.1.1
  · exact he.1.1.1
  · exact he.1.1

/-- A key of some entries is the first that a search for it finds. -/
theorem dealt_of_mem (h : Ordered entries) (hmem : (key, symbol) ∈ entries) :
    ∃ rest, dealt entries key = ⟨.base, key, symbol⟩ :: rest := by
  have hfirst : ∀ wanted : Text × SymbolRecord → Bool, wanted (key, symbol) →
      ∃ rest, ((entries.filter fun e => e.1.contains key).filter
        fun e => e.1.beginsWith key).filter wanted = (key, symbol) :: rest := by
    intro wanted hwanted
    refine Ordered.exists_cons (((h.filter _).filter _).filter _) ?_ fun f hf => ?_
    · simp only [List.mem_filter]
      exact ⟨⟨⟨hmem, (Text.contains_iff key key).mpr (List.infix_refl key)⟩,
        (Text.beginsWith_iff key key).mpr (List.prefix_refl key)⟩, hwanted⟩
    · simp only [List.mem_filter] at hf
      exact (Text.beginsWith_iff f.1 key).mp hf.1.2
  rw [dealt]
  by_cases hdot : List.contains key '.'
  · -- All keys that begin with a key with a dot have the dot too.
    have hnone : ((entries.filter fun e => e.1.contains key).filter
        fun e => e.1.beginsWith key).filter (fun e => !List.contains e.1 '.') = [] := by
      rw [List.filter_eq_nil_iff]
      intro f hf
      simp only [List.mem_filter] at hf
      have hbegins := (Text.beginsWith_iff f.1 key).mp hf.2
      simpa using hbegins.subset (by simpa using hdot)
    obtain ⟨rest, hrest⟩ := hfirst (fun e => List.contains e.1 '.') hdot
    rw [hnone, hrest]
    exact ⟨_, rfl⟩
  · obtain ⟨rest, hrest⟩ := hfirst (fun e => !List.contains e.1 '.') (by simpa using hdot)
    rw [hrest]
    exact ⟨_, rfl⟩

end SymbolTable

namespace SymbolIndex

/-! ### The index of a list of symbols -/

/-- The records under their LaTeX names, which are compared without backslashes. -/
def latexKeyed (records : List (Text × SymbolRecord)) : List (Text × SymbolRecord) :=
  records.map fun r => (withoutBackslashes r.2.latexName, r.2)

theorem foldl_insert_eq (records : List (Text × SymbolRecord)) :
    records.foldl (fun index r => index.insert r.1 r.2) empty =
      ⟨.filled records, .filled (latexKeyed records)⟩ := by
  induction records using List.reverseRecOn with
  | nil => rfl
  | append_singleton records r ih =>
      rw [List.foldl_append, ih, latexKeyed, latexKeyed, List.map_append, List.map_singleton,
        SymbolTable.filled_concat, SymbolTable.filled_concat]
      rfl

/-- In which order the maps of the tables list their keys leaves no trace in an index. -/
theorem ofRecordsListed_eq (names latexNames : Listing) (records : List (Text × SymbolRecord)) :
    ofRecordsListed names latexNames records =
      ⟨.ofRecords records, .ofRecords (latexKeyed records)⟩ := by
  rw [ofRecordsListed, foldl_insert_eq]
  dsimp only
  rw [SymbolTable.sealed_eq_inOrder, SymbolTable.sealed_eq_inOrder, SymbolTable.ofRecords,
    SymbolTable.ofRecords]

/-- Every symbol with its keys: its shorthand, if it has one, and its name. -/
def keyed (symbols : List SymbolRecord) : List (Text × SymbolRecord) :=
  symbols.flatMap fun s => (s.shorthand.toList.map fun key => (key, s)) ++ [(s.name, s)]

theorem mem_keyed_iff {symbols : List SymbolRecord} {r : Text × SymbolRecord} :
    r ∈ keyed symbols ↔ r.2 ∈ symbols ∧ (r.2.shorthand = some r.1 ∨ r.1 = r.2.name) := by
  rw [keyed, List.mem_flatMap]
  constructor
  · rintro ⟨s, hs, hr⟩
    rcases List.mem_append.mp hr with hr | hr
    · obtain ⟨key, hkey, rfl⟩ := List.mem_map.mp hr
      exact ⟨hs, Or.inl (Option.mem_toList.mp hkey)⟩
    · obtain rfl := List.mem_singleton.mp hr
      exact ⟨hs, Or.inr rfl⟩
  · rintro ⟨hs, hkey⟩
    refine ⟨r.2, hs, List.mem_append.mpr ?_⟩
    rcases hkey with hshort | hname
    · exact Or.inl (List.mem_map.mpr ⟨r.1, Option.mem_toList.mpr hshort, rfl⟩)
    · exact Or.inr (List.mem_singleton.mpr (Prod.ext hname rfl))

theorem ofSymbols_eq (symbols : List SymbolRecord) :
    ofSymbols symbols =
      ⟨.ofRecords (keyed symbols), .ofRecords (latexKeyed (keyed symbols))⟩ :=
  ofRecordsListed_eq .kept .kept (keyed symbols)

/-- What is found by a search is one of the symbols. -/
theorem mem_of_mem_search {symbols : List SymbolRecord} {query : Text} {m : SymbolMatch}
    (h : m ∈ (ofSymbols symbols).search query) : m.symbol ∈ symbols := by
  rw [ofSymbols_eq, search.eq_def] at h
  split at h
  · rw [SymbolTable.search_ofRecords] at h
    obtain ⟨-, hentry⟩ := SymbolTable.mem_ofRecords_iff.mp (SymbolTable.mem_of_mem_dealt h)
    obtain ⟨r, hr, heq⟩ := List.mem_map.mp hentry.mem
    have hsymbol : r.2 = m.symbol := congrArg Prod.snd heq
    exact hsymbol ▸ (mem_keyed_iff.mp hr).1
  · rw [SymbolTable.search_ofRecords] at h
    obtain ⟨-, hentry⟩ := SymbolTable.mem_ofRecords_iff.mp (SymbolTable.mem_of_mem_dealt h)
    exact (mem_keyed_iff.mp hentry.mem).1

/-- Symbols that can be told apart and typed by name: the names are distinct and made of two or
more letters and dots, and no shorthand is a name. -/
structure Nameable (symbols : List SymbolRecord) : Prop where
  distinct : (symbols.map (·.name)).Nodup
  letters : ∀ s ∈ symbols, 2 ≤ s.name.length ∧
    ∀ c ∈ s.name, ('a' ≤ c ∧ c ≤ 'z') ∨ ('A' ≤ c ∧ c ≤ 'Z') ∨ c = '.'
  apart : ∀ s ∈ symbols, ∀ other ∈ symbols, other.shorthand ≠ some s.name

/-- A search for the name of a symbol finds this symbol first. -/
theorem search_name {symbols : List SymbolRecord} (h : Nameable symbols) {s : SymbolRecord}
    (hs : s ∈ symbols) :
    ∃ rest, (ofSymbols symbols).search s.name = ⟨.base, s.name, s⟩ :: rest := by
  obtain ⟨htwo, hletters⟩ := h.letters s hs
  have hne : s.name ≠ [] := by
    intro hnil
    rw [hnil] at htwo
    exact absurd htwo (by decide)
  have hentry : (s.name, s) ∈ (SymbolTable.ofRecords (keyed symbols)).entries := by
    have hgiven : (s.name, s) ∈ keyed symbols := mem_keyed_iff.mpr ⟨hs, Or.inr rfl⟩
    obtain ⟨last, hlast⟩ := SymbolTable.exists_isLast_iff.mpr (List.mem_map.mpr ⟨_, hgiven, rfl⟩)
    obtain ⟨hother, hshort | hname⟩ := mem_keyed_iff.mp hlast.mem
    · exact absurd hshort (h.apart s hs last hother)
    · have hsame : last = s := List.inj_on_of_nodup_map h.distinct hother hs hname.symm
      exact SymbolTable.mem_ofRecords_iff.mpr ⟨hne, hsame ▸ hlast⟩
  have hsearch : (ofSymbols symbols).search s.name =
      (SymbolTable.ofRecords (keyed symbols)).search s.name := by
    rw [search.eq_def, ofSymbols_eq]
    split
    · rename_i tail hname
      rw [hname] at hletters
      exact absurd (hletters '\\' List.mem_cons_self) (by decide)
    · rfl
  rw [hsearch, SymbolTable.search_ofRecords]
  exact SymbolTable.dealt_of_mem (SymbolTable.ordered_ofRecords _) hentry

end SymbolIndex

end MathTyping
