import MathTyping.Proofs.Symbol.Table

/-!
# What a symbol search answers

A search deals out the entries whose key contains the query to three ranks: beginnings without a
dot, beginnings with a dot, and all others.  Dealing out loses nothing and doubles nothing
(`dealt_perm`), and since the entries are in the order of their keys, so is each rank
(`exists_ranked`).

The entries are in turn known by the records.  They are the last ones of their keys
(`mem_ofRecords_iff`), and there is one way only to put them in order (`Ordered.ext`), so beyond
that it does not matter in which order the records were given, nor in which order a map lists
its keys.
-/

namespace MathTyping

namespace SymbolTable

variable {entries others : List (Text × SymbolRecord)} {records : List (Text × SymbolRecord)}
  {query : Text}

/-! ### Entries in order are known by their members -/

theorem Ordered.nodup_keys (h : Ordered entries) : (entries.map (·.1)).Nodup := by
  rw [List.Nodup, List.pairwise_map]
  refine h.imp ?_
  rintro e f hbefore hsame
  exact not_keyBefore_self e.1 (hsame ▸ hbefore)

theorem Ordered.ext (h : Ordered entries) (hothers : Ordered others)
    (hsame : ∀ e, e ∈ entries ↔ e ∈ others) : entries = others := by
  have hperm : entries.Perm others :=
    (List.perm_ext_iff_of_nodup h.nodup_keys.of_map hothers.nodup_keys.of_map).mpr hsame
  refine hperm.eq_of_pairwise (fun e f _ _ hef hfe => ?_) h hothers
  exact absurd (keyBefore_trans hef hfe) (not_keyBefore_self e.1)

/-- Two lists of records leave the same last record under every key but the empty one. -/
def SameLast (records others : List (Text × SymbolRecord)) : Prop :=
  ∀ e : Text × SymbolRecord, e.1 ≠ [] → (IsLast records e ↔ IsLast others e)

/-- Two lists of records make tables with the same entries exactly if they leave the same last
records. -/
theorem entries_ofRecords_eq_iff :
    (ofRecords records).entries = (ofRecords others).entries ↔ SameLast records others := by
  constructor
  · intro h e hne
    have hmem : e ∈ (ofRecords records).entries ↔ e ∈ (ofRecords others).entries := by rw [h]
    rwa [mem_ofRecords_iff, mem_ofRecords_iff, and_iff_right hne, and_iff_right hne] at hmem
  · intro h
    refine (ordered_ofRecords records).ext (ordered_ofRecords others) fun e => ?_
    rw [mem_ofRecords_iff, mem_ofRecords_iff]
    exact and_congr_right (h e)

/-! ### The three ranks -/

/-- What is dealt out are the entries whose keys contain the query. -/
theorem dealt_perm (entries : List (Text × SymbolRecord)) (query : Text) :
    ((dealt entries query).map fun m => (m.key, m.symbol)).Perm
      (entries.filter fun e => e.1.contains query) := by
  rw [dealt]
  generalize entries.filter (fun e => e.1.contains query) = matching
  simp only [List.map_append, List.map_map, Function.comp_def, List.map_id']
  -- The ranks are two partitions, and the one by dots is made inside the one by beginnings.
  refine List.Perm.trans (List.Perm.append_right _ ?_)
    (List.filter_append_perm (fun e => e.1.beginsWith query) matching)
  have hdots := List.filter_append_perm (fun e : Text × SymbolRecord => !List.contains e.1 '.')
    (matching.filter fun e => e.1.beginsWith query)
  simpa only [Bool.not_not] using hdots

/-- The empty query finds every entry, so it tells entries apart. -/
theorem Ordered.eq_of_dealt_nil (h : Ordered entries) (hothers : Ordered others)
    (hsame : dealt entries [] = dealt others []) : entries = others := by
  have hall (held : List (Text × SymbolRecord)) :
      ((dealt held []).map fun m => (m.key, m.symbol)).Perm held := by
    have hperm := dealt_perm held []
    rwa [List.filter_eq_self.mpr fun e _ => (Text.contains_iff e.1 []).mpr List.nil_infix] at hperm
  have hperm := (hall entries).symm.trans (hsame ▸ hall others)
  exact h.ext hothers fun e => hperm.mem_iff

/-- The keys of some matches are in order: shorter ones first, and those of one length by their
characters. -/
def KeysInOrder (found : List SymbolMatch) : Prop :=
  found.Pairwise fun m n =>
    m.key.bytes < n.key.bytes ∨ m.key.bytes = n.key.bytes ∧ m.key < n.key

/-- The matches for a query, by rank. -/
structure Ranked (query : Text) (bases variants substrings : List SymbolMatch) : Prop where
  base : ∀ m ∈ bases, query <+: m.key ∧ '.' ∉ m.key ∧ m.kind = .base
  variant : ∀ m ∈ variants, query <+: m.key ∧ '.' ∈ m.key ∧
    m.kind = if bases = [] then .base else .variant
  substring : ∀ m ∈ substrings, ¬ query <+: m.key ∧ m.kind = .substring
  bases_order : KeysInOrder bases
  variants_order : KeysInOrder variants
  substrings_order : KeysInOrder substrings

/-- Entries in order keep their order as matches of one kind. -/
theorem Ordered.keysInOrder (h : Ordered entries) (kind : MatchKind) :
    KeysInOrder (entries.map fun e => ⟨kind, e.1, e.2⟩) := by
  rw [KeysInOrder, List.pairwise_map]
  exact h.imp fun hbefore => (keyBefore_iff _ _).mp hbefore

theorem exists_ranked (h : Ordered entries) (query : Text) :
    ∃ bases variants substrings, dealt entries query = bases ++ variants ++ substrings ∧
      Ranked query bases variants substrings := by
  refine ⟨_, _, _, rfl, ?_, ?_, ?_, ?_, ?_, ?_⟩
  · intro m hm
    obtain ⟨e, he, rfl⟩ := List.mem_map.mp hm
    simp only [List.mem_filter, Text.beginsWith_iff] at he
    exact ⟨he.1.2, by simpa using he.2, rfl⟩
  · intro m hm
    obtain ⟨e, he, rfl⟩ := List.mem_map.mp hm
    simp only [List.mem_filter, Text.beginsWith_iff] at he
    refine ⟨he.1.2, by simpa using he.2, ?_⟩
    simp only [List.isEmpty_iff, List.map_eq_nil_iff]
  · intro m hm
    obtain ⟨e, he, rfl⟩ := List.mem_map.mp hm
    simp only [List.mem_filter, Bool.not_eq_true', ← Bool.not_eq_true, Text.beginsWith_iff] at he
    exact ⟨he.2, rfl⟩
  · exact Ordered.keysInOrder (((h.filter _).filter _).filter _) _
  · exact Ordered.keysInOrder (((h.filter _).filter _).filter _) _
  · exact Ordered.keysInOrder ((h.filter _).filter _) _

/-! ### The answer to a query -/

/-- Some matches answer a query for the keys of some records: they have every key that contains the
query, once, with the last record that was given for it, and by rank. -/
structure Answers (records : List (Text × SymbolRecord)) (query : Text)
    (found : List SymbolMatch) : Prop where
  keys : ∀ key, key ∈ found.map (·.key) ↔
    key ∈ records.map (·.1) ∧ key ≠ [] ∧ query <:+: key
  once : (found.map (·.key)).Nodup
  last : ∀ m ∈ found, IsLast records (m.key, m.symbol)
  ranked : ∃ bases variants substrings, found = bases ++ variants ++ substrings ∧
    Ranked query bases variants substrings

theorem mem_search_iff {key : Text} {symbol : SymbolRecord} :
    (∃ m ∈ (ofRecords records).search query, m.key = key ∧ m.symbol = symbol) ↔
      key ≠ [] ∧ IsLast records (key, symbol) ∧ query <:+: key := by
  have hperm := (dealt_perm (ofRecords records).entries query).mem_iff (a := (key, symbol))
  rw [List.mem_filter, mem_ofRecords_iff, Text.contains_iff, List.mem_map] at hperm
  rw [search_ofRecords]
  simpa [and_assoc] using hperm

theorem answers_search (records : List (Text × SymbolRecord)) (query : Text) :
    Answers records query ((ofRecords records).search query) := by
  have hordered := ordered_ofRecords records
  refine ⟨fun key => ?_, ?_, fun m hm => ?_, ?_⟩
  · rw [List.mem_map, ← exists_isLast_iff]
    constructor
    · rintro ⟨m, hm, rfl⟩
      obtain ⟨hne, hlast, hcontains⟩ := mem_search_iff.mp ⟨m, hm, rfl, rfl⟩
      exact ⟨⟨m.symbol, hlast⟩, hne, hcontains⟩
    · rintro ⟨⟨symbol, hlast⟩, hne, hcontains⟩
      obtain ⟨m, hm, hkey, -⟩ := mem_search_iff.mpr ⟨hne, hlast, hcontains⟩
      exact ⟨m, hm, hkey⟩
  · have hkeys := (dealt_perm (ofRecords records).entries query).map Prod.fst
    rw [List.map_map] at hkeys
    rw [search_ofRecords]
    exact hkeys.nodup_iff.mpr (Ordered.nodup_keys (hordered.filter _))
  · exact (mem_search_iff.mp ⟨m, hm, rfl, rfl⟩).2.1
  · rw [search_ofRecords]
    exact exists_ranked hordered query

end SymbolTable

namespace SymbolIndex

open SymbolTable (Answers SameLast IsLast)

variable {records others : List (Text × SymbolRecord)} {query : Text}
  {names latexNames otherNames otherLatexNames : Listing}

theorem search_by_name (h : query.head? ≠ some '\\') :
    (ofRecordsListed names latexNames records).search query =
      (SymbolTable.ofRecords records).search query := by
  rw [search.eq_def, ofRecordsListed_eq]
  split
  · contradiction
  · rfl

theorem search_by_latexName (h : query.head? = some '\\') :
    (ofRecordsListed names latexNames records).search query =
      (SymbolTable.ofRecords (latexKeyed records)).search
        (withoutBackslashes query) := by
  obtain ⟨rest, rfl⟩ := List.head?_eq_some_iff.mp h
  rw [search.eq_def, ofRecordsListed_eq]
  rfl

/-- Two indexes answer all queries alike exactly if their tables were left with the same records:
the empty query lists the one table, and a lone backslash the other. -/
theorem search_eq_iff :
    (∀ query, (ofRecordsListed names latexNames records).search query =
        (ofRecordsListed otherNames otherLatexNames others).search query) ↔
      SameLast records others ∧ SameLast (latexKeyed records) (latexKeyed others) := by
  constructor
  · intro h
    have hnames := h []
    have hlatex := h ['\\']
    rw [search_by_name (by simp), search_by_name (by simp), SymbolTable.search_ofRecords,
      SymbolTable.search_ofRecords] at hnames
    rw [search_by_latexName rfl, search_by_latexName rfl, SymbolTable.search_ofRecords,
      SymbolTable.search_ofRecords] at hlatex
    have hordered := SymbolTable.ordered_ofRecords
    exact ⟨SymbolTable.entries_ofRecords_eq_iff.mp
        ((hordered _).eq_of_dealt_nil (hordered _) hnames),
      SymbolTable.entries_ofRecords_eq_iff.mp
        ((hordered _).eq_of_dealt_nil (hordered _) hlatex)⟩
  · rintro ⟨hnames, hlatex⟩ query
    by_cases hquery : query.head? = some '\\'
    · rw [search_by_latexName hquery, search_by_latexName hquery, SymbolTable.search_ofRecords,
        SymbolTable.search_ofRecords, SymbolTable.entries_ofRecords_eq_iff.mpr hlatex]
    · rw [search_by_name hquery, search_by_name hquery, SymbolTable.search_ofRecords,
        SymbolTable.search_ofRecords, SymbolTable.entries_ofRecords_eq_iff.mpr hnames]

/-- **A search answers with every match once, by rank, whatever the order of the records.**  It
goes by keys, or by LaTeX names if the query starts with a backslash, and all backslashes are left
out then.  Matches that begin with the query come first, those without a dot before those with
one, and each rank is in order.  Two lists of records give equal answers to all queries exactly if
they leave the same last record under every key and under every LaTeX name.  All this holds in
whatever order the maps of the tables list their keys. -/
theorem search_answers_by_rank (names latexNames : Listing)
    (records : List (Text × SymbolRecord)) (query : Text) :
    let index := ofRecordsListed names latexNames records
    (query.head? ≠ some '\\' → Answers records query (index.search query)) ∧
      (query.head? = some '\\' →
        Answers (latexKeyed records) (withoutBackslashes query) (index.search query)) ∧
      ∀ otherNames otherLatexNames others,
        (∀ query, index.search query =
            (ofRecordsListed otherNames otherLatexNames others).search query) ↔
          SameLast records others ∧ SameLast (latexKeyed records) (latexKeyed others) := by
  refine ⟨fun h => ?_, fun h => ?_, fun otherNames otherLatexNames others => search_eq_iff⟩
  · rw [search_by_name h]
    exact SymbolTable.answers_search records query
  · rw [search_by_latexName h]
    exact SymbolTable.answers_search (latexKeyed records) (withoutBackslashes query)

/-- An equality sign that is given twice, its negation, and a record without a key; one map lists
its keys backwards. -/
theorem equality_signs_searched :
    let old : SymbolRecord := ⟨['='], [], "eq".toList, none, .relation, []⟩
    let eq : SymbolRecord := ⟨['='], [], "eq".toList, none, .relation, "\\eq".toList⟩
    let ne : SymbolRecord := ⟨['≠'], [], "eq.not".toList, none, .relation, "\\neq".toList⟩
    let records := [("eq.not".toList, ne), ("eq".toList, old), ([], old), ("eq".toList, eq)]
    let others := [("eq".toList, eq), ("eq.not".toList, ne)]
    let backwards : Listing := ⟨List.reverse, List.reverse_perm⟩
    let index := ofRecordsListed .kept backwards records
    (("eq".toList).head? ≠ some '\\' ∧
        Answers records "eq".toList (index.search "eq".toList) ∧
        index.search "eq".toList =
          [⟨.base, "eq".toList, eq⟩, ⟨.variant, "eq.not".toList, ne⟩]) ∧
      (("\\eq".toList).head? = some '\\' ∧
        Answers (latexKeyed records) "eq".toList (index.search "\\eq".toList) ∧
        index.search "\\eq".toList =
          [⟨.base, "eq".toList, eq⟩, ⟨.substring, "neq".toList, ne⟩]) ∧
      ∀ query, index.search query = (ofRecords others).search query := by
  intro old eq ne records others backwards index
  obtain ⟨hname, -, hsame⟩ := search_answers_by_rank .kept backwards records "eq".toList
  obtain ⟨-, hlatex, -⟩ := search_answers_by_rank .kept backwards records "\\eq".toList
  have hindex : index = ⟨.ofRecords records, .ofRecords (latexKeyed records)⟩ :=
    ofRecordsListed_eq _ _ _
  have hnames : SameLast records others :=
    SymbolTable.entries_ofRecords_eq_iff.mp (by decide +kernel)
  have hlatexNames : SameLast (latexKeyed records) (latexKeyed others) :=
    SymbolTable.entries_ofRecords_eq_iff.mp (by decide +kernel)
  exact ⟨⟨by decide, hname (by decide), by rw [hindex]; decide +kernel⟩,
    ⟨by decide, hlatex (by decide), by rw [hindex]; decide +kernel⟩,
    (hsame .kept .kept others).mpr ⟨hnames, hlatexNames⟩⟩

end SymbolIndex

end MathTyping
