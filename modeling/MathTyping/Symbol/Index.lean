import MathTyping.Symbol

/-!
# Looking up symbols

A table maps keys to records.  When all records are there it is sealed: its keys
are put in order, shorter ones first and equal lengths by character, from
whatever order the map lists them in.  A search ranks the keys that contain the
query: beginnings without a dot, beginnings that name a variant, and all others;
then it looks up the record of each.  Queries that start with a backslash search
the LaTeX names instead.
-/

namespace MathTyping

/-- How a key matched a query. -/
inductive MatchKind where
  | base
  | variant
  | substring
deriving DecidableEq, Repr, Inhabited

namespace MatchKind

/-- The name of a match kind. -/
def name : MatchKind → String
  | base => "base"
  | variant => "variant"
  | substring => "substring"

end MatchKind

/-- A search result. -/
structure SymbolMatch where
  kind : MatchKind
  key : Text
  symbol : SymbolRecord
deriving DecidableEq, Repr, Inhabited

/-- Tell whether a key goes before another: it is shorter in bytes, or equally
long and smaller character by character. -/
def keyBefore (a b : Text) : Bool :=
  decide (a.bytes < b.bytes) || (a.bytes == b.bytes && decide (a < b))

/-- A map from keys to records, each key once.  The order of the entries means nothing. -/
structure SymbolMap where
  entries : List (Text × SymbolRecord)
  nodup_keys : (entries.map (·.1)).Nodup
deriving DecidableEq, Repr

namespace SymbolMap

/-- The map without entries. -/
def empty : SymbolMap := ⟨[], List.nodup_nil⟩

instance : Inhabited SymbolMap := ⟨empty⟩

/-- The keys of a map. -/
def keys (m : SymbolMap) : List Text := m.entries.map (·.1)

/-- Find the record of a key. -/
def get? (m : SymbolMap) (key : Text) : Option SymbolRecord :=
  (m.entries.find? (·.1 == key)).map (·.2)

/-- Leaving out the entry of a key leaves the other keys apart. -/
theorem nodup_insert (m : SymbolMap) (key : Text) (symbol : SymbolRecord) :
    (((key, symbol) :: m.entries.filter (·.1 != key)).map (·.1)).Nodup := by
  refine List.nodup_cons.mpr ⟨fun hmem => ?_, ?_⟩
  · obtain ⟨e, he, hkey⟩ := List.mem_map.mp hmem
    simpa [hkey] using (List.mem_filter.mp he).2
  · exact List.Nodup.sublist (List.filter_sublist.map _) m.nodup_keys

/-- Put an entry into a map, in place of one with the same key. -/
def insert (m : SymbolMap) (key : Text) (symbol : SymbolRecord) : SymbolMap :=
  ⟨(key, symbol) :: m.entries.filter (·.1 != key), m.nodup_insert key symbol⟩

end SymbolMap

/-- The order in which a map lists its keys: some rearrangement, which nothing specifies. -/
structure Listing where
  rearrange : List Text → List Text
  perm : ∀ keys, (rearrange keys).Perm keys

/-- Keys are listed as the entries are kept. -/
def Listing.kept : Listing := ⟨id, fun _ => .refl _⟩

/-- A map from keys to records, and its keys in the order in which they are searched. -/
structure SymbolTable where
  byKey : SymbolMap
  keys : List Text
deriving DecidableEq, Repr, Inhabited

namespace SymbolTable

/-- The table without entries. -/
def empty : SymbolTable := ⟨.empty, []⟩

/-- Record a symbol under a key; an empty key is left out.  The keys are those of the last
sealing. -/
def insert (t : SymbolTable) (key : Text) (symbol : SymbolRecord) : SymbolTable :=
  if key.isEmpty then t else { t with byKey := t.byKey.insert key symbol }

/-- Put the keys in order, from the order in which the map lists them. -/
def sealed (listing : Listing) (t : SymbolTable) : SymbolTable :=
  { t with keys := (listing.rearrange t.byKey.keys).mergeSort fun a b => !keyBefore b a }

/-- Find the record of a key. -/
def get? (t : SymbolTable) (key : Text) : Option SymbolRecord := t.byKey.get? key

/-- Search the keys, rank the matches and look up their records. -/
def search (t : SymbolTable) (query : Text) : List SymbolMatch :=
  let (leading, others) :=
    (t.keys.filter fun key => key.contains query).partition fun key => key.beginsWith query
  let (bases, variants) := leading.partition fun key => !List.contains key '.'
  let variantKind := if bases.isEmpty then MatchKind.base else MatchKind.variant
  let tagged : List (Text × MatchKind) :=
    bases.map (fun key => (key, .base)) ++ variants.map (fun key => (key, variantKind)) ++
      others.map (fun key => (key, .substring))
  -- A key without a record would be dropped here.
  tagged.filterMap fun (key, kind) => (t.get? key).map fun symbol => ⟨kind, key, symbol⟩

end SymbolTable

/-- Symbols by name and shorthand, and by LaTeX name. -/
structure SymbolIndex where
  names : SymbolTable
  latexNames : SymbolTable
deriving DecidableEq, Repr, Inhabited

namespace SymbolIndex

/-- The index without symbols. -/
def empty : SymbolIndex := ⟨.empty, .empty⟩

/-- Remove every backslash. -/
def withoutBackslashes (t : Text) : Text := t.filter (· != '\\')

/-- Record a symbol under a key and under its LaTeX name; later symbols win. -/
def insert (index : SymbolIndex) (key : Text) (symbol : SymbolRecord) : SymbolIndex :=
  ⟨index.names.insert key symbol,
    index.latexNames.insert (withoutBackslashes symbol.latexName) symbol⟩

/-- Build an index from keys and records, and seal its tables.  The maps of the two tables list
their keys in an order of their own. -/
def ofRecordsListed (names latexNames : Listing) (records : List (Text × SymbolRecord)) :
    SymbolIndex :=
  let filled := records.foldl (fun index r => index.insert r.1 r.2) empty
  ⟨filled.names.sealed names, filled.latexNames.sealed latexNames⟩

/-- Build an index from keys and records. -/
def ofRecords (records : List (Text × SymbolRecord)) : SymbolIndex :=
  ofRecordsListed .kept .kept records

/-- Build an index from symbols, each under its shorthand, if any, and its name. -/
def ofSymbols (symbols : List SymbolRecord) : SymbolIndex :=
  ofRecords (symbols.flatMap fun s =>
    (s.shorthand.toList.map fun key => (key, s)) ++ [(s.name, s)])

/-- The number of names and shorthands. -/
def size (index : SymbolIndex) : Nat := index.names.keys.length

/-- Find a symbol by its name or shorthand. -/
def get? (index : SymbolIndex) (key : Text) : Option SymbolRecord := index.names.get? key

/-- Search by name and shorthand, or by LaTeX name after a backslash. -/
def search (index : SymbolIndex) (query : Text) : List SymbolMatch :=
  match query with
  | '\\' :: _ => index.latexNames.search (withoutBackslashes query)
  | _ => index.names.search query

end SymbolIndex

end MathTyping
