import MathTyping.Json.Document
import MathTyping.Popup
import MathTyping.Shortcut
import MathTyping.Json.Reader

/-!
# The JSON forms of symbols, queries, snippets and the popup
-/

namespace MathTyping

instance : JsonForm MathClass where
  toJson c := .string c.name
  ofJson?
    | .string t => some (MathClass.ofName t)
    | _ => none

instance : JsonForm SymbolRecord where
  toJson s := .record [("sym", toJson s.glyph), ("unicName", toJson s.unicodeName),
    ("name", toJson s.name), ("shorthand", toJson s.shorthand),
    ("mathClass", toJson s.mathClass), ("latexName", toJson s.latexName)]
  ofJson? j := do
    let ms ← j.fields? .json ["sym", "unicName", "name", "shorthand", "mathClass", "latexName"]
    pure ⟨← Json.required? ms "sym", ← Json.defaulted? ms "unicName" [],
      ← Json.required? ms "name", ← Json.optional? ms "shorthand",
      ← Json.required? ms "mathClass", ← Json.defaulted? ms "latexName" []⟩

instance : JsonForm QueryKind := namedForm QueryKind.name QueryKind.ofName?

instance : JsonForm Query where
  toJson q := .record ([("kind", toJson q.kind), ("word", toJson q.word)] ++
    Json.present "argument" q.argument ++ [("start", toJson q.start)])
  ofJson? j := do
    let ms ← j.fields? .json ["kind", "word", "argument", "start"]
    pure ⟨← Json.required? ms "kind", ← Json.required? ms "word",
      ← Json.optional? ms "argument", ← Json.required? ms "start"⟩

instance : JsonForm RenderKind := namedForm RenderKind.name RenderKind.ofName?

/-- Read a snippet by the rule of a notation. -/
def Snippet.ofJson? (rule : Json.Leniency) (j : Json) : Option Snippet := do
  let ms ← j.fields? rule ["category", "name", "description", "kind", "id", "content", "script"]
  let d := Snippet.standard
  pure ⟨← Json.defaulted? ms "category" d.category, ← Json.defaulted? ms "name" d.name,
    ← Json.defaulted? ms "description" d.description,
    ← Json.defaultedBy? (Json.named? rule RenderKind.ofName?) ms "kind" d.kind,
    ← Json.defaulted? ms "id" d.processor, ← Json.defaulted? ms "content" d.content,
    ← Json.defaulted? ms "script" d.script⟩

instance : JsonForm Snippet where
  toJson s := .record [("category", toJson s.category), ("name", toJson s.name),
    ("description", toJson s.description), ("kind", toJson s.kind), ("id", toJson s.processor),
    ("content", toJson s.content), ("script", toJson s.script)]
  ofJson? := Snippet.ofJson? .json

/-- Read a shortcut by the rule of a notation. -/
def Shortcut.ofJson? (rule : Json.Leniency) (j : Json) : Option Shortcut := do
  let ms ← j.fields? rule ["content", "category", "offset"]
  pure ⟨← Json.required? ms "content", ← Json.defaulted? ms "category" [],
    ← Json.defaulted? ms "offset" 0⟩

instance : JsonForm Shortcut where
  toJson s := .record [("content", toJson s.content), ("category", toJson s.category),
    ("offset", toJson s.offset)]
  ofJson? := Shortcut.ofJson? .json

/-- The form of a pair: an array of two. -/
instance pairForm [JsonForm α] [JsonForm β] : JsonForm (α × β) where
  toJson p := .array [toJson p.1, toJson p.2]
  ofJson?
    | .array [a, b] => do pure (← readJson? a, ← readJson? b)
    | _ => none

instance : JsonForm PopupItem where
  toJson i := .record ([("label", toJson i.label)] ++ Json.present "detail" i.detail ++
    Json.present "preview" i.preview)
  ofJson? j := do
    let ms ← j.fields? .json ["label", "detail", "preview"]
    pure ⟨← Json.required? ms "label", ← Json.optional? ms "detail",
      ← Json.optional? ms "preview"⟩

instance : JsonForm PopupView where
  toJson v := .record [("kind", toJson v.kind), ("range", toJson v.range),
    ("items", toJson v.items), ("selected", toJson v.selected)]
  ofJson? j := do
    let ms ← j.allFields? ["kind", "range", "items", "selected"]
    pure ⟨← Json.required? ms "kind", ← Json.required? ms "range", ← Json.required? ms "items",
      ← Json.optional? ms "selected"⟩

namespace SymbolIndex

/-- Put a record into a list ordered by key, in place of one with the same key. -/
def insertByKey (key : Text) (symbol : SymbolRecord) :
    List (Text × SymbolRecord) → List (Text × SymbolRecord)
  | [] => [(key, symbol)]
  | e :: es =>
      if e.1 = key then (key, symbol) :: es
      else if key < e.1 then (key, symbol) :: e :: es
      else e :: insertByKey key symbol es

/-- Read the records of an object in the order of their keys, the last one of a key
winning. -/
def recordsOf? : Json.Members → Option (List (Text × SymbolRecord))
  | [] => some []
  | (key, j) :: ms => do
      let symbol ← readJson? j
      let later ← recordsOf? ms
      pure (if later.any (·.1 == key) then later else insertByKey key symbol later)

/-- Read an index from the text of a JSON object that maps keys to records. -/
def ofJsonText? (t : Text) : Option SymbolIndex := do
  let j ← Json.parse? t
  let ms ← j.members?
  let records ← recordsOf? ms
  pure (ofRecords records)

end SymbolIndex

end MathTyping
