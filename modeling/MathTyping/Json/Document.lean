import MathTyping.Json.Codec
import MathTyping.Region
import MathTyping.Bracket
import MathTyping.Edit
import MathTyping.Highlight

/-!
# The JSON forms of places, regions and edits
-/

namespace MathTyping

instance : JsonForm Position where
  toJson p := .record [("line", toJson p.line), ("ch", toJson p.column)]
  ofJson? j := do
    let ms ← j.fields? .json ["line", "ch"]
    pure ⟨← Json.required? ms "line", ← Json.required? ms "ch"⟩

instance : JsonForm Range where
  toJson r := .record [("from", toJson r.start), ("to", toJson r.stop)]
  ofJson? j := do
    let ms ← j.fields? .json ["from", "to"]
    pure ⟨← Json.required? ms "from", ← Json.required? ms "to"⟩

instance : JsonForm MathKind := namedForm MathKind.name MathKind.ofName?

instance : JsonForm Region where
  toJson r := .record [("kind", toJson r.kind), ("content", toJson r.content),
    ("start", toJson r.start), ("end", toJson r.stop)]
  ofJson? j := do
    let ms ← j.fields? .json ["kind", "content", "start", "end"]
    pure ⟨← Json.required? ms "kind", ← Json.required? ms "content",
      ← Json.required? ms "start", ← Json.required? ms "end"⟩

instance : JsonForm BracketKind := namedForm BracketKind.name BracketKind.ofName?

instance : JsonForm BracketPair where
  toJson p := .record [("kind", toJson p.kind), ("depth", toJson p.depth),
    ("open_line", toJson p.opening.line), ("open_column", toJson p.opening.column),
    ("open_byte", toJson p.opening.byte), ("close_line", toJson p.closing.line),
    ("close_column", toJson p.closing.column), ("close_byte", toJson p.closing.byte)]
  ofJson? j := do
    let ms ← j.fields? .json ["kind", "depth", "open_line", "open_column", "open_byte",
      "close_line", "close_column", "close_byte"]
    pure ⟨← Json.required? ms "kind", ← Json.defaulted? ms "depth" 0,
      ⟨← Json.required? ms "open_line", ← Json.required? ms "open_column",
        ← Json.required? ms "open_byte"⟩,
      ⟨← Json.required? ms "close_line", ← Json.required? ms "close_column",
        ← Json.required? ms "close_byte"⟩⟩

instance : JsonForm Edit where
  toJson e := .record [("range", toJson e.range), ("text", toJson e.text)]
  ofJson? j := do
    let ms ← j.fields? .json ["range", "text"]
    pure ⟨← Json.required? ms "range", ← Json.required? ms "text"⟩

instance : JsonForm Splice where
  toJson s := .record [("edit", toJson s.edit), ("cursor", toJson s.cursor)]
  ofJson? j := do
    let ms ← j.fields? .json ["edit", "cursor"]
    pure ⟨← Json.optional? ms "edit", ← Json.required? ms "cursor"⟩

instance : JsonForm Highlight where
  toJson h := .record [("range", toJson h.range), ("class", toJson h.className)]
  ofJson? j := do
    let ms ← j.fields? .json ["range", "class"]
    pure ⟨← Json.required? ms "range", ← Json.required? ms "class"⟩

end MathTyping
