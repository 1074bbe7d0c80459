import MathTyping.Json.Suggestion
import MathTyping.Session.Event

/-!
# The JSON forms of renders, snapshots and effects
-/

namespace MathTyping

instance : JsonForm Severity where
  toJson s := .integer s.code
  ofJson?
    | .integer n => Severity.ofCode? n
    | _ => none

instance : JsonForm ByteSpan where
  toJson s := .record [("start", toJson s.start), ("end", toJson s.stop)]
  ofJson? j := do
    let ms ← j.fields? .json ["start", "end"]
    pure ⟨← Json.required? ms "start", ← Json.required? ms "end"⟩

instance : JsonForm Diagnostic where
  toJson d := .record [("severity", toJson d.severity), ("span", toJson d.span),
    ("message", toJson d.message), ("trace", toJson d.trace), ("hints", toJson d.hints)]
  ofJson? j := do
    let ms ← j.fields? .json ["severity", "span", "message", "trace", "hints"]
    pure ⟨← Json.required? ms "severity", ← Json.defaulted? ms "span" ⟨0, 0⟩,
      ← Json.required? ms "message", ← Json.defaulted? ms "trace" [],
      ← Json.defaulted? ms "hints" []⟩

instance : JsonForm Rendering where
  toJson r := .record [("svg", toJson r.svg), ("diags", toJson r.diagnostics)]
  ofJson? j := do
    let ms ← j.fields? .json ["svg", "diags"]
    pure ⟨← Json.required? ms "svg", ← Json.defaulted? ms "diags" []⟩

/-- The members of a record that tell its type and what it holds. -/
def typed (type : String) (members : List (String × Json)) : Json :=
  .record (("type", .string type.toList) :: members)

namespace PreviewRequest

/-- The fields of a request for a preview. -/
def fields (q : PreviewRequest) : List (String × Json) :=
  [("ticket", toJson q.ticket), ("source", toJson q.source), ("kind", toJson q.kind),
    ("processor", toJson q.processor)]

/-- Read a request for a preview from the members of a record that tells its type. -/
def ofMembers? (ms : Json.Members) : Option PreviewRequest := do
  pure ⟨← Json.required? ms "ticket", ← Json.required? ms "source",
    ← Json.requiredBy? (Json.named? .typed RenderKind.ofName?) ms "kind",
    ← Json.required? ms "processor"⟩

end PreviewRequest

instance : JsonForm RenderRequest where
  toJson
    | .brackets content => typed "brackets" [("content", toJson content)]
    | .preview q => typed "preview" q.fields
  ofJson? j := do
    let type ← j.type?
    if type = "brackets".toList then
      let ms ← j.fields? .typed ["type", "content"]
      pure (.brackets (← Json.required? ms "content"))
    else if type = "preview".toList then
      let ms ← j.fields? .typed ["type", "ticket", "source", "kind", "processor"]
      pure (.preview (← PreviewRequest.ofMembers? ms))
    else none

instance : JsonForm Snapshot where
  toJson s := .record [("text", toJson s.text), ("cursor", toJson s.cursor)]
  ofJson? j := do
    let ms ← j.fields? .json ["text", "cursor"]
    pure ⟨← Json.required? ms "text", ← Json.required? ms "cursor"⟩

instance : JsonForm Notice where
  toJson n := .record [("origin", toJson n.source), ("message", toJson n.message)]
  ofJson? j := do
    let ms ← j.fields? .json ["origin", "message"]
    pure ⟨← Json.required? ms "origin", ← Json.required? ms "message"⟩

namespace Effect

/-- Put the type of an effect in front of the members of a record. -/
def withType (type : String) (j : Json) : Json :=
  .object (("type".toList, .string type.toList) :: j.members?.getD [])

/-- Write an effect. -/
def toJson : Effect → Json
  | splice s => withType "splice" (JsonForm.toJson s)
  | setSelection range => typed "setSelection" [("range", JsonForm.toJson range)]
  | showPopup view => withType "showPopup" (JsonForm.toJson view)
  | closePopup => typed "closePopup" []
  | addHighlights hs => typed "addHighlights" [("highlights", JsonForm.toJson hs)]
  | removeHighlights classes => typed "removeHighlights" [("classes", JsonForm.toJson classes)]
  | request r => JsonForm.toJson r
  | showPreview anchor svg =>
      typed "showPreview" [("anchor", JsonForm.toJson anchor), ("svg", JsonForm.toJson svg)]
  | showPreviewError anchor diagnostics =>
      typed "showPreviewError"
        [("anchor", JsonForm.toJson anchor), ("diagnostics", JsonForm.toJson diagnostics)]
  | hidePreview => typed "hidePreview" []
  | notice n => withType "notice" (JsonForm.toJson n)
  | defer delay generation =>
      typed "defer" [("delay_ms", JsonForm.toJson delay), ("generation", JsonForm.toJson generation)]

end Effect

end MathTyping
