import MathTyping.Json.Suggestion
import MathTyping.Config

/-!
# The JSON form of the configuration
-/

namespace MathTyping

namespace Shortcuts

/-- Set the shortcut of a key, in place of an earlier one. -/
def set (key : Text) (shortcut : Shortcut) (shortcuts : Shortcuts) : Shortcuts :=
  match shortcuts with
  | [] => [(key, shortcut)]
  | s :: rest => if s.1 = key then (key, shortcut) :: rest else s :: set key shortcut rest

/-- Write shortcuts as an object. -/
def toJson (shortcuts : Shortcuts) : Json :=
  .object (shortcuts.map fun s => (s.1, JsonForm.toJson s.2))

/-- Read shortcuts from the members of an object, the last one of a key winning. -/
def ofMembers? (rule : Json.Leniency) : Json.Members → Shortcuts → Option Shortcuts
  | [], shortcuts => some shortcuts
  | (key, j) :: ms, shortcuts => do
      let shortcut ← Shortcut.ofJson? rule j
      ofMembers? rule ms (set key shortcut shortcuts)

/-- Read shortcuts from an object. -/
def ofJson? (rule : Json.Leniency) (j : Json) : Option Shortcuts := do
  let ms ← j.members?
  ofMembers? rule ms []

end Shortcuts

namespace Config

/-- Read a configuration by the rule of a notation. -/
def ofJson? (rule : Json.Leniency) (j : Json) : Option Config := do
  let ms ← j.fields? rule ["enableInlinePreview", "complementSymbolWithUnicode", "snippets",
    "shortcuts", "previewProcessor", "highlightDelayMs", "enableTabJump"]
  let d := standard
  pure ⟨← Json.defaulted? ms "enableInlinePreview" d.inlinePreview,
    ← Json.defaulted? ms "complementSymbolWithUnicode" d.unicodeSymbols,
    ← Json.defaultedBy? (Json.arrayOf? (Snippet.ofJson? rule)) ms "snippets" d.snippets,
    ← Json.defaultedBy? (Shortcuts.ofJson? rule) ms "shortcuts" d.shortcuts,
    ← Json.defaulted? ms "previewProcessor" d.previewProcessor,
    ← Json.defaulted? ms "highlightDelayMs" d.highlightDelay,
    ← Json.defaulted? ms "enableTabJump" d.tabJump⟩

end Config

instance : JsonForm Config where
  toJson c := .record [("enableInlinePreview", toJson c.inlinePreview),
    ("complementSymbolWithUnicode", toJson c.unicodeSymbols), ("snippets", toJson c.snippets),
    ("shortcuts", c.shortcuts.toJson), ("previewProcessor", toJson c.previewProcessor),
    ("highlightDelayMs", toJson c.highlightDelay), ("enableTabJump", toJson c.tabJump)]
  ofJson? := Config.ofJson? .json

end MathTyping
