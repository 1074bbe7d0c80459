import MathTyping.Json.Config
import MathTyping.Json.Reader
import MathTyping.Toml.Reader
import MathTyping.Text.Quoted

/-!
# Loading a configuration

A configuration is written in JSON or in TOML; the extension of the file name
says which.  The file is read before its name is looked at.
-/

namespace MathTyping

/-- Why a configuration could not be loaded. -/
inductive ConfigFault where
  | malformedJson
  | malformedToml
  | unreadable
  | unsupported (extension : Option Text)
deriving DecidableEq, Repr

namespace ConfigFault

/-- Where a fault arose. -/
def location : ConfigFault → String
  | malformedJson => "config.json"
  | malformedToml => "config.toml"
  | unreadable => "read config"
  | unsupported _ => "load"

/-- Write an optional text, quoted. -/
def quotedOption : Option Text → Text
  | none => "None".toList
  | some t => "Some(".toList ++ Text.quoted t ++ [')']

/-- The message about a fault of the library's own; a malformed text has none. -/
def message? : ConfigFault → Option Text
  | unsupported extension => some ("unsupported config format: ".toList ++ quotedOption extension)
  | _ => none

end ConfigFault

namespace Config

/-- Read a configuration in JSON. -/
def ofJsonText (t : Text) : Except ConfigFault Config :=
  match (Json.parse? t).bind (ofJson? .json) with
  | some c => .ok c
  | none => .error .malformedJson

/-- Read a configuration in TOML. -/
def ofTomlText (t : Text) : Except ConfigFault Config :=
  match (Toml.parse? t).bind (ofJson? .toml) with
  | some c => .ok c
  | none => .error .malformedToml

/-- The last part of a path. -/
def fileName (path : Text) : Text := (path.splitOn '/').getLastD []

/-- The extension of a file name: what follows the last dot, unless that dot is the
first character. -/
def extension? (path : Text) : Option Text :=
  match Text.cutLast? ['.'] (fileName path) with
  | some (stem, after) => if stem.isEmpty || fileName path = ['.', '.'] then none else some after
  | none => none

/-- Load a configuration from the content of a file, if there is one. -/
def load (path : Text) (content : Option Text) : Except ConfigFault Config :=
  match content with
  | none => .error .unreadable
  | some t =>
      let extension := extension? path
      if extension = some "toml".toList then ofTomlText t
      else if extension = some "json".toList then ofJsonText t
      else .error (.unsupported extension)

end Config

end MathTyping
