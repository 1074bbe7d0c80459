import MathTyping.Snippet
import MathTyping.Shortcut

/-!
# Configuration

What a user may set.  Every setting has a default.
-/

namespace MathTyping

/-- The settings of a session. -/
structure Config where
  inlinePreview : Bool
  unicodeSymbols : Bool
  snippets : List Snippet
  shortcuts : Shortcuts
  previewProcessor : Text
  highlightDelay : Nat
  tabJump : Bool
deriving DecidableEq, Repr

namespace Config

/-- The settings that hold without any configuration. -/
def standard : Config where
  inlinePreview := true
  unicodeSymbols := true
  snippets := []
  shortcuts := Shortcuts.standard
  previewProcessor := []
  highlightDelay := 250
  tabJump := true

instance : Inhabited Config := ⟨standard⟩

/-- The longest delay before a repaint, in milliseconds. -/
def longestDelay : Nat := 500

/-- The delay before a repaint, in milliseconds. -/
def repaintDelay (c : Config) : Nat := min c.highlightDelay longestDelay

end Config

end MathTyping
