import MathTyping.Text.Search

/-!
# Symbols

A symbol of the typesetting language: its glyph, its names and its math class.
Class names are read without regard to the case of ASCII letters; a name that is
none of them is kept as it is.
-/

namespace MathTyping

/-- Lower the ASCII letters of a text. -/
def Text.asciiLower (t : Text) : Text := t.map Char.toLower

/-- The math class of a symbol. -/
inductive MathClass where
  | normal
  | alphabetic
  | binary
  | relation
  | opening
  | closing
  | fence
  | punctuation
  | large
  | textOperator
  | unary
  | diacritic
  | vary
  | space
  | other (name : Text)
deriving DecidableEq, Repr, Inhabited

namespace MathClass

/-- The classes that have a name of their own. -/
def named : List MathClass :=
  [normal, alphabetic, binary, relation, opening, closing, fence, punctuation, large,
    textOperator, unary, diacritic, vary, space]

/-- The name of a class. -/
def name : MathClass → Text
  | normal => "Normal".toList
  | alphabetic => "Alphabetic".toList
  | binary => "Binary".toList
  | relation => "Relation".toList
  | opening => "Opening".toList
  | closing => "Closing".toList
  | fence => "Fence".toList
  | punctuation => "Punctuation".toList
  | large => "Large".toList
  | textOperator => "op".toList
  | unary => "Unary".toList
  | diacritic => "Diacritic".toList
  | vary => "Vary".toList
  | space => "Space".toList
  | other name => name

/-- The class of a name. -/
def ofName (t : Text) : MathClass :=
  (named.find? fun c => c.name.asciiLower == t.asciiLower).getD (other t)

/-- Tell whether a class has no name of its own. -/
def isOther : MathClass → Bool
  | other _ => true
  | _ => false

/-- Tell whether an argument usually follows symbols of a class at once. -/
def takesArgument : MathClass → Bool
  | textOperator => true
  | large => true
  | _ => false

end MathClass

/-- A record of the symbol table.  `latexName` is the LaTeX command with its
backslash, empty if there is none. -/
structure SymbolRecord where
  glyph : Text
  unicodeName : Text
  name : Text
  shorthand : Option Text
  mathClass : MathClass
  latexName : Text
deriving DecidableEq, Repr, Inhabited

end MathTyping
