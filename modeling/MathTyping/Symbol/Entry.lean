import MathTyping.Symbol

/-!
# Entries of the symbol catalogue

Short forms for writing down the records of the catalogue.
-/

namespace MathTyping

namespace SymbolCatalogue

/-- A record without a shorthand. -/
def entry (mathClass : MathClass) (name glyph latexName unicodeName : String) : SymbolRecord :=
  ⟨glyph.toList, unicodeName.toList, name.toList, none, mathClass, latexName.toList⟩

/-- A record with a shorthand. -/
def entryShort (mathClass : MathClass) (name glyph shorthand latexName unicodeName : String) :
    SymbolRecord :=
  ⟨glyph.toList, unicodeName.toList, name.toList, some shorthand.toList, mathClass,
    latexName.toList⟩

end SymbolCatalogue

end MathTyping
