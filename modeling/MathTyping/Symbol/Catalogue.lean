import MathTyping.Symbol.Index
import MathTyping.Symbol.Catalogue.Letters
import MathTyping.Symbol.Catalogue.Relations
import MathTyping.Symbol.Catalogue.Operators
import MathTyping.Symbol.Catalogue.Marks

/-!
# The symbol catalogue

The symbols that are known without any configuration, and their index.
-/

namespace MathTyping

namespace SymbolCatalogue

/-- All symbols of the catalogue. -/
def symbols : List SymbolRecord := letters ++ relations ++ operators ++ marks

/-- The catalogue, indexed. -/
def index : SymbolIndex := SymbolIndex.ofSymbols symbols

end SymbolCatalogue

end MathTyping
