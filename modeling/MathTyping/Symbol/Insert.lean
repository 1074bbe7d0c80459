import MathTyping.Symbol.Index
import MathTyping.Query
import MathTyping.Edit

/-!
# Inserting symbols

Applying a symbol replaces the query by its glyph or its name, with a space
behind it unless an argument usually follows.  Completing one replaces the query
by the full name, or applies the symbol when the name is already there.
-/

namespace MathTyping

namespace SymbolRecord

/-- The text that applying a symbol inserts. -/
def inserted (s : SymbolRecord) (unicode : Bool) : Text :=
  let body := if unicode then s.glyph else s.name
  if s.mathClass.takesArgument then body else body ++ [' ']

/-- Replace a query, up to the cursor, by a symbol. -/
def apply (s : SymbolRecord) (q : Query) (cursor : Position) (unicode : Bool) : Splice :=
  .replacing ⟨⟨q.start, cursor⟩, s.inserted unicode⟩

/-- Replace a query by the name of a symbol, or apply the symbol when its name is
already there. -/
def complete (s : SymbolRecord) (q : Query) (cursor : Position) (unicode : Bool) : Splice :=
  if s.name = q.word then s.apply q cursor unicode
  else .replacing ⟨q.range, s.name⟩

end SymbolRecord

namespace SymbolMatch

/-- The label in the popup: glyph, name in the language of the query, class. -/
def label (m : SymbolMatch) (latex : Bool) : Text :=
  m.symbol.glyph ++ ": ".toList ++ (if latex then m.symbol.latexName else m.symbol.name) ++
    " (".toList ++ m.symbol.mathClass.name ++ [')']

end SymbolMatch

end MathTyping
