import MathTyping.Symbol.Entry

/-!
# Marks

Delimiters, punctuation and ordinary marks.
-/

namespace MathTyping

namespace SymbolCatalogue

/-- Delimiters, punctuation and ordinary marks. -/
def marks : List SymbolRecord :=
  [entry .normal "angle" "∠" "\\angle"
      "Angle",
    entry .opening "angle.l" "⟨" "\\langle"
      "Mathematical Left Angle Bracket",
    entry .closing "angle.r" "⟩" "\\rangle"
      "Mathematical Right Angle Bracket",
    entry .fence "bar.v" "|" "|"
      "Vertical Line",
    entryShort .fence "bar.v.double" "‖" "||" "\\|"
      "Double Vertical Line",
    entry .normal "because" "∵" "\\because"
      "Because",
    entry .normal "bot" "⊥" "\\bot"
      "Up Tack",
    entry .opening "brace.l" "\x7b" "\\\x7b"
      "Left Curly Bracket",
    entry .closing "brace.r" "\x7d" "\\\x7d"
      "Right Curly Bracket",
    entry .opening "bracket.l" "[" "["
      "Left Square Bracket",
    entry .closing "bracket.r" "]" "]"
      "Right Square Bracket",
    entry .opening "ceil.l" "⌈" "\\lceil"
      "Left Ceiling",
    entry .closing "ceil.r" "⌉" "\\rceil"
      "Right Ceiling",
    entry .punctuation "colon" ":" ":"
      "Colon",
    entry .punctuation "comma" "," ","
      "Comma",
    entry .normal "degree" "°" "^\\circ"
      "Degree Sign",
    entry .normal "dots.down" "⋱" "\\ddots"
      "Down Right Diagonal Ellipsis",
    entryShort .normal "dots.h" "…" "..." "\\ldots"
      "Horizontal Ellipsis",
    entry .normal "dots.h.c" "⋯" "\\cdots"
      "Midline Horizontal Ellipsis",
    entry .normal "dots.v" "⋮" "\\vdots"
      "Vertical Ellipsis",
    entry .normal "emptyset" "∅" "\\emptyset"
      "Empty Set",
    entry .normal "exists" "∃" "\\exists"
      "There Exists",
    entry .normal "exists.not" "∄" "\\nexists"
      "There Does Not Exist",
    entry .opening "floor.l" "⌊" "\\lfloor"
      "Left Floor",
    entry .closing "floor.r" "⌋" "\\rfloor"
      "Right Floor",
    entry .normal "forall" "∀" "\\forall"
      "For All",
    entry .normal "infinity" "∞" "\\infty"
      "Infinity",
    entry .normal "nabla" "∇" "\\nabla"
      "Nabla",
    entry .normal "not" "¬" "\\neg"
      "Not Sign",
    entry .opening "paren.l" "(" "("
      "Left Parenthesis",
    entry .closing "paren.r" ")" ")"
      "Right Parenthesis",
    entry .normal "partial" "∂" "\\partial"
      "Partial Differential",
    entryShort .normal "prime" "′" "'" "\\prime"
      "Prime",
    entry .normal "prime.double" "″" "\\dprime"
      "Double Prime",
    entry .normal "qed" "∎" "\\blacksquare"
      "End Of Proof",
    entry .punctuation "semi" ";" ";"
      "Semicolon",
    entry .normal "therefore" "∴" "\\therefore"
      "Therefore",
    entry .normal "top" "⊤" "\\top"
      "Down Tack"]

end SymbolCatalogue

end MathTyping
