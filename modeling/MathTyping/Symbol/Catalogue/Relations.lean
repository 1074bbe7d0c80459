import MathTyping.Symbol.Entry

/-!
# Relations

Relations, arrows among them.
-/

namespace MathTyping

namespace SymbolCatalogue

/-- Relations, arrows among them. -/
def relations : List SymbolRecord :=
  [entry .relation "approx" "≈" "\\approx"
      "Almost Equal To",
    entry .relation "arrow.b" "↓" "\\downarrow"
      "Downwards Arrow",
    entryShort .relation "arrow.l" "←" "<-" "\\leftarrow"
      "Leftwards Arrow",
    entryShort .relation "arrow.l.double" "⇐" "<==" "\\Leftarrow"
      "Leftwards Double Arrow",
    entryShort .relation "arrow.l.long" "⟵" "<--" "\\longleftarrow"
      "Long Leftwards Arrow",
    entryShort .relation "arrow.l.r" "↔" "<->" "\\leftrightarrow"
      "Left Right Arrow",
    entryShort .relation "arrow.l.r.double" "⇔" "<=>" "\\Leftrightarrow"
      "Left Right Double Arrow",
    entryShort .relation "arrow.r" "→" "->" "\\rightarrow"
      "Rightwards Arrow",
    entryShort .relation "arrow.r.bar" "↦" "|->" "\\mapsto"
      "Rightwards Arrow From Bar",
    entryShort .relation "arrow.r.double" "⇒" "=>" "\\Rightarrow"
      "Rightwards Double Arrow",
    entryShort .relation "arrow.r.double.long" "⟹" "==>" "\\Longrightarrow"
      "Long Rightwards Double Arrow",
    entry .relation "arrow.r.hook" "↪" "\\hookrightarrow"
      "Rightwards Arrow With Hook",
    entryShort .relation "arrow.r.long" "⟶" "-->" "\\longrightarrow"
      "Long Rightwards Arrow",
    entryShort .relation "arrow.r.squiggly" "⇝" "~>" "\\rightsquigarrow"
      "Rightwards Squiggle Arrow",
    entry .relation "arrow.t" "↑" "\\uparrow"
      "Upwards Arrow",
    entry .relation "arrow.t.b" "↕" "\\updownarrow"
      "Up Down Arrow",
    entry .relation "arrows.rr" "⇉" "\\rightrightarrows"
      "Rightwards Paired Arrows",
    entryShort .relation "colon.eq" "≔" ":=" "\\coloneqq"
      "Colon Equals",
    entry .relation "divides" "∣" "\\mid"
      "Divides",
    entry .relation "eq" "=" ""
      "Equals Sign",
    entryShort .relation "eq.colon" "≕" "=:" "\\eqqcolon"
      "Equals Colon",
    entry .relation "eq.def" "≝" "\\stackrel\x7b\\text\x7bdef\x7d\x7d\x7b=\x7d"
      "Equal To By Definition",
    entryShort .relation "eq.not" "≠" "!=" "\\neq"
      "Not Equal To",
    entry .relation "equiv" "≡" "\\equiv"
      "Identical To",
    entry .relation "equiv.not" "≢" "\\not\\equiv"
      "Not Identical To",
    entry .relation "gt" ">" ">"
      "Greater-Than Sign",
    entryShort .relation "gt.double" "≫" ">>" "\\gg"
      "Much Greater-Than",
    entryShort .relation "gt.eq" "≥" ">=" "\\geq"
      "Greater-Than Or Equal To",
    entryShort .relation "gt.triple" "⋙" ">>>" "\\ggg"
      "Very Much Greater-Than",
    entry .relation "harpoon.rt" "⇀" "\\rightharpoonup"
      "Rightwards Harpoon With Barb Upwards",
    entry .relation "in" "∈" "\\in"
      "Element Of",
    entry .relation "in.not" "∉" "\\notin"
      "Not An Element Of",
    entry .relation "in.rev" "∋" "\\ni"
      "Contains As Member",
    entry .relation "lt" "<" "<"
      "Less-Than Sign",
    entryShort .relation "lt.double" "≪" "<<" "\\ll"
      "Much Less-Than",
    entryShort .relation "lt.eq" "≤" "<=" "\\leq"
      "Less-Than Or Equal To",
    entryShort .relation "lt.triple" "⋘" "<<<" "\\lll"
      "Very Much Less-Than",
    entry .relation "models" "⊧" "\\models"
      "Models",
    entry .relation "parallel" "∥" "\\parallel"
      "Parallel To",
    entry .relation "perp" "⟂" "\\perp"
      "Perpendicular",
    entry .relation "prec" "≺" "\\prec"
      "Precedes",
    entry .relation "prec.eq" "⪯" "\\preceq"
      "Precedes Above Single-Line Equals Sign",
    entry .relation "prop" "∝" "\\propto"
      "Proportional To",
    entry .relation "subset" "⊂" "\\subset"
      "Subset Of",
    entry .relation "subset.eq" "⊆" "\\subseteq"
      "Subset Of Or Equal To",
    entry .relation "succ" "≻" "\\succ"
      "Succeeds",
    entry .relation "succ.eq" "⪰" "\\succeq"
      "Succeeds Above Single-Line Equals Sign",
    entry .relation "supset" "⊃" "\\supset"
      "Superset Of",
    entry .relation "supset.eq" "⊇" "\\supseteq"
      "Superset Of Or Equal To",
    entry .relation "tack.l" "⊣" "\\dashv"
      "Left Tack",
    entry .relation "tack.r" "⊢" "\\vdash"
      "Right Tack",
    entry .relation "tilde.eq" "≃" "\\simeq"
      "Asymptotically Equal To",
    entry .relation "tilde.equiv" "≅" "\\cong"
      "Approximately Equal To",
    entry .relation "tilde.op" "∼" "\\sim"
      "Tilde Operator"]

end SymbolCatalogue

end MathTyping
