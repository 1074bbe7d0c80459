import MathTyping.Symbol.Entry

/-!
# Operators

Binary operators, large operators and operators written as words.
-/

namespace MathTyping

namespace SymbolCatalogue

/-- Binary operators, large operators and operators written as words. -/
def operators : List SymbolRecord :=
  [entry .textOperator "Dif" "Dif" ""
      "",
    entry .textOperator "Pr" "Pr" ""
      "",
    entry .binary "and" "∧" "\\wedge"
      "Logical And",
    entry .large "and.big" "⋀" "\\bigwedge"
      "N-Ary Logical And",
    entry .textOperator "arccos" "arccos" ""
      "",
    entry .textOperator "arcsin" "arcsin" ""
      "",
    entry .textOperator "arctan" "arctan" ""
      "",
    entry .textOperator "arg" "arg" ""
      "",
    entry .binary "ast.op" "∗" "\\ast"
      "Asterisk Operator",
    entry .binary "circle.small" "∘" "\\circ"
      "Ring Operator",
    entry .textOperator "cos" "cos" ""
      "",
    entry .textOperator "cosh" "cosh" ""
      "",
    entry .textOperator "cot" "cot" ""
      "",
    entry .textOperator "coth" "coth" ""
      "",
    entry .textOperator "csc" "csc" ""
      "",
    entry .textOperator "csch" "csch" ""
      "",
    entry .textOperator "ctg" "ctg" ""
      "",
    entry .textOperator "deg" "deg" ""
      "",
    entry .textOperator "det" "det" ""
      "",
    entry .textOperator "dif" "dif" ""
      "",
    entry .textOperator "dim" "dim" ""
      "",
    entry .binary "div" "÷" "\\div"
      "Division Sign",
    entry .binary "dot.circle" "⊙" "\\odot"
      "Circled Dot Operator",
    entry .binary "dot.op" "⋅" "\\cdot"
      "Dot Operator",
    entry .textOperator "exp" "exp" ""
      "",
    entry .textOperator "gcd" "gcd" ""
      "",
    entry .textOperator "hom" "hom" ""
      "",
    entry .textOperator "id" "id" ""
      "",
    entry .textOperator "im" "im" ""
      "",
    entry .textOperator "inf" "inf" ""
      "",
    entry .large "integral" "∫" "\\int"
      "Integral",
    entry .large "integral.cont" "∮" "\\oint"
      "Contour Integral",
    entry .large "integral.double" "∬" "\\iint"
      "Double Integral",
    entry .large "integral.triple" "∭" "\\iiint"
      "Triple Integral",
    entry .textOperator "ker" "ker" ""
      "",
    entry .textOperator "lcm" "lcm" ""
      "",
    entry .textOperator "lg" "lg" ""
      "",
    entry .textOperator "lim" "lim" ""
      "",
    entry .textOperator "liminf" "liminf" ""
      "",
    entry .textOperator "limsup" "limsup" ""
      "",
    entry .textOperator "ln" "ln" ""
      "",
    entry .textOperator "log" "log" ""
      "",
    entry .textOperator "max" "max" ""
      "",
    entry .textOperator "min" "min" ""
      "",
    entry .binary "minus" "−" ""
      "Minus Sign",
    entry .binary "minus.circle" "⊖" "\\ominus"
      "Circled Minus",
    entry .binary "minus.plus" "∓" "\\mp"
      "Minus-Or-Plus Sign",
    entry .textOperator "mod" "mod" ""
      "",
    entry .binary "or" "∨" "\\vee"
      "Logical Or",
    entry .large "or.big" "⋁" "\\bigvee"
      "N-Ary Logical Or",
    entry .binary "plus" "+" ""
      "Plus Sign",
    entry .binary "plus.circle" "⊕" "\\oplus"
      "Circled Plus",
    entry .large "plus.circle.big" "⨁" "\\bigoplus"
      "N-Ary Circled Plus Operator",
    entry .binary "plus.minus" "±" "\\pm"
      "Plus-Minus Sign",
    entry .large "product" "∏" "\\prod"
      "N-Ary Product",
    entry .large "product.co" "∐" "\\coprod"
      "N-Ary Coproduct",
    entry .textOperator "sec" "sec" ""
      "",
    entry .textOperator "sech" "sech" ""
      "",
    entry .binary "sect" "∩" "\\cap"
      "Intersection",
    entry .large "sect.big" "⋂" "\\bigcap"
      "N-Ary Intersection",
    entry .textOperator "sin" "sin" ""
      "",
    entry .textOperator "sinc" "sinc" ""
      "",
    entry .textOperator "sinh" "sinh" ""
      "",
    entry .binary "star.op" "⋆" "\\star"
      "Star Operator",
    entry .large "sum" "∑" "\\sum"
      "N-Ary Summation",
    entry .textOperator "sup" "sup" ""
      "",
    entry .textOperator "tan" "tan" ""
      "",
    entry .textOperator "tanh" "tanh" ""
      "",
    entry .textOperator "tg" "tg" ""
      "",
    entry .binary "times" "×" "\\times"
      "Multiplication Sign",
    entry .binary "times.circle" "⊗" "\\otimes"
      "Circled Times",
    entry .large "times.circle.big" "⨂" "\\bigotimes"
      "N-Ary Circled Times Operator",
    entry .textOperator "tr" "tr" ""
      "",
    entry .binary "union" "∪" "\\cup"
      "Union",
    entry .large "union.big" "⋃" "\\bigcup"
      "N-Ary Union",
    entry .binary "without" "∖" "\\setminus"
      "Set Minus",
    entry .binary "wreath" "≀" "\\wr"
      "Wreath Product"]

end SymbolCatalogue

end MathTyping
