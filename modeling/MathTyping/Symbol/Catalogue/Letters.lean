import MathTyping.Symbol.Entry

/-!
# Letters

Letters of the Greek alphabet, double-struck capitals and other letters.
-/

namespace MathTyping

namespace SymbolCatalogue

/-- Letters of the Greek alphabet, double-struck capitals and other letters. -/
def letters : List SymbolRecord :=
  [entry .alphabetic "CC" "ℂ" "\\mathbb\x7bC\x7d"
      "Double-Struck Capital C",
    entry .alphabetic "Delta" "Δ" "\\Delta"
      "Greek Capital Letter Delta",
    entry .alphabetic "Gamma" "Γ" "\\Gamma"
      "Greek Capital Letter Gamma",
    entry .alphabetic "Lambda" "Λ" "\\Lambda"
      "Greek Capital Letter Lamda",
    entry .alphabetic "NN" "ℕ" "\\mathbb\x7bN\x7d"
      "Double-Struck Capital N",
    entry .alphabetic "Omega" "Ω" "\\Omega"
      "Greek Capital Letter Omega",
    entry .alphabetic "Phi" "Φ" "\\Phi"
      "Greek Capital Letter Phi",
    entry .alphabetic "Pi" "Π" "\\Pi"
      "Greek Capital Letter Pi",
    entry .alphabetic "Psi" "Ψ" "\\Psi"
      "Greek Capital Letter Psi",
    entry .alphabetic "QQ" "ℚ" "\\mathbb\x7bQ\x7d"
      "Double-Struck Capital Q",
    entry .alphabetic "RR" "ℝ" "\\mathbb\x7bR\x7d"
      "Double-Struck Capital R",
    entry .alphabetic "Sigma" "Σ" "\\Sigma"
      "Greek Capital Letter Sigma",
    entry .alphabetic "Theta" "Θ" "\\Theta"
      "Greek Capital Letter Theta",
    entry .alphabetic "Upsilon" "Υ" "\\Upsilon"
      "Greek Capital Letter Upsilon",
    entry .alphabetic "Xi" "Ξ" "\\Xi"
      "Greek Capital Letter Xi",
    entry .alphabetic "ZZ" "ℤ" "\\mathbb\x7bZ\x7d"
      "Double-Struck Capital Z",
    entry .alphabetic "aleph" "א" "\\aleph"
      "Alef Symbol",
    entry .alphabetic "alpha" "α" "\\alpha"
      "Greek Small Letter Alpha",
    entry .alphabetic "beta" "β" "\\beta"
      "Greek Small Letter Beta",
    entry .alphabetic "chi" "χ" "\\chi"
      "Greek Small Letter Chi",
    entry .alphabetic "delta" "δ" "\\delta"
      "Greek Small Letter Delta",
    entry .alphabetic "ell" "ℓ" "\\ell"
      "Script Small L",
    entry .alphabetic "epsilon" "ε" "\\varepsilon"
      "Greek Small Letter Epsilon",
    entry .alphabetic "epsilon.alt" "ϵ" "\\epsilon"
      "Greek Lunate Epsilon Symbol",
    entry .alphabetic "eta" "η" "\\eta"
      "Greek Small Letter Eta",
    entry .alphabetic "gamma" "γ" "\\gamma"
      "Greek Small Letter Gamma",
    entry .alphabetic "iota" "ι" "\\iota"
      "Greek Small Letter Iota",
    entry .alphabetic "kappa" "κ" "\\kappa"
      "Greek Small Letter Kappa",
    entry .alphabetic "lambda" "λ" "\\lambda"
      "Greek Small Letter Lamda",
    entry .alphabetic "mu" "μ" "\\mu"
      "Greek Small Letter Mu",
    entry .alphabetic "nu" "ν" "\\nu"
      "Greek Small Letter Nu",
    entry .alphabetic "omega" "ω" "\\omega"
      "Greek Small Letter Omega",
    entry .alphabetic "omicron" "ο" ""
      "Greek Small Letter Omicron",
    entry .alphabetic "phi" "φ" "\\varphi"
      "Greek Small Letter Phi",
    entry .alphabetic "phi.alt" "ϕ" "\\phi"
      "Greek Phi Symbol",
    entry .alphabetic "pi" "π" "\\pi"
      "Greek Small Letter Pi",
    entry .alphabetic "pi.alt" "ϖ" "\\varpi"
      "Greek Pi Symbol",
    entry .alphabetic "planck.reduce" "ℏ" "\\hbar"
      "Planck Constant Over Two Pi",
    entry .alphabetic "psi" "ψ" "\\psi"
      "Greek Small Letter Psi",
    entry .alphabetic "rho" "ρ" "\\rho"
      "Greek Small Letter Rho",
    entry .alphabetic "rho.alt" "ϱ" "\\varrho"
      "Greek Rho Symbol",
    entry .alphabetic "sigma" "σ" "\\sigma"
      "Greek Small Letter Sigma",
    entry .alphabetic "sigma.alt" "ς" "\\varsigma"
      "Greek Small Letter Final Sigma",
    entry .alphabetic "tau" "τ" "\\tau"
      "Greek Small Letter Tau",
    entry .alphabetic "theta" "θ" "\\theta"
      "Greek Small Letter Theta",
    entry .alphabetic "theta.alt" "ϑ" "\\vartheta"
      "Greek Theta Symbol",
    entry .alphabetic "upsilon" "υ" "\\upsilon"
      "Greek Small Letter Upsilon",
    entry .alphabetic "xi" "ξ" "\\xi"
      "Greek Small Letter Xi",
    entry .alphabetic "zeta" "ζ" "\\zeta"
      "Greek Small Letter Zeta"]

end SymbolCatalogue

end MathTyping
