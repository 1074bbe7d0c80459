import MathTyping.Snippet.Expand

/-!
# Hosts without scripts
-/

namespace MathTyping

/-- The evaluator of a host that cannot run scripts. -/
def noScripts : Evaluator := fun _ _ =>
  .error (.message ⟨"evaluate".toList, []⟩ "scripts are not supported by this editor".toList)

end MathTyping
