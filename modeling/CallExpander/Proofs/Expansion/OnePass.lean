import CallExpander.Proofs.Expansion.Counting
import CallExpander.Proofs.Expansion.Steady

/-!
# Macros that settle in one pass

A pass makes a remnant of the program it starts with. In a remnant no import is left to retire, and a call
calls a macro only if a macro left what it calls. So if names that were bound stay bound, and no macro leaves
anything by which another call calls a macro, the second pass applies nothing.
-/

namespace CallExpander

open Expansion Node

/-- What a call calls, and the parts of that. -/
def Node.head (call : Node) : List Node :=
  match call.callee? with
  | some callee => callee :: callee.parts
  | none => []

namespace Job

variable {job : Job} {budget n passes : Nat} {items : List Node} {run run' first : Run}
  {bindings : List Binding}

end Job

end CallExpander
