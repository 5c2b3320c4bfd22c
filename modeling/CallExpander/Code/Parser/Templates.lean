import CallExpander.Code.Parser.Basic

/-!
Templates. The text between two holes is no token of its own kind that could be told in advance, and
so it is read from the place behind the sign before it.
-/

namespace CallExpander.Code

/-- A stretch of template text, from behind the sign before it. An escape that means nothing stops
the parser, unless the template has a tag. -/
def templateText (start : Nat) (isTagged : Bool) : P (Quasi × TemplateEnd) := do
  let s ← get
  match readTemplate s.rest with
  | none =>
    let stop := s.rest.atEnd
    set { s with rest := stop, before := .templateText, cur := none, last := s.rest.spanTo stop }
    throw ⟨.openTemplate, ⟨start, stop.pos⟩⟩
  | some (text, q) =>
    let token := match text.stop with
      | .closed => Token.punct "`"
      | .hole => Token.punct "$\x7b"
    set { s with rest := q, before := token, cur := none, last := s.rest.spanTo q }
    match text.fault with
    | some fault => if isTagged then return (text.quasi, text.stop) else throw fault
    | none => return (text.quasi, text.stop)

def templateParts (isTagged : Bool) (hole : P Node) : P (List Quasi × List Node) := do
  let start ← position
  advance
  let (first, stop) ← templateText start isTagged
  let found ← growUpTo (fun (read : List (Node × Quasi) × TemplateEnd) => do
    match read.2 with
    | .closed => return none
    | .hole =>
      let inner ← hole
      expect "\x7d"
      let (quasi, stop) ← templateText start isTagged
      return some ((inner, quasi) :: read.1, stop)) (← budget) ([], stop)
  let pairs := found.1.reverse
  return (first :: pairs.map (·.2), pairs.map (·.1))

end CallExpander.Code
