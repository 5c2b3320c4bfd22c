import CallExpander.Code.Parser.Operands

/-!
Expressions that bind less tightly than operators: assignments, conditions, `yield` and sequences.
-/

namespace CallExpander.Code

/-- Whether the value of a `yield` is left out. -/
def isBareYield : P Bool := do
  if ← isStatementEnd then return true
  else if ← isOneOf ["*", "/", "/="] then return false
  else return !(← current).startsExpression

/-- A `yield`, which the parameters of a generator cannot hold. -/
def yieldExpression (self : Rules) : P Node := do
  let lo ← position
  advance
  let ctx ← context
  if ctx.inParameters && !ctx.inFunction then failAt (← lastSpan) .yieldInParameters
  if ← isBareYield then node lo (.yield false) [Node.missing]
  else
    let isDelegate ← eat "*"
    let inner ← self .assignment
    node lo (.yield isDelegate) [inner]

/-- Whether nothing can be assigned to an expression, because of the operators in it. -/
def isOperation (n : Node) : Bool :=
  match n.form with
  | .arrow _ | .conditional | .binary _ | .unary _ | .update .. => true
  | _ => false

def startsArrow : Token → Bool
  | .word text => !isKeyword text || text == "yield"
  | token => token == .punct "("

/-- An expression without commas, without type parameters before it. -/
def assignmentBase (self : Rules) : P Node := do
  if (← context).inGenerator && (← isWord "yield") then yieldExpression self
  else
    let lo ← position
    let token ← required
    let test ← within (fun c => { c with arrowStart := if startsArrow token then some lo else none })
      (self .binary)
    if isArrow test then return test
    else
      let whole ← (do if ← isSign "?" then conditionalTail self lo test else return test)
      if isOperation whole then return whole else assignmentTail self lo whole

/-- An arrow function that starts with type parameters, if one starts here. -/
def genericArrow? (self : Rules) : P (Option Node) :=
  within (fun c => { c with awaitsColon := false }) <| attempt do
    let typeParams ← typeParameters self
    let arrow ← assignmentBase self
    match arrow.form, arrow.parts with
    | .arrow isAsync, [params, body, _, result] =>
      let span : Span := ⟨typeParams.start, arrow.span.hi⟩
      return some (.mk (.arrow isAsync) (.file span) [params, body, typeParams, result])
    | _, _ => return none

/-- An expression without commas. Where types can be written, an angle bracket may start markup, type
parameters or a type assertion. -/
def assignment (self : Rules) : P Node := do
  if (← hasTypes) && (← isSign "<") then
    let element ← (do
      if ← startsMarkup then attempt do return some (← assignmentBase self) else return none)
    match element with
    | some n => return n
    | none =>
      let generic ← (do
        if (← peekToken).1.isWord then genericArrow? self else return none)
      match generic with
      | some n => return n
      | none => assignmentBase self
  else assignmentBase self

def expression (self : Rules) : P Node := do
  let first ← self .assignment
  let more ← gather do
    if ← eat "," then return some (← self .assignment) else return none
  if more.isEmpty then return first else node first.start .sequence (first :: more)

end CallExpander.Code
