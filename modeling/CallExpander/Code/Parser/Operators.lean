import CallExpander.Code.Parser.Subscripts

/-!
Operators before, behind and between their operands.
-/

namespace CallExpander.Code

/-! ## Operators between operands -/

/-- How tightly the words that compare bind. -/
def comparisonPower : Nat := 7

def operatorHere : P (Option (String × Nat)) := do
  match ← current with
  | .punct sign => return binaryOperators.find? fun op => op.1 == sign
  | .word "instanceof" => return some ("instanceof", comparisonPower)
  | .word "in" => return if (← context).includesIn then some ("in", comparisonPower) else none
  | _ => return none

/-- Whether an expression is a logical operation other than the nullish one. -/
def isLogical (n : Node) : Bool :=
  match n.form with
  | .binary op => op == "&&" || op == "||"
  | _ => false

/-- Notes operands that need parentheses between two kinds of logical operations. -/
def checkMix (op : String) (left right whole : Node) : P Unit := do
  if op == "??" then
    if isLogical left then note left.span .nullishMix
    if isLogical right then note right.span .nullishMix
  else if isLogical whole && (left.form matches .binary "??") then note whole.span .nullishMix

def typeBehindWord (self : Rules) : P Node := do
  let type ← typed do
    advance
    anyType self
  rereadBracket
  return type

/-- An expression with a claim about its type behind it, if there is one. -/
def typeClaim (self : Rules) (inner : Node) : P (Option Node) := do
  if ← isWord "as" then
    if ← peekWord "const" then
      advance
      advance
      return some (← node inner.start .asConst [inner])
    else
      let type ← typeBehindWord self
      return some (← node inner.start .asType [inner, type])
  else if ← isWord "satisfies" then
    let type ← typeBehindWord self
    return some (← node inner.start .satisfies [inner, type])
  else return none

/-- Whether an expression has a word or a sign before it that a power cannot have. -/
def isPrefixed (n : Node) : Bool :=
  match n.form with
  | .unary _ | .await => true
  | _ => false

/-- An operation with the operator that is at hand, where `right` reads what binds more tightly. -/
def operation (self : Rules) (op : String) (left : Node) (right : Node → P Node) : P Node := do
  advance
  if op == "**" && isPrefixed left then failAt (← spanHere) .powerOfUnary
  let first ← self .unary
  let second ← right first
  let whole := Node.mk (.binary op) (.file ⟨left.start, second.span.hi⟩) [left, second]
  checkMix op left second whole
  return whole

/-- What follows an operand: operators that bind more tightly than `least`. -/
def operatorsUpTo (self : Rules) : Nat → Nat → Node → P Node
  | 0, _, left => return left
  | fuel + 1, least, left => do
    let claim ← (do
      if (← hasTypes) && least < comparisonPower && !(← afterLineBreak) then typeClaim self left
      else return none)
    match claim with
    | some n => operatorsUpTo self fuel least n
    | none =>
      match ← operatorHere with
      | none => return left
      | some (op, power) =>
        if power ≤ least then return left
        else
          let n ← operation self op left
            (operatorsUpTo self fuel (if op == "**" then power - 1 else power))
          operatorsUpTo self fuel least n

def operators (self : Rules) (left : Node) : P Node := do
  operatorsUpTo self (← budget) 0 left

/-- Whether an expression is an arrow function, which nothing follows. -/
def isArrow (n : Node) : Bool := n.form matches .arrow _

/-- Operands and the operators between them. Where an operand is missing before an operator, that is
noted and the operator is read all the same. -/
def binary (self : Rules) : P Node := do
  let left ← tryCatch (self .unary) fun fault => do
    let token ← required
    let isOperator := match token with
      | .word text => text == "in" || text == "instanceof"
      | token => token.isBinaryOperator
    if isOperator && (token != .word "in" || (← context).includesIn) then
      note (← spanHere) .expressionExpected
      return invalidNode fault.span
    else throw fault
  if isArrow left then return left else operators self left

/-! ## Operators before and behind an operand -/

/-- A type in angle brackets before an expression, from behind the first bracket. -/
def assertion (self : Rules) (lo : Nat) : P Node := do
  if ← eatWord "const" then
    expect ">"
    let inner ← self .unary
    node lo .asConst [inner]
  else
    let type ← anyType self
    expect ">"
    let inner ← self .unary
    node lo .typeAssertion [inner, type]

def peeled : Node → Node
  | .mk .paren _ [inner] => peeled inner
  | n => n

def isProperty (n : Node) : Bool :=
  match n.form, n.parts with
  | .member, object :: _ | .index, object :: _ => !isSuper object
  | .optMember _, _ | .optIndex _, _ => true
  | _, _ => false

/-- Notes an operand that cannot be deleted. -/
def checkDeleted (inner : Node) : P Unit := do
  if inner.form matches .ident .. then noteStrict inner.span .deleteName
  let inner := peeled inner
  if (← hasTypes) && !isProperty inner then note inner.span .deleteOperand

/-- An operator and its operand. A fault in the operand is noted, and reading goes on. -/
def prefixed (self : Rules) (lo : Nat) (op : String) : P Node := do
  advance
  let spot := (← position) - 1
  let inner ← tryCatch (self .unary) fun fault => do
    note fault.span fault.problem
    return invalidNode ⟨spot, spot⟩
  if op == "delete" then checkDeleted inner
  return .mk (.unary op) (.file ⟨lo, inner.span.hi⟩) [inner]

/-- An expression that is waited for, from behind its word. Outside asynchronous functions the word
may be a name. -/
def awaited (self : Rules) (lo : Nat) : P Node := do
  if ← isSign "*" then failHere .awaitStar
  let ctx ← context
  let word ← lastSpan
  if !ctx.inAsync && ((← isOneOf [")", "]", ","]) || (← isStatementEnd)) then
    if ctx.isModule then note word .awaitAsName
    node lo (.ident "await" false)
  else
    if ctx.inFunction && !ctx.inAsync then noteHere .awaitOutside
    if ctx.inParameters && !ctx.inFunction then note word .awaitInParameters
    let inner ← self .unary
    node lo .await [inner]

/-- An expression, with a sign behind it that changes it. -/
def postfixed (self : Rules) : P Node := do
  let inner ← self .tight
  if isArrow inner then return inner
  else if ← afterLineBreak then return inner
  else
    match ← current with
    | .punct sign =>
      if sign == "++" || sign == "--" then
        checkPlace true inner
        advance
        node inner.start (.update sign false) [inner]
      else return inner
    | _ => return inner

def unary (self : Rules) : P Node := do
  let lo ← position
  match ← current with
  | .punct sign =>
    if sign == "<" && (← hasTypes) && !(← hasMarkup) then
      advance
      assertion self lo
    else if sign == "++" || sign == "--" then
      advance
      let inner ← self .unary
      checkPlace true inner
      return .mk (.update sign true) (.file ⟨lo, inner.span.hi⟩) [inner]
    else if ["+", "-", "~", "!"].contains sign then prefixed self lo sign
    else postfixed self
  | .word text =>
    if ["delete", "void", "typeof"].contains text then prefixed self lo text
    else if text == "await" then
      advance
      awaited self lo
    else postfixed self
  | _ => postfixed self

end CallExpander.Code
