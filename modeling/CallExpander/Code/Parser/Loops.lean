import CallExpander.Code.Parser.Variables

/-!
Loops.
-/

namespace CallExpander.Code

def loopBody (self : Rules) : P Node :=
  within (fun c => { c with allowsBreak := true, allowsContinue := true }) (self .statement)

def condition (self : Rules) : P Node := do
  expect "("
  let test ← freely self .expression
  expect ")"
  return test

/-! ## The head of a `for` loop -/

/-- The head of a `for` loop: what starts, goes on and counts, or what each round takes and where it
comes from. -/
inductive LoopHead where
  | counted (start test update : Node)
  | keys (target object : Node)
  | values (target iterated : Node)

def roundsHead (self : Rules) (target : Node) : P LoopHead := do
  if ← eatWord "of" then return .values target (← freely self .assignment)
  else
    advance
    match target.form with
    | .varDecl .using .. | .varDecl .awaitUsing .. => note target.span .usingInLoop
    | _ => pure ()
    return .keys target (← freely self .expression)

/-- The head of a loop that counts, from behind its first semicolon. -/
def countedHead (self : Rules) (start : Node) : P LoopHead := do
  let test ← (do
    if ← eat ";" then return Node.missing
    else
      let test ← freely self .expression
      expect ";"
      return test)
  let update ← (do if ← isSign ")" then return Node.missing else freely self .expression)
  return .counted start test update

/-- Notes what a declaration in the head of a loop over keys or values cannot have: more than one
variable, a value, a type. -/
def checkLoopVariables (decl : Node) : P Unit := do
  match decl.parts with
  | [.mk _ _ [target, value]] =>
    if ((← context).isStrict || (← isWord "of")) && !value.isAbsent then
      note (patternSpan target) .loopInitializer
    if target.form matches .annotated _ then note (patternSpan target) .loopTyped
  | parts =>
    (parts.drop 1).forM fun one =>
      match one.parts with
      | target :: _ => note (patternSpan target) .oneVariable
      | [] => pure ()

/-- Whether the word `using`, which was read as an expression, declares the next name as a resource
of each round; and if so, how. -/
def usingKind? (start : Node) : P (Option VarKind) := do
  let kind := match start with
    | .mk (.ident "using" _) _ _ => some VarKind.using
    | .mk .await _ [.mk (.ident "using" _) _ _] => some VarKind.awaitUsing
    | _ => none
  if (← hasTypes) && kind.isSome && !(← isWord "of") then
    let next ← peekToken
    return if next.1 == .word "of" || next.1 == .word "in" then kind else none
  else return none

/-- An expression in the head of a loop as the target of each round. -/
def roundTarget (start : Node) : P Node := do
  let isKeys ← isWord "in"
  let target ← toTarget start
  if isKeys && (← hasTypes) then
    match target.form with
    | .arrayPattern | .objectPattern | .patternDefault | .absent => note target.span .loopPattern
    | _ => pure ()
  return target

def expressionHead (self : Rules) : P LoopHead := do
  let lo ← position
  let start ← within (fun c => { c with includesIn := false }) (self .expression)
  match ← usingKind? start with
  | some kind =>
    let name ← bindingNode
    let one ← node lo .declarator [name, Node.missing]
    let decl ← node lo (.varDecl kind false true) [one]
    let _ ← required
    roundsHead self decl
  | none =>
    if ← isOneOfWords ["of", "in"] then
      let target ← roundTarget start
      roundsHead self target
    else
      expect ";"
      noteStrayDefaults start
      countedHead self start

def loopHead (self : Rules) : P LoopHead := do
  match ← varKindHere with
  | some kind =>
    let decl ← varDeclaration self kind true
    if ← isOneOfWords ["of", "in"] then
      checkLoopVariables decl
      roundsHead self decl
    else
      expect ";"
      countedHead self decl
  | none => if ← eat ";" then countedHead self Node.missing else expressionHead self

/-! ## Loops -/

/-- A `for` loop. Only one over values can await them. -/
def forStatement (self : Rules) : P Node := do
  let lo ← position
  advance
  let isAwait ← eatWord "await"
  let word ← lastSpan
  expect "("
  let head ← within (fun c => { c with inLoopHead := true, inAwaitLoopHead := isAwait })
    (loopHead self)
  expect ")"
  let body ← loopBody self
  match head with
  | .values target iterated => node lo (.forOf isAwait) [target, iterated, body]
  | .keys target object =>
    if isAwait then failAt word .awaitLoop
    node lo .forIn [target, object, body]
  | .counted start test update =>
    if isAwait then failAt word .awaitLoop
    node lo .forStmt [start, test, update, body]

def whileStatement (self : Rules) : P Node := do
  let lo ← position
  advance
  let test ← condition self
  let body ← loopBody self
  node lo .whileStmt [test, body]

def doStatement (self : Rules) : P Node := do
  let lo ← position
  advance
  let body ← loopBody self
  expectWord "while"
  let test ← condition self
  let _ ← eatSemicolon
  node lo .doWhile [test, body]

end CallExpander.Code
