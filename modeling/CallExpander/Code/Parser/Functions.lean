import CallExpander.Code.Parser.Types

/-!
Blocks, and functions from their parameters on.
-/

namespace CallExpander.Code

/-! ## Blocks -/

def isStrictDirective (n : Node) : Bool :=
  match n with
  | .mk .exprStmt _ [.mk (.str literal) _ _] =>
    literal.raw == some "\"use strict\"" || literal.raw == some "'use strict'"
  | _ => false

/-- What has been read of a list of statements, the last one first. -/
structure Statements where
  found : List Node := []
  isStrict : Bool := false
  isOver : Bool := false

/-- The next statement of a list. A directive that makes the code strict counts only as the first
one. A text that ends before a closing brace is noted. -/
def nextStatement (one : P Node) (isBraced hasDirective : Bool) (read : Statements) :
    P (Option Statements) := do
  if read.isOver then return none
  else if ← atEnd then
    if isBraced then noteHere (.expected "\x7d" "<eof>")
    return none
  else if isBraced && (← isSign "\x7d") then
    advance
    return some { read with isOver := true }
  else
    let n ← within (fun c => { c with isStrict := c.isStrict || read.isStrict }) one
    let isStrict := read.isStrict || (hasDirective && read.found.isEmpty && isStrictDirective n)
    return some { found := n :: read.found, isStrict }

/-- Statements up to and with a closing brace, or up to the end of the text. -/
def statements (one : P Node) (isBraced hasDirective : Bool) : P (List Node) :=
  return (← grow (nextStatement one isBraced hasDirective) {}).found.reverse

def bracedStatements (one : P Node) (hasDirective : Bool := false) : P (List Node) := do
  expect "\x7b"
  statements one true hasDirective

def block (self : Rules) : P Node := do
  let lo ← position
  let found ← bracedStatements (self .declaration)
  node lo .block found

/-! ## Bodies -/

def Context.enterBody (isAsync isGenerator isArrow : Bool) (c : Context) : Context :=
  { c with
    inFunction := true, inAsync := isAsync, inGenerator := isGenerator
    inPlainFunction := c.inPlainFunction || !isArrow
    inStaticBlock := false, allowsBreak := false, allowsContinue := false, labels := []
    awaitsColon := false, arrowStart := none, inLoopHead := false, inAwaitLoopHead := false }

/-- Notes a body where only a declaration can stand. -/
def noteBody : P Unit := do
  if (← context).inDeclare && (← hasTypes) && (← isSign "\x7b") then noteHere .bodyInDeclaration

/-- The statements of a body. Code cannot be made strict behind parameters that are no plain names. -/
def bodyBlock (self : Rules) (isSimple : Bool) : P Node := do
  let lo ← position
  let found ← within (fun c => { c with includesIn := true })
    (bracedStatements (self .declaration) true)
  let body ← node lo .body found
  match found with
  | first :: _ => if !isSimple && isStrictDirective first then note first.span .strictDirective
  | [] => pure ()
  return body

/-- The body of a function. Where types can be written it may be missing. -/
def functionBody (self : Rules) (isAsync isGenerator isSimple : Bool) : P Node := do
  noteBody
  within (Context.enterBody isAsync isGenerator false) do
    if ← hasTypes <&&> notM (isSign "\x7b") <&&> eatSemicolon then return Node.missing
    else bodyBlock self isSimple

def arrowBody (self : Rules) (isAsync isSimple : Bool) : P Node := do
  noteBody
  within (Context.enterBody isAsync false true) do
    if ← isSign "\x7b" then bodyBlock self isSimple else self .assignment

/-! ## Functions -/

def parametersOf (isAsync isGenerator : Bool) (params : P (List Node)) : P (List Node) := do
  expect "("
  let found ← within (fun c => { c with
    inParameters := true, inFunction := false, inAsync := isAsync, inGenerator := isGenerator
    includesIn := true, awaitsColon := false }) params
  expect ")"
  return found

/-- Notes default values of parameters where there is no body to use them. -/
def noteDefaults (params : List Node) (body : Node) : P Unit := do
  if (← hasTypes) && body.isAbsent then
    params.forM fun param =>
      match param.form, param.parts with
      | .patternDefault, _ => note param.span .defaultWithoutBody
      | .parameterProperty _, [inner] =>
        match inner.form with
        | .patternDefault => note inner.span .defaultWithoutBody
        | _ => pure ()
      | _, _ => pure ()

def functionTail (self : Rules) (lo : Nat) (role : Role) (isAsync isGenerator : Bool) (name : Node)
    (params : P (List Node)) : P Node :=
  within (fun c => { c with inAsync := isAsync, inGenerator := isGenerator }) do
    let typeParams ← optTypeParameters self
    let params ← parametersOf isAsync isGenerator params
    let result ← optResultType self
    let body ← functionBody self isAsync isGenerator (params.all isSimpleParameter)
    noteDefaults params body
    node lo (.function role isAsync isGenerator false) [name, group params, body, typeParams, result]

def bodyOf? (function : Node) : Option Node := function.parts[2]?

/-- A function that starts with its keyword; its name may be missing in an expression. -/
def functionFrom (self : Rules) (lo : Nat) (role : Role) (isAsync needsName : Bool) : P Node := do
  expectWord "function"
  let isGenerator ← eat "*"
  let isExpression := role == .expression
  let name ← within (fun c =>
      if isExpression then { c with inAsync := isAsync, inGenerator := isGenerator } else c)
    (optBindingNode needsName false)
  within (fun c => { c with allowsSuper := false, inField := false, awaitsColon := false }) do
    let n ← functionTail self lo role isAsync isGenerator name (formalParameters self)
    match bodyOf? n with
    | some body => if isExpression && body.isAbsent then failUnexpected "\x7b"
    | none => pure ()
    return n

def methodFunction (self : Rules) (isSpaced isAsync isGenerator : Bool) (params : P (List Node)) :
    P Node := do
  let lo ← position
  within (fun c => { c with allowsSuper := true, inField := false })
    (functionTail self lo (.method isSpaced) isAsync isGenerator Node.missing params)

/-- Whether a parameter is not just the type of `this`. -/
def isOwnParameter (param : Node) : Bool :=
  match param with
  | .mk (.ident "this" _) _ _ => false
  | .mk (.annotated _) _ (.mk (.ident "this" _) _ _ :: _) => false
  | _ => true

def getterParameters (self : Rules) (key : Span) : P (List Node) := do
  let params ← formalParameters self
  if params.any isOwnParameter then note key .getterParameter
  return []

def setterParameters (self : Rules) (key : Span) : P (List Node) := do
  let params ← formalParameters self
  let own := params.filter isOwnParameter
  if own.length != 1 then note key .setterParameter
  match params with
  | first :: _ => if first.form matches .rest then note first.span .setterRest
  | [] => pure ()
  return own

end CallExpander.Code
