import CallExpander.Code.Parser.Arrows
import CallExpander.Code.Parser.Objects

/-!
Operands: literals, names, functions and all that binds as tightly as a call.
-/

namespace CallExpander.Code

/-! ## Regular expressions -/

def patternFlags : List Char := ['d', 'g', 'i', 'm', 's', 'u', 'v', 'y']

/-- The first flag that stands there twice. -/
def repeatedFlag? : List Char → Option Char
  | [] => none
  | c :: rest => if rest.contains c then some c else repeatedFlag? rest

/-- Notes flags that mean nothing or stand there twice. -/
def checkFlags (span : Span) (flags : List Char) : P Unit := do
  if flags.any (!patternFlags.contains ·) then note span .patternFlags
  match repeatedFlag? (flags.filter patternFlags.contains) with
  | some flag => note span (.patternFlagTwice flag)
  | none => pure ()

/-- A regular expression, whose first sign is at hand. Behind one that is not closed no token can be
read. -/
def patternLiteral : P Node := do
  let slash ← lexeme
  let (token, r, _) := readPattern slash.here
  match token with
  | .pattern body flags =>
    modify fun s =>
      { s with
        cur := some { slash with token, next := r }, ahead := none, rest := r, before := token }
    advance
    let n ← node slash.here.pos (.verbatim ("/" ++ body ++ "/" ++ flags))
    checkFlags n.span flags.toList
    return n
  | .invalid fault =>
    modify fun s => { s with stuck := some fault, cur := none, ahead := none }
    throw fault
  | _ => failHere .expressionExpected

/-! ## Names and what starts with one -/

/-- What follows the word `async` and another name: an arrow function, or a type where types can be
written. In the head of a loop the word stands for itself. -/
def asyncName (self : Rules) (lo : Nat) (word : Node) : P Node := do
  let ctx ← context
  if ← pure ctx.inLoopHead <&&> isWord "of" <&&> notM (peekSign "=>") then
    if !ctx.inAwaitLoopHead then note (← lastSpan) .asyncOf
    return word
  else
    let param ← bindingNode
    if (← hasTypes) && (param.form matches .ident "as" _) && !(← isSign "=>") then
      let type ← anyType self
      node lo .asType [word, type]
    else
      expect "=>"
      arrowTail self lo true Node.missing [param] Node.missing

/-- A name, or the arrow function whose one parameter it is. -/
def nameOrArrow (self : Rules) : P Node := do
  let lo ← position
  let canArrow := (← context).arrowStart == some lo
  let word ← referredNode
  if canArrow && !(← afterLineBreak) then
    if (word.form matches .ident "async" _) && (← nameHere) then asyncName self lo word
    else if ← eat "=>" then
      noteSpecialNames word
      arrowTail self lo false Node.missing [word] Node.missing
    else return word
  else return word

/-- An asynchronous arrow function with type parameters, from the word `async` on. -/
def genericAsyncArrow? (self : Rules) (lo : Nat) : P (Option Node) :=
  attempt do
    advance
    let typeParams ← typeParameters self { allowsConst := false }
    expect "("
    let params ← formalParameters self
    expect ")"
    let result ← optResultType self
    expect "=>"
    return some (← arrowTail self lo true typeParams params result)

/-- An expression that starts with `async`, if the word means something of its own there. -/
def asyncExpression? (self : Rules) (lo : Nat) : P (Option Node) := do
  let canArrow := (← context).arrowStart == some lo
  let (next, lineBreak) ← peekToken
  if next == .word "function" && !lineBreak then
    advance
    return some (← functionFrom self lo .expression true false)
  else
    let generic ← (do
      if canArrow && (← hasTypes) && next == .punct "<" then genericAsyncArrow? self lo
      else return none)
    match generic with
    | some n => return some n
    | none =>
      if canArrow && next == .punct "(" && !lineBreak then
        advance
        return some (← parenthesized self lo true)
      else return none

def nameExpression (self : Rules) (text : String) : P Node := do
  let isFine := text == "let" || ((← hasTypes) && text == "await") || !(← context).reserves text
  if isFine then nameOrArrow self else failHere .expressionExpected

def wordExpression (self : Rules) (lo : Nat) (text : String) : P Node := do
  let literal (form : Form) : P Node := do
    advance
    node lo form
  match text with
  | "this" => literal .this
  | "null" => literal .null
  | "true" => literal (.bool true)
  | "false" => literal (.bool false)
  | "function" => functionFrom self lo .expression false false
  | "class" => classFrom self lo .expression false false
  | "async" =>
    match ← asyncExpression? self lo with
    | some n => return n
    | none => nameExpression self text
  | _ => nameExpression self text

/-- An expression without operators or anything behind it. -/
def primary (self : Rules) : P Node := do
  let lo ← position
  match ← literal? with
  | some n => return n
  | none =>
    match ← current with
    | .word text => wordExpression self lo text
    | .punct "(" => parenthesized self lo false
    | .punct "[" => arrayLiteral self
    | .punct "\x7b" => objectLiteral self
    | .punct "`" => template self false
    | .punct "/" | .punct "/=" => patternLiteral
    | .punct "#" =>
      advance
      let name ← anyWord
      node lo (.privateName name)
    | _ => failHere .expressionExpected

/-! ## Members, calls and `new` -/

def importExpression (self : Rules) (lo : Nat) (noCall : Bool) : P Node := do
  advance
  if ← eat "." then
    match ← anyWord with
    | "meta" => subscripts self noCall false (← node lo (.verbatim "import.meta"))
    | "defer" => subscripts self noCall false (← node lo (.importWord .defer))
    | "source" => subscripts self noCall false (← node lo (.importWord .source))
    | _ => failUnexpected "meta"
  else subscripts self noCall false (← node lo (.importWord .evaluation))

def superExpression (self : Rules) (lo : Nat) (noCall : Bool) : P Node := do
  advance
  subscripts self noCall false (← node lo .super)

/-- Whether type arguments behind an expression belong to it, and not to a call. -/
def endsInstantiation : P Bool := do
  if ← isOneOf ["<", ">", "+", "-", "(", "`"] then return false
  else if ← afterLineBreak then return true
  else
    let token ← current
    return token.isBinaryOperator || !token.startsExpression

/-- A primary expression with type arguments behind it, if they belong to it. -/
def instantiated (self : Rules) (inner : Node) : P Node := do
  let typeArgs ← (do
    if (← hasTypes) && (← isSign "<") then
      attempt do
        let typeArgs ← typeArguments self
        if ← endsInstantiation then return some typeArgs else return none
    else return none)
  match typeArgs with
  | some typeArgs => node inner.start .instantiation [inner, typeArgs]
  | none => return inner

def callTypeArguments? (self : Rules) : P (Option Node) := do
  if (← hasTypes) && (← isOneOf ["<", "<<"]) then
    attempt do
      let typeArgs ← typeArguments self
      if ← isSign "(" then return some typeArgs else return none
  else return none

def newTarget (self : Rules) (lo : Nat) : P Node := do
  if ← eatWord "target" then
    let n ← node lo (.verbatim "new.target")
    let ctx ← context
    if !ctx.inPlainFunction && !ctx.inParameters && !ctx.inClass then note n.span .newTarget
    subscripts self true false n
  else failUnexpected "target"

/-- A `new` behind its callee; without arguments nothing else can follow it. -/
def newTail (self : Rules) (lo : Nat) (callee : Node) : P Node := do
  if isArrow callee then return callee
  else
    match callee.form with
    | .optMember true | .optIndex true | .optCall true => failAt callee.span .chainedConstructor
    | _ => pure ()
    let typeArgs := (← callTypeArguments? self).getD Node.missing
    if ← isSign "(" then
      let args ← arguments self
      subscripts self true false (← node lo (.new true) [callee, args, typeArgs])
    else node lo (.new false) [callee, group [], typeArgs]

/-- An expression with its members and indices, and a `new` before it; nested ones are taken outside
in. -/
def constructible (self : Rules) : P Node := do
  let starts ← gather do
    if ← isWord "new" <&&> notM (peekSign ".") then
      let lo ← position
      advance
      return some lo
    else return none
  let lo ← position
  let callee ← (do
    match ← current with
    | .word "new" =>
      advance
      advance
      newTarget self lo
    | .word "super" => superExpression self lo true
    | .word "import" => importExpression self lo true
    | _ =>
      let first ← primary self
      if isArrow first then return first
      else subscripts self true false (← instantiated self first))
  starts.reverse.foldlM (fun callee lo => newTail self lo callee) callee

def startsMarkup : P Bool := do
  if !(← hasMarkup) then return false
  else
    let _ ← required
    let lexeme ← lexeme
    return lexeme.token == .punct "<" && !lexeme.next.isAt '!'

/-- Everything that binds as tightly as a call. -/
def tight (self : Rules) : P Node := do
  if ← startsMarkup then self .markup
  else
    let lo ← position
    match ← current with
    | .word "super" => superExpression self lo false
    | .word "import" => importExpression self lo false
    | _ =>
      let callee ← constructible self
      if isArrow callee then return callee
      else
        let typeArgs ← callTypeArguments? self
        match callee.form with
        | .new false => return callee
        | _ =>
          if ← isSign "(" then
            let args ← arguments self
            subscripts self false false
              (← callNode callee (typeArgs.getD Node.missing) args false)
          else return callee

end CallExpander.Code
