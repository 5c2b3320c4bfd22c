import CallExpander.Code.Parser.Functions
import CallExpander.Code.Parser.Targets

/-!
What follows an expression and binds most tightly: members, indices, calls and templates.
-/

namespace CallExpander.Code

def spreadable (self : Rules) : P Node := do
  let lo ← position
  if ← eat "..." then
    let inner ← freely self .assignment
    node lo .spread [inner]
  else freely self .assignment

def arguments (self : Rules) (isImport : Bool := false) : P Node :=
  within (fun c => { c with awaitsColon := false }) do
    let lo ← position
    expect "("
    let items ← gather do
      if (← atEnd) || (← isSign ")") then return none
      else
        let item ← spreadable self
        if !(← atEnd) && !(← isSign ")") then
          expect ","
          if isImport && !(← hasTypes) && (← isSign ")") then
            failAt (← spanFrom lo) .commaInImport
        return some item
    expect ")"
    return group items

def template (self : Rules) (isTagged : Bool) : P Node :=
  within (fun c => { c with awaitsColon := false }) do
    let lo ← position
    let (quasis, inner) ← templateParts isTagged (freely self .expression)
    node lo (.template quasis) inner

/-- Whether an expression is a link of an optional chain. -/
def inChain : Node → Bool
  | .mk .nonNull _ [inner] => inChain inner
  | n => Form.isChain n.form

/-- Whether a word is the callee that stands for the class above. -/
def isSuper (n : Node) : Bool := n.form matches .super

/-- Whether a word is the callee that imports. -/
def isImportWord (n : Node) : Bool := n.form matches .importWord _

def taggedTemplate (self : Rules) (tag typeArgs : Node) : P Node := do
  let text ← template self true
  let n ← node tag.start .tagged [tag, typeArgs, text]
  if Form.isChain tag.form then note n.span .chainedTemplate
  return n

def callNode (callee typeArgs args : Node) (isOptional : Bool) : P Node := do
  if isOptional || inChain callee then
    if isSuper callee || isImportWord callee then failHere .optionalSuper
    node callee.start (.optCall isOptional) [callee, args, typeArgs]
  else node callee.start .call [callee, args, typeArgs]

/-- Checks that a member of the class above can be named here. -/
def checkSuper (object : Node) (isOptional noCall : Bool) : P Unit := do
  if isSuper object then
    if !(← context).allowsSuper && !(← hasTypes) then failAt object.span .superAccess
    if isOptional then failHere (if noCall then .superCall else .superAccess)

/-- What has been read of an expression, and whether nothing can follow it. -/
structure Subscripted where
  inner : Node
  isOver : Bool := false

/-- Type arguments behind an expression, with what makes them such. -/
def typedSubscript (self : Rules) (noCall : Bool) (inner : Node) : P (Option Subscripted) :=
  attempt do
    let typeArgs ← typeArguments self
    if !noCall && (← isSign "(") then
      let args ← arguments self
      return some { inner := ← callNode inner typeArgs args false }
    else if ← isSign "`" then return some { inner := ← taggedTemplate self inner typeArgs }
    else if (← isSign "=") || (← isOneOfWords ["as", "satisfies"]) then
      return some { inner := ← node inner.start .instantiation [inner, typeArgs], isOver := true }
    else return none

def indexTail (self : Rules) (isOptional noCall : Bool) (inner : Node) : P Node := do
  let index ← freely self .expression
  expect "]"
  checkSuper inner isOptional noCall
  if isOptional || inChain inner then node inner.start (.optIndex isOptional) [inner, index]
  else node inner.start .index [inner, index]

def memberTail (isOptional noCall : Bool) (inner : Node) : P Node := do
  let name ← memberName
  checkSuper inner isOptional noCall
  if isSuper inner && (name.form matches .privateName _) then failHere .superCall
  if isOptional || inChain inner then node inner.start (.optMember isOptional) [inner, name]
  else node inner.start .member [inner, name]

/-- What the words `super` and `import` cannot do without. -/
def failBareCallee {α : Type} (noCall : Bool) (inner : Node) : P α := do
  let _ ← lexeme
  if isImportWord inner then failHere .importHere
  else failHere (if noCall then .superCall else .superAccess)

/-- Takes the question mark and the point that make a link of a chain optional. They are two tokens, so
blanks and comments can stand between them. -/
def eatOptionalMark : P Bool := do
  if ← isSign "?" <&&> peekSign "." then
    advance
    eat "."
  else return false

/-- Whether the arguments of a call are next, or type arguments that only a call can have. -/
def callFollows (isOptional noCall : Bool) : P Bool :=
  (pure (isOptional || !noCall) <&&> isSign "(") <||>
    (pure isOptional <&&> hasTypes <&&> isSign "<")

/-- What can follow an expression in every dialect. -/
def plainSubscript (self : Rules) (noCall noIndex : Bool) (inner : Node) :
    P (Option Subscripted) := do
  let more (n : Node) : P (Option Subscripted) := return some { inner := n }
  let isOptional ← eatOptionalMark
  if ← pure !noIndex <&&> eat "[" then more (← indexTail self isOptional noCall inner)
  else if ← callFollows isOptional noCall then
    let typeArgs ← (do if ← isSign "<" then typeArguments self else return Node.missing)
    let args ← arguments self (isImportWord inner)
    more (← callNode inner typeArgs args isOptional)
  else if isOptional then more (← memberTail true noCall inner)
  else if ← eat "." then more (← memberTail false noCall inner)
  else if isSuper inner || isImportWord inner then failBareCallee noCall inner
  else if ← isSign "`" then more (← taggedTemplate self inner Node.missing)
  else return none

def subscript (self : Rules) (noCall noIndex : Bool) (read : Subscripted) :
    P (Option Subscripted) := do
  if read.isOver then return none
  else
    if let .invalid fault := ← current then
      advance
      throw fault
    let inner := read.inner
    let hasTypes ← hasTypes
    if hasTypes && !(← afterLineBreak) && (← isSign "!") then
      advance
      if isSuper inner then failHere (.nonNull "super")
      if isImportWord inner then failHere (.nonNull "import")
      return some { inner := ← node inner.start .nonNull [inner] }
    else
      let typed ← (do
        if hasTypes && !isSuper inner && !isImportWord inner && (← isOneOf ["<", "<<"]) then
          typedSubscript self noCall inner
        else return none)
      match typed with
      | some found => return some found
      | none => plainSubscript self noCall noIndex inner

def subscripts (self : Rules) (noCall noIndex : Bool) (inner : Node) : P Node :=
  return (← grow (subscript self noCall noIndex) { inner }).inner

end CallExpander.Code
