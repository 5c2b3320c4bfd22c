import CallExpander.Code.Parser.Basic

/-!
Names: words that refer to something or bind something, words that name a property, and the other
keys that a property can have.
-/

namespace CallExpander.Code

/-- Whether a name means something in every function, and so cannot be bound in strict code. -/
def isSpecialName (text : String) : Bool := text == "eval" || text == "arguments"

def nameText (n : Node) : String :=
  match n.form with
  | .name text => text
  | _ => ""

/-- Whether the current token is a word that is no reserved one. -/
def nameHere : P Bool := do
  match ← current with
  | .word text => return !(← context).reserves text
  | _ => return false

def anyWord : P String := do
  match ← required with
  | .word text =>
    advance
    return text
  | .markupName text =>
    if (← context).inType then
      advance
      return text
    else failHere .nameExpected
  | _ => failHere .nameExpected

/-- Notes a word that is a name in loose code only. -/
def noteStrictName (span : Span) (text : String) : P Unit := do
  if text == "enum" then note span (.reservedName text)
  else if strictWords.contains text then noteStrict span (.reservedName text)

/-- Refuses `await` as a name where it is an operator. -/
def refuseAwait (span : Span) : P Unit := do
  let ctx ← context
  if ctx.inDeclare then return ()
  else if ctx.inStaticBlock then failAt span .nameExpected
  else if ctx.isModule || ctx.inAsync then failAt span .awaitAsName

/-- A name. The words `yield` and `await` are names only where they are allowed to be. -/
def plainName (allowsYield allowsAwait : Bool) : P String := do
  match ← required with
  | .word text =>
    advance
    let span ← lastSpan
    noteStrictName span text
    if text == "await" then refuseAwait span
    if text == "arguments" && (← context).inField then note span .argumentsInField
    let isFine ← (do
      match text with
      | "await" => return allowsAwait || (← context).inDeclare
      | "yield" => return allowsYield
      | "this" => hasTypes
      | "let" => return true
      | _ => return !isKeyword text)
    if isFine then return text else failAt span .nameExpected
  | _ => failHere .nameExpected

def referredName : P String := do
  let ctx ← context
  plainName (!ctx.inGenerator) (!ctx.inAsync)

def referredNode : P Node := do
  let lo ← position
  let name ← referredName
  node lo (.ident name false)

def bindingName (refusesLet : Bool := false) : P String := do
  if refusesLet && (← isWord "let") then
    failUnexpected "let is reserved in const, let, class declaration"
  let name ← plainName true true
  let span ← lastSpan
  let ctx ← context
  if isSpecialName name then noteStrict span .reservedBinding
  if (ctx.inAsync || ctx.inStaticBlock) && name == "await" then note span .nameExpected
  if ctx.inGenerator && name == "yield" then note span .nameExpected
  return name

def bindingNode (refusesLet : Bool := false) : P Node := do
  let lo ← position
  let name ← bindingName refusesLet
  node lo (.ident name false)

/-- A name that binds, or a missing part; where it is needed, it has to be there. -/
def optBindingNode (isNeeded refusesLet : Bool) : P Node := do
  if isNeeded || (← nameHere) || ((← hasTypes) && (← isWord "this")) then bindingNode refusesLet
  else return Node.missing

def privateName : P Node := do
  let lo ← position
  advance
  if (← position) != (← lastSpan).hi then failAt (← spanFrom lo) .spaceBehindHash
  let name ← anyWord
  node lo (.privateName name)

def memberName : P Node := do
  if ← isSign "#" then privateName
  else
    let lo ← position
    let name ← anyWord
    node lo (.name name)

def literal? : P (Option Node) := do
  let lo ← position
  let take (form : Form) : P (Option Node) := do
    advance
    return some (← node lo form)
  match ← current with
  | .str value raw => take (.str ⟨value, some raw⟩)
  | .num value raw => take (.num value (some raw))
  | .bigint _ raw => take (.verbatim raw)
  | _ => return none

/-- An expression in which `in` is an operator. -/
def freely (self : Rules) (goal : Goal) : P Node :=
  within (fun c => { c with includesIn := true }) (self goal)

def computedKey (self : Rules) (lo : Nat) : P Node := do
  let start ← position
  let first ← freely self .assignment
  let inner ← (do
    if (← hasTypes) && (← isSign ",") then
      let more ← gather do
        if ← eat "," then return some (← freely self .assignment) else return none
      note (← spanFrom start) .computedSequence
      node start .sequence (first :: more)
    else return first)
  expect "]"
  node lo .computed [inner]

/-- A property key: a name, a string, a number or a computed expression. -/
def propertyKey (self : Rules) : P Node := do
  let _ ← required
  let lo ← position
  match ← literal? with
  | some key => return key
  | none =>
    match ← current with
    | .word text =>
      advance
      node lo (.name text)
    | .punct "[" =>
      advance
      computedKey self lo
    | _ => failUnexpected "identifier, string literal, numeric literal or [ for the computed key"

def memberKey (self : Rules) : P Node := do
  if ← isSign "#" then
    let key ← privateName
    if key.form matches .privateName "constructor" then note key.span .constructorPrivate
    return key
  else propertyKey self

end CallExpander.Code
