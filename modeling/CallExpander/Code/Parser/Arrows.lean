import CallExpander.Code.Parser.Operators

/-!
Parentheses. They may hold an expression or the parameters of an arrow function, and which of them is
known only at the arrow. So what they hold is read as expressions, and read again as parameters where
an arrow follows.
-/

namespace CallExpander.Code

/-! ## Assignments and conditions -/

/-- The rest of an assignment behind what it assigns to; without an assigning sign, just that. -/
def assignmentTail (self : Rules) (lo : Nat) (left : Node) : P Node := do
  match ← current with
  | .punct op =>
    if assignOperators.contains op then
      let target ← assignmentTarget op left
      advance
      let value ← self .assignment
      node lo (.assign op) [target, value]
    else return left
  | _ => return left

def conditionalTail (self : Rules) (lo : Nat) (test : Node) : P Node := do
  expect "?"
  let yes ← within (fun c =>
      { c with includesIn := true, inConditional := true, awaitsColon := true })
    (self .assignment)
  expect ":"
  let no ← within (fun c => { c with inConditional := true, awaitsColon := false }) (self .assignment)
  return .mk .conditional (.file ⟨lo, no.span.hi⟩) [test, yes, no]

/-! ## What parentheses hold -/

/-- What parentheses hold: an expression, or what can only be a parameter. -/
inductive ParenItem where
  | expression (inner : Node)
  | parameter (inner : Node)
  deriving Inhabited

namespace ParenItem

def inner : ParenItem → Node
  | .expression n => n
  | .parameter n => n

/-- Whether an item can only be a parameter. -/
def isParameter : ParenItem → Bool
  | .expression _ => false
  | .parameter _ => true

/-- Whether an item is a name, with or without a type. -/
def isName (item : ParenItem) : Bool :=
  match item.inner with
  | .mk (.ident ..) _ _ => true
  | .mk (.annotated _) _ (first :: _) => (first.form matches .ident ..)
  | _ => false

end ParenItem

/-- What was read in parentheses, the last item first, and the comma behind the last item. -/
structure ParenItems where
  found : List ParenItem := []
  comma : Option Span := none

/-- An item as an expression. Where types can be written, a question mark behind a name is left,
because it may make a parameter optional. -/
def itemExpression (self : Rules) : P Node := do
  let lo ← position
  let startsName ← (do
    if !(← hasTypes) then return false
    else if ← isSign "..." then peekName
    else nameHere)
  if !startsName then spreadable self
  else if ← eat "..." then
    let inner ← freely self .binary
    node lo .spread [inner]
  else
    let inner ← self .binary
    assignmentTail self lo inner

/-- The question mark that makes the parameter before it optional, if it is there. -/
def optionalItem (arg : Node) : P Bool := do
  if !(← isSign "?") then return false
  else
    match (← peekToken).1 with
    | .punct sign =>
      if [",", ":", ")", "="].contains sign then
        advance
        let inner := match arg.form, arg.parts with
          | .spread, [inner] => inner
          | _, _ => arg
        if arg.form matches .spread then note (← lastSpan) .restParameterOptional
        if !(inner.form matches .ident ..) then failAt arg.span .optionalPattern
        return true
      else return false
    | _ => return false

/-- An item with a question mark or a type behind it, as a parameter. -/
def typedItem (self : Rules) (lo : Nat) (isOptional : Bool) (arg : Node) : P Node := do
  let param ← (do
    match arg.form, arg.parts with
    | .spread, [inner] =>
      let inner ← toPattern .binding inner
      typedRest self lo inner
    | _, _ =>
      let inner ← toPattern .binding arg
      if isBarePattern inner then annotated self lo isOptional inner else return inner)
  if ← eat "=" then
    let value ← self .assignment
    node lo .patternDefault [param, value]
  else return param

def parenItem (self : Rules) : P ParenItem := do
  let lo ← position
  let isModified ← eatParameterWord
  let start ← position
  let arg ← itemExpression self
  let hasTypes ← hasTypes
  let isOptional ← (if hasTypes then optionalItem arg else return false)
  let arg ← (do
    if hasTypes && !isOptional && !(arg.form matches .spread) && (← isSign "?") then
      conditionalTail self start arg
    else return arg)
  let item ← (do
    if isOptional || (hasTypes && (← isSign ":")) then
      return ParenItem.parameter (← typedItem self start isOptional arg)
    else return ParenItem.expression arg)
  if isModified then note (← spanFrom lo) .parameterModifier
  return item

/-! ## Parameters -/

mutual

def noteSpecialNames : Node → P Unit
  | .mk (.ident name _) origin _ =>
    if isSpecialName name then noteStrict (origin.span?.getD ⟨0, 0⟩) .reservedBinding else pure ()
  | .mk .patternDefault _ (inner :: _) | .mk (.annotated _) _ (inner :: _)
  | .mk .patternProperty _ [_, inner] => noteSpecialNames inner
  | .mk .rest _ parts | .mk .arrayPattern _ parts | .mk .objectPattern _ parts =>
    noteSpecialNamesIn parts
  | _ => pure ()

def noteSpecialNamesIn : List Node → P Unit
  | [] => pure ()
  | n :: rest => do
    noteSpecialNames n
    noteSpecialNamesIn rest

end

/-- Whether an item takes all values that are left. -/
def ParenItem.isRest (item : ParenItem) : Bool :=
  match item.inner.form with
  | .spread | .rest => true
  | _ => false

/-- The last item as a parameter, where a comma may stand behind it. -/
def lastParameter (comma : Option Span) (item : ParenItem) : P Node := do
  let noteComma : P Unit := do
    if let some span := comma then note span .commaBehindRest
  match item with
  | .parameter n =>
    if n.form matches .rest then noteComma
    return n
  | .expression n =>
    match n.form, n.parts with
    | .spread, [inner] =>
      if inner.form matches .assign _ then note n.span .restParameterDefault
      noteComma
      let inner' ← toPattern .binding inner
      return .mk .rest inner.origin [inner']
    | _, _ => toPattern .binding n

/-- Items as parameters; only the last of them can take all values that are left. -/
def parametersFrom (comma : Option Span) : List ParenItem → P (List Node)
  | [] => return []
  | [last] => return [← lastParameter comma last]
  | item :: rest => do
    if item.isRest then
      note item.inner.span .restParameterNotLast
      parametersFrom comma rest
    else
      let first ← (do
        match item with
        | .parameter n => return n
        | .expression n => toPattern .binding n)
      return first :: (← parametersFrom comma rest)

def arrowParameters (items : ParenItems) : P (List Node) := do
  let params ← parametersFrom items.comma items.found.reverse
  noteSpecialNamesIn params
  return params

/-! ## Arrow functions -/

def arrowTail (self : Rules) (lo : Nat) (isAsync : Bool) (typeParams : Node) (params : List Node)
    (result : Node) : P Node := do
  let body ← arrowBody self isAsync (params.all isSimpleParameter)
  node lo (.arrow isAsync) [group params, body, typeParams, result]

/-- An arrow function whose parameters were read in parentheses, from behind its arrow. -/
def arrowFromItems (self : Rules) (lo : Nat) (isAsync : Bool) (items : ParenItems) (result : Node) :
    P Node := do
  let params ← arrowParameters items
  arrowTail self lo isAsync Node.missing params result

/-- The next item in parentheses. An arrow on a new line behind a name makes one more item. -/
def nextParenItem (self : Rules) (read : ParenItems) : P (Option ParenItems) := do
  if (← atEnd) || (← isSign ")") then return none
  else
    let lo ← position
    let item ← within (fun c => { c with arrowStart := some lo }) (parenItem self)
    let found := item :: read.found
    let found ← (do
      if (← eat "=>") && found.getLast?.any ParenItem.isName then
        return .expression (← arrowFromItems self lo false { found } Node.missing) :: found
      else return found)
    if ← isSign ")" then return some { found }
    else
      expect ","
      let comma ← lastSpan
      return some { found, comma := if ← isSign ")" then some comma else none }

def parenItems (self : Rules) : P ParenItems := do
  expect "("
  let items ← within (fun c => { c with awaitsColon := false, includesIn := true })
    (grow (nextParenItem self) {})
  expect ")"
  return items

/-- An arrow function inside a conditional expression, where its colon could also be that of the
condition. -/
def arrowInCondition (self : Rules) (lo : Nat) (isAsync : Bool) (items : ParenItems) :
    P (Option Node) := do
  let ctx ← context
  if (← hasTypes) && ctx.inConditional && (← isSign ":") then
    attempt do
      let result ← resultBehind self ":"
      expect "=>"
      let arrow ← arrowFromItems self lo isAsync { items with comma := none } result
      if ctx.awaitsColon && !(← isSign ":") then return none else return some arrow
  else return none

def arrowResult (self : Rules) : P (Option Node) := do
  if (← hasTypes) && !(← context).awaitsColon && (← isSign ":") then
    attempt do
      let result ← resultBehind self ":"
      if ← isSign "=>" then return some result else return none
  else return none

/-- An operator behind an arrow function with a body, which should not be there, with what follows
it. -/
def strayOperators (self : Rules) (arrow : Node) : P Node := do
  match arrow.parts with
  | _ :: body :: _ =>
    if (body.form matches .body) && (← current).isBinaryOperator then
      noteHere .semicolon
      let whole ← operators self arrow
      if !(← isStatementEnd) then noteHere .semicolon
      return whole
    else return arrow
  | _ => return arrow

/-- Notes default values in objects that turned out to be no patterns. -/
def noteObjectDefaults (items : List Node) : P Unit :=
  items.forM fun n =>
    match n.form, n.parts with
    | .object, properties => properties.forM noteOne
    | .spread, [inner] =>
      match inner.form with
      | .object => inner.parts.forM noteOne
      | _ => pure ()
    | _, _ => pure ()
where
  /-- Notes one property that is a name with a default value. -/
  noteOne (property : Node) : P Unit :=
    match property.form with
    | .shorthandDefault => note property.span .defaultInObject
    | _ => pure ()

/-- Stops at the first expression that is spread. -/
def refuseSpreads (items : List Node) : P Unit :=
  items.forM fun n =>
    match n.form, n.parts with
    | .spread, [inner] => failAt inner.span .spreadInParentheses
    | _, _ => pure ()

/-- Items that turned out to be no parameters, as an expression in parentheses. -/
def parenExpression (lo : Nat) (items : List Node) : P Node := do
  match items with
  | [] => failAt (← spanFrom lo) .emptyParentheses
  | first :: more =>
    refuseSpreads items
    match more.getLast? with
    | none => node lo .paren [first]
    | some last =>
      node lo .paren [.mk .sequence (.file ⟨first.start, last.span.hi⟩) items]

/-- Items that turned out to be no parameters, as an expression; behind the word `async` they are the
arguments of a call. -/
def itemsExpression (lo : Nat) (isAsync : Bool) (items : ParenItems) : P Node := do
  let found := items.found.reverse
  noteObjectDefaults ((found.filter (!·.isParameter)).map ParenItem.inner)
  found.forM fun item => do
    if item.isParameter then failAt item.inner.span .notExpression
  let inner := found.map ParenItem.inner
  if isAsync then
    let callee := Node.mk (.ident "async" false) (.file ⟨lo, lo + 5⟩) []
    node lo .call [callee, group inner, Node.missing]
  else parenExpression lo inner

/-- An expression in parentheses, or an arrow function whose parameters they hold. It starts at `lo`,
where the word `async` may stand. -/
def parenthesized (self : Rules) (lo : Nat) (isAsync : Bool) : P Node := do
  let canArrow := (← context).arrowStart == some lo
  let items ← parenItems self
  match ← arrowInCondition self lo isAsync items with
  | some arrow => return arrow
  | none =>
    let result ← arrowResult self
    if items.found.any ParenItem.isParameter || result.isSome || (← isSign "=>") then
      if ← afterLineBreak then failAt (← spanFrom lo) .lineBreakBeforeArrow
      if !canArrow then failAt (← spanFrom lo) .arrowNotAllowed
      expect "=>"
      let arrow ← arrowFromItems self lo isAsync items (result.getD Node.missing)
      strayOperators self arrow
    else itemsExpression lo isAsync items

end CallExpander.Code
