import CallExpander.Code.Parser.Patterns
import CallExpander.Code.Parser.Templates

/-!
Types.
-/

namespace CallExpander.Code

/-- What a type can start with, as messages name it. -/
def typeStarts : String :=
  "an identifier, void, yield, null, await, break, a string literal, a numeric literal, true, "
    ++ "false, `, -, import, this, typeof, \x7b, [, ("

/-- Words that name a type of their own, and so no class and no interface. -/
def builtInTypes : List String :=
  ["string", "null", "number", "object", "any", "unknown", "boolean", "bigint", "symbol", "void",
    "never", "intrinsic"]

/-- A type behind a token, if the token is there. -/
def typeAfter (self : Rules) (token : Token) : P Node := do
  if ← eatToken token then anyType self else return Node.missing

/-- A type behind a token that has to be there. -/
def typeBehind (self : Rules) (token : Token) : P Node := do
  if ← eatToken token then anyType self else failUnexpected token.dump

/-- Items with commas between them, up to a closing token, which is left. -/
def delimited {α : Type} (isOver : P Bool) (item : P α) : P (List α) := do
  let found ← grow (fun (read : List α × Bool) => do
    if read.2 || (← isOver) then return none
    else
      let a ← item
      if ← eat "," then return some (a :: read.1, false)
      else if ← isOver then return some (a :: read.1, true)
      else
        expect ","
        return none) ([], false)
  return found.1.reverse

/-! ## Arguments and parameters -/

/-- Takes the first half of a double angle bracket. -/
def cutBracket : P Unit := modify fun s =>
  match s.cur with
  | some lexeme =>
    { s with cur := some { lexeme with here := lexeme.here.move 1, token := .punct "<" } }
  | none => s

def typeArguments (self : Rules) : P Node := do
  let lo ← position
  let items ← typed (do
    if ← isSign "<<" then cutBracket else expect "<"
    delimited (isSign ">") (anyType self))
  expect ">"
  if items.isEmpty then note (← spanFrom lo) .noTypeArguments
  node lo .typeArguments items

/-- Type arguments on the same line, if there are any. -/
def optTypeArguments (self : Rules) : P Node := do
  if (← isOneOf ["<", "<<"]) && !(← afterLineBreak) then typeArguments self
  else return Node.missing

/-- What type parameters are for: which words can stand before them. -/
structure TypeParameterUse where
  allowsVariance : Bool := false
  allowsConst : Bool := true

/-- The words before a type parameter, the last one first. -/
def typeParameterWord (use : TypeParameterUse) (before : List String) : P (Option (List String)) := do
  match ← eatModifier ["public", "private", "protected", "readonly", "abstract", "const", "override",
      "in", "out"] with
  | none => return none
  | some word =>
    let span ← lastSpan
    match word with
    | "const" => if !use.allowsConst then note span (.constTypeParameter word)
    | "in" =>
      if !use.allowsVariance then note span (.varianceModifier word)
      else if before.contains "in" then note span (.modifierTwice word)
      else if before.contains "out" then note span (.modifierOrder "in" "out")
    | "out" =>
      if !use.allowsVariance then note span (.varianceModifier word)
      else if before.contains "out" then note span (.modifierTwice word)
    | _ => note span (.modifierOnTypeParameter word)
    return some (word :: before)

def typeParameter (self : Rules) (use : TypeParameterUse) : P Node := do
  let lo ← position
  let words ← grow (typeParameterWord use) []
  let name ← anyWord
  let constraint ← typeAfter self (.word "extends")
  let default ← typeAfter self (.punct "=")
  let shown := ["const", "in", "out"].filter words.contains
  node lo (.typeParameter name (String.join (shown.map (· ++ " ")))) [constraint, default]

def typeParameters (self : Rules) (use : TypeParameterUse := {}) : P Node :=
  typed do
    let lo ← position
    if !(← isSign "<") then failUnexpected "< (jsx tag start)"
    advance
    let items ← delimited (isSign ">") (typeParameter self use)
    expect ">"
    node lo .typeParameters items

def optTypeParameters (self : Rules) (use : TypeParameterUse := {}) : P Node := do
  if (← hasTypes) && (← isSign "<") then typeParameters self use else return Node.missing

/-! ## Results and functions -/

/-- Whether the token behind the current one is a name, and no reserved word. -/
def peekName : P Bool := do
  match (← peekToken).1 with
  | .word text => return !(← context).reserves text
  | _ => return false

/-- The type of a result behind its sign: a type, or what the result says about a parameter. -/
def resultType (self : Rules) : P Node :=
  typed do
    let lo ← position
    let isAsserts ← (do
      if ← isWord "asserts" <&&> peekName then eatWord "asserts" else return false)
    let isPredicate ← nameHere <&&> peekInLine "is"
    if isAsserts || isPredicate then
      let name ← anyWord
      let type ← (do
        if isPredicate then
          advance
          anyType self
        else return Node.missing)
      node lo (.typePredicate name isAsserts) [type]
    else anyType self

/-- A result type behind a sign that has to be there. -/
def resultBehind (self : Rules) (sign : String) : P Node := do
  typed (expect sign)
  resultType self

def optResultType (self : Rules) : P Node := do
  if (← hasTypes) && (← isSign ":") then resultBehind self ":" else return Node.missing

/-- The parameters of a function type, up to and with the closing parenthesis. -/
def signatureParameters (self : Rules) : P Node := do
  let params ← formalParameters self
  params.forM fun param =>
    match param.form with
    | .patternDefault =>
      failUnexpected ("an identifier, [ for an array pattern, \x7b for an object patter or ... for a "
        ++ "rest pattern")
    | _ => pure ()
  expect ")"
  return group params

def signatureHead (self : Rules) : P (Node × Node) := do
  let typeParams ← optTypeParameters self
  expect "("
  let params ← signatureParameters self
  return (typeParams, params)

/-- Whether what begins a parameter can be skipped, and skips it. -/
def skipParameterStart (self : Rules) : P Bool := do
  let _ ← eatParameterWord
  if ← wordHere then
    advance
    return true
  else if ← isOneOf ["\x7b", "["] then
    let _ ← self .pattern
    return true
  else return false

def startsFunctionType (self : Rules) : P Bool := do
  if ← isSign "<" then return true
  else if !(← isSign "(") then return false
  else
    foresees do
      advance
      if ← isOneOf [")", "..."] then return true
      else if ← skipParameterStart self then
        if ← isOneOf [":", ",", "?", "="] then return true
        else if ← eat ")" then isSign "=>"
        else return false
      else return false

def functionType (self : Rules) (lo : Nat) (isConstructor isAbstract : Bool) : P Node := do
  let (typeParams, params) ← signatureHead self
  let result ← resultBehind self "=>"
  node lo (.typeFunction isConstructor isAbstract) [params, typeParams, result]

/-- A name with points in it. Reserved words may be names behind the first point. -/
def entityName (allowsReserved : Bool := true) : P String := do
  let first ← anyWord
  if first == "void" then
    let lo ← position
    let hi := (← lastSpan).hi
    note ⟨min lo hi, max lo hi⟩ .semicolon
  let found ← grow (fun (read : String × Bool) => do
    if ← pure !read.2 <&&> eat "." then
      let lo ← position
      if (← isSign "#") || (← wordHere) then
        let more ← (if allowsReserved then anyWord else plainName false false)
        return some (read.1 ++ "." ++ more, false)
      else
        note ⟨lo, lo⟩ .identifierExpected
        return some (read.1, true)
    else return none) (first, false)
  return found.1

/-! ## Members -/

def memberEnd : P Unit := do
  if !(← eat ",") then expectSemicolon

def startsIndexSignature : P Bool := do
  if ← isSign "[" then
    foresees do
      advance
      if ← nameHere then
        advance
        isOneOf [":", ","]
      else return false
  else return false

def indexSignature? (self : Rules) (lo : Nat) (isReadonly inClass : Bool) : P (Option Node) := do
  if !(← startsIndexSignature) then return none
  else
    advance
    let start ← position
    let name ← anyWord
    let span ← lastSpan
    if ← eat "," then note span .indexParameter else expect ":"
    let keyType ← anyType self
    let param ← node start (.annotated "") [.mk (.ident name false) (.file span) [], keyType]
    expect "]"
    let type ← optType self
    memberEnd
    return some (← node lo (.indexSignature isReadonly inClass) [param, type])

def signatureKey (self : Rules) : P Node := do
  let lo ← position
  if ← eat "[" then
    let inner ← freely self .assignment
    expect "]"
    node lo .computed [inner]
  else
    let _ ← required
    match ← literal? with
    | some key => return key
    | none =>
      let key ← memberName
      if key.form matches .privateName _ then note key.span .privateInInterface
      return key

def keyedSignature (self : Rules) (lo : Nat) (isReadonly : Bool) : P Node := do
  let key ← signatureKey self
  let isOptional ← eat "?"
  if ← isOneOf ["(", "<"] then
    if isReadonly then failHere .readonlyMethod
    let (typeParams, params) ← signatureHead self
    let result ← optResultType self
    memberEnd
    node lo (.methodSignature isOptional) [key, params, result, typeParams]
  else
    let type ← optType self
    memberEnd
    node lo (.propertySignature isReadonly isOptional false) [key, type]

def accessorSignature? (self : Rules) (lo : Nat) (isReadonly : Bool) : P (Option Node) :=
  attempt do
    if isReadonly then failHere .readonlyAccessor
    if ← eatWord "get" then
      let key ← signatureKey self
      expect "("
      expect ")"
      let result ← optType self
      memberEnd
      return some (← node lo (.accessorSignature .getter) [key, group [], result])
    else
      expectWord "set"
      let key ← signatureKey self
      expect "("
      let params ← signatureParameters self
      if params.parts.isEmpty then failHere .setterWithoutParameter
      memberEnd
      return some (← node lo (.accessorSignature .setter)
        [key, group (params.parts.take 1), Node.missing])

/-- A signature of a call or a constructor. -/
def callSignature (self : Rules) (isConstructor : Bool) : P Node := do
  let lo ← position
  if isConstructor then advance
  let (typeParams, params) ← signatureHead self
  let result ← optResultType self
  memberEnd
  node lo (.callSignature isConstructor) [params, result, typeParams]

def typeMember (self : Rules) : P Node := do
  if ← isOneOf ["(", "<"] then callSignature self false
  else if ← isWord "new" <&&> (peekSign "(" <||> peekSign "<") then callSignature self true
  else
    let lo ← position
    let isReadonly := (← eatModifier ["readonly"]).isSome
    match ← indexSignature? self lo isReadonly false with
    | some n => return n
    | none =>
      match ← accessorSignature? self lo isReadonly with
      | some n => return n
      | none => keyedSignature self lo isReadonly

def typeMembers (self : Rules) : P (List Node) :=
  typed do
    expect "\x7b"
    let members ← gather do
      if ← isSign "\x7d" then return none else return some (← typeMember self)
    expect "\x7d"
    return members

def startsMappedType : P Bool :=
  foresees do
    advance
    if ← eat "+" <||> eat "-" then isWord "readonly"
    else
      let _ ← eatWord "readonly"
      if !(← eat "[") then return false
      else if !(← nameHere) then return false
      else
        advance
        isWord "in"

/-- The mark of a mapped type before a word or a question mark. -/
def mappedMark (token : Token) : P String := do
  if ← isOneOf ["+", "-"] then
    let sign ← current
    advance
    expectToken token
    return sign.dump
  else if ← eatToken token then return "yes"
  else return ""

def mappedType (self : Rules) : P Node := do
  let lo ← position
  expect "\x7b"
  let readonlyMark ← mappedMark (.word "readonly")
  expect "["
  let name ← anyWord
  let constraint ← typeBehind self (.word "in")
  let nameType ← typeAfter self (.word "as")
  expect "]"
  let optionalMark ← mappedMark (.punct "?")
  let type ← typeAfter self (.punct ":")
  expectSemicolon
  expect "\x7d"
  node lo (.typeMapped name readonlyMark optionalMark) [constraint, nameType, type]

/-! ## Tuples -/

/-- The name of an element of a tuple type, whether it is optional, and whether dots stand before
it. -/
def elementLabel : P (Option (String × Bool × Bool)) :=
  attempt do
    let isRest ← eat "..."
    let name ← anyWord
    let isOptional ← eat "?"
    expect ":"
    return some (name, isOptional, isRest)

def tupleElement (self : Rules) : P Node := do
  let lo ← position
  let label ← elementLabel
  let start ← position
  let isRest ← eat "..."
  let type ← anyType self
  let isOptional ← (if isRest then return false else eat "?")
  match label with
  | none => node lo (.typeTupleElement none isOptional isRest) [type]
  | some (name, optional, rest) =>
    let inner ← (do
      if isRest || isOptional then node start (.typeTupleElement none isOptional isRest) [type]
      else return type)
    node lo (.typeTupleElement (some name) optional rest) [inner]

def isRequiredElement (n : Node) : Bool :=
  match n.form, n.parts with
  | .typeTupleElement none isOptional isRest, _ => !isOptional && !isRest
  | .typeTupleElement (some _) _ _, [inner] => !(inner.form matches .typeTupleElement ..)
  | _, _ => true

/-- Whether an element of a tuple type may be missing, and is not just the rest. -/
def isOptionalElement (n : Node) : Bool :=
  match n.form, n.parts with
  | .typeTupleElement none true false, _ => true
  | .typeTupleElement (some _) _ _, [inner] => (inner.form matches .typeTupleElement none true false)
  | _, _ => false

def tupleType (self : Rules) : P Node := do
  let lo ← position
  expect "["
  let elements ← delimited (isSign "]") (tupleElement self)
  expect "]"
  if (elements.dropWhile (!isOptionalElement ·)).any isRequiredElement then
    failAt (← spanFrom lo) .requiredBehindOptional
  node lo .typeTuple elements

/-! ## Types without operators -/

/-- The types that are single words. -/
def typeWords : List String :=
  ["any", "bigint", "boolean", "intrinsic", "never", "null", "number", "object", "string", "symbol",
    "undefined", "unknown", "void"]

def typeReference (self : Rules) (lo : Nat) : P Node := do
  let isModified ← eatParameterWord
  let name ← entityName
  let args ← optTypeArguments self
  if isModified then note (← spanFrom lo) .parameterModifier
  node lo (.typeReference name) [args]

def importType (self : Rules) (lo : Nat) : P Node := do
  advance
  expect "("
  let start ← position
  let argument ← (do
    match ← required with
    | .str value raw =>
      advance
      node start (.str ⟨value, some raw⟩)
    | _ =>
      advance
      note (← lastSpan) .importTypeText
      node start (.str ⟨"", some "\"\""⟩))
  expect ")"
  let qualifier ← (do if ← eat "." then entityName false else return "")
  let args ← (do if ← isSign "<" then typeArguments self else return Node.missing)
  node lo (.typeImport qualifier) [argument, args]

/-- The type of a value. -/
def typeQuery (self : Rules) (lo : Nat) : P Node := do
  advance
  if ← isWord "import" then
    let start ← position
    let inner ← importType self start
    node lo (.typeOperator "typeof") [inner]
  else
    let name ← entityName
    let args ← optTypeArguments self
    node lo (.typeQuery name) [args]

/-- What is said about `this`, from that word on. -/
def thisPredicate (self : Rules) (lo : Nat) (isAsserts : Bool) : P Node := do
  advance
  if (← isWord "is") && (isAsserts || !(← afterLineBreak)) then
    advance
    let type ← anyType self
    node lo (.typePredicate "this" isAsserts) [type]
  else if isAsserts then node lo (.typePredicate "this" true) [Node.missing]
  else node lo (.typeWord "this")

def wordType (self : Rules) (lo : Nat) (text : String) : P Node := do
  match text with
  | "import" => importType self lo
  | "typeof" => typeQuery self lo
  | "this" => thisPredicate self lo false
  | "true" | "false" =>
    advance
    let inner ← node lo (.bool (text == "true"))
    node lo .typeLiteral [inner]
  | _ =>
    if isKeyword text && !(["void", "yield", "null", "await", "break"].contains text) then
      failUnexpected typeStarts
    else if ← pure (text == "asserts") <&&> peekWord "this" then
      advance
      thisPredicate self lo true
    else if ← pure (typeWords.contains text) <&&> notM (peekSign ".") then
      advance
      node lo (.typeWord text)
    else typeReference self lo

def negativeType (lo : Nat) : P Node := do
  advance
  match ← current with
  | .num value raw =>
    advance
    let inner ← node lo (.num value.negate (some ("-" ++ raw)))
    node lo .typeLiteral [inner]
  | .bigint _ raw =>
    advance
    let inner ← node lo (.verbatim ("-" ++ raw))
    node lo .typeLiteral [inner]
  | _ => failUnexpected "numeric literal or bigint literal"

def primaryType (self : Rules) : P Node := do
  let token ← required
  let lo ← position
  match ← literal? with
  | some inner => node lo .typeLiteral [inner]
  | none =>
    match token with
    | .word text => wordType self lo text
    | .punct "-" => negativeType lo
    | .punct "`" =>
      let (quasis, types) ← templateParts false (anyType self)
      node lo (.typeTemplate quasis) types
    | .punct "\x7b" =>
      if ← startsMappedType then mappedType self
      else
        let members ← typeMembers self
        node lo .typeObject members
    | .punct "[" => tupleType self
    | .punct "(" =>
      advance
      let inner ← anyType self
      expect ")"
      node lo .typeParen [inner]
    | _ => failUnexpected typeStarts

def postfixType (self : Rules) : P Node := do
  let lo ← position
  let first ← primaryType self
  grow (fun inner => do
    if ← notM afterLineBreak <&&> eat "[" then
      if ← eat "]" then return some (← node lo .typeArray [inner])
      else
        let index ← anyType self
        expect "]"
        return some (← node lo .typeIndexed [inner, index])
    else return none) first

/-! ## Operators -/

/-- A type that is to be found out, behind its word. -/
def inferredType (self : Rules) (lo : Nat) : P Node := do
  let name ← anyWord
  let constraint ← attempt do
    if ← eatWord "extends" then
      let type ← within (fun c => { c with noConditionalType := true }) (self .type)
      if (← context).noConditionalType || !(← isSign "?") then return some type else return none
    else return none
  node lo (.typeInfer name) [constraint.getD Node.missing]

/-- A type with words before it; the words are taken outside in. -/
def operatorType (self : Rules) : P Node := do
  let heads ← gather do
    match ← current with
    | .word text =>
      if text == "keyof" || text == "unique" || text == "readonly" then
        let lo ← position
        advance
        return some (lo, text)
      else return none
    | _ => return none
  let lo ← position
  let inner ← (do if ← eatWord "infer" then inferredType self lo else postfixType self)
  heads.reverse.foldlM (fun inner head => node head.1 (.typeOperator head.2) [inner]) inner

/-- Types with one sign between them; a single type stands for itself. -/
def typesBetween (sign : String) (form : Form) (item : P Node) : P Node := do
  let lo ← position
  let _ ← eat sign
  let first ← item
  let more ← gather do
    if ← eat sign then return some (← item) else return none
  if more.isEmpty then return first else node lo form (first :: more)

/-- A type that is no conditional type. -/
def plainType (self : Rules) : P Node := do
  let lo ← position
  if ← startsFunctionType self then functionType self lo false false
  else if ← isWord "abstract" <&&> peekWord "new" then
    advance
    advance
    functionType self lo true true
  else if ← eatWord "new" then functionType self lo true false
  else
    typesBetween "|" .typeUnion (typesBetween "&" .typeIntersection (operatorType self))

def type (self : Rules) : P Node := do
  let lo ← position
  let checked ← plainType self
  let allowsCondition := !(← context).noConditionalType && !(← afterLineBreak)
  if ← pure allowsCondition <&&> eatWord "extends" then
    let bound ← within (fun c => { c with noConditionalType := true }) (plainType self)
    expect "?"
    let yes ← anyType self
    expect ":"
    let no ← anyType self
    node lo .typeConditional [checked, bound, yes, no]
  else return checked

end CallExpander.Code
