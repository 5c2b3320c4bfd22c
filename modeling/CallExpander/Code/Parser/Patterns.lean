import CallExpander.Code.Parser.Names

/-!
Patterns that bind names, and parameters.
-/

namespace CallExpander.Code

/-- A type where a conditional type may start. -/
def anyType (self : Rules) : P Node :=
  within (fun c => { c with inType := true, noConditionalType := false }) (self .type)

def optType (self : Rules) : P Node := do
  if (← hasTypes) && (← isSign ":") then
    advance
    anyType self
  else return Node.missing

/-! ## Patterns -/

def bindingElement (self : Rules) : P Node := do
  let lo ← position
  let element ← self .pattern
  if ← eat "=" then
    let value ← freely self .assignment
    if (← context).inDeclare then note (← spanFrom lo) .defaultWithoutBody
    node lo .patternDefault [element, value]
  else return element

def restElement (self : Rules) (lo : Nat) : P Node := do
  let inner ← self .pattern
  node lo .rest [inner]

/-- What has been read of the elements of an array pattern. -/
structure Elements where
  /-- The elements, the last one first. -/
  found : List Node := []
  /-- Commas that no element has followed yet. -/
  commas : Nat := 0
  rest : Option Span := none

def nextElement (self : Rules) (read : Elements) : P (Option Elements) := do
  if (← atEnd) || (← isSign "]") then return none
  else if ← eat "," then return some { read with commas := read.commas + 1 }
  else
    if let some span := read.rest then note span .restNotLast
    let lo ← position
    let isRest ← eat "..."
    let element ← (if isRest then restElement self lo else bindingElement self)
    let rest := if isRest then some element.span else read.rest
    if !(← isSign "]") then
      expect ","
      if isRest && (← isSign "]") then note (← lastSpan) .commaBehindRest
    let holes := List.replicate read.commas (Node.build .hole)
    return some { found := element :: holes ++ read.found, rest }

/-- An array pattern. Commas behind its last element are dropped. -/
def arrayPattern (self : Rules) : P Node := do
  let lo ← position
  advance
  let read ← grow (nextElement self) {}
  expect "]"
  node lo .arrayPattern read.found.reverse

def patternProperty (self : Rules) : P Node := do
  let lo ← position
  if ← eat "..." then restElement self lo
  else
    let key ← propertyKey self
    if ← eat ":" then
      let value ← bindingElement self
      node lo .patternProperty [key, value]
    else
      match key.form with
      | .name text =>
        let name := Node.mk (.ident text false) key.origin []
        if ← eat "=" then
          let value ← freely self .assignment
          node lo .patternShorthand [name, value]
        else
          if (← context).reserves text then note key.span .reservedShorthand
          node lo .patternShorthand [name, Node.missing]
      | _ => failUnexpected "an identifier"

/-- What has been read of the properties of an object, the last one first, and the comma behind
them. -/
structure Properties where
  found : List Node := []
  comma : Option Span := none

/-- Properties in braces, and the comma behind the last of them. -/
def bracedProperties (property : P Node) : P (List Node × Option Span) := do
  advance
  let read ← grow (fun (read : Properties) => do
    if ← eat "\x7d" then return none
    else
      let found := (← property) :: read.found
      if ← isSign "\x7d" then return some { found }
      else
        expect ","
        let span ← lastSpan
        return some { found, comma := if ← isSign "\x7d" then some span else none }) {}
  return (read.found.reverse, read.comma)

/-- Checks where a rest stands among the properties of an object pattern. -/
def checkRests (comma : Option Span) : List Node → P Unit
  | [] => return ()
  | n :: following => do
    match n.form, n.parts with
    | .rest, [inner] =>
      if !following.isEmpty then note n.span .restNotLast
      else
        match inner.form, comma with
        | .ident .., some span => note span .commaBehindRest
        | .ident .., none => pure ()
        | _, _ => failAt n.span .restWithoutName
    | _, _ => pure ()
    checkRests comma following

def objectPattern (self : Rules) : P Node := do
  let lo ← position
  let (properties, comma) ← within (fun c => { c with awaitsColon := false })
    (bracedProperties (patternProperty self))
  let n ← node lo .objectPattern properties
  checkRests comma properties
  return n

/-- A pattern that binds names; in some declarations `let` is none. -/
def bindingPattern (self : Rules) (refusesLet : Bool) : P Node := do
  match ← required with
  | .word _ => bindingNode refusesLet
  | .punct "[" => arrayPattern self
  | .punct "\x7b" => objectPattern self
  | _ => failUnexpected "yield, an identifier, [ or \x7b"

/-- A pattern that binds names. -/
def pattern (self : Rules) : P Node := bindingPattern self false

/-! ## Parameters -/

def followsModifier : Token → Bool
  | .punct sign => ["[", "\x7b", "*", "...", "#"].contains sign
  | token => token.isWord || token.isString || token.isNumber

/-- Takes one of some words, if it modifies what follows it on the same line. -/
def eatModifier (words : List String) (stopsAtBlock : Bool := false) : P (Option String) := do
  if !(← hasTypes) then return none
  else
    match ← required with
    | .word text =>
      if !words.contains text then return none
      else
        let (next, lineBreak) ← peekToken
        if stopsAtBlock && text == "static" && next == .punct "\x7b" then return none
        else if !lineBreak && followsModifier next then
          advance
          return some text
        else return none
    | _ => return none

/-- Takes a word that says who can use a member. -/
def eatAccess : P (Option String) := do
  match ← eatModifier ["public", "protected", "private", "in", "out"] with
  | some word =>
    if word == "in" || word == "out" then
      note (← lastSpan) (.varianceModifier word)
      return none
    else return some word
  | none => return none

/-- Takes a word before a parameter that only the parameters of a constructor can have. -/
def eatParameterWord : P Bool := do
  if !(← hasTypes) then return false
  else if ← isOneOfWords ["public", "protected", "private", "readonly"] then
    match ← peekToken with
    | (.word _, _) | (.punct "\x7b", _) | (.punct "[", _) =>
      let _ ← eatModifier ["public", "protected", "private", "readonly"]
      return true
    | _ => return false
  else return false

/-- Whether a pattern is a name or has brackets or braces. -/
def isBarePattern (n : Node) : Bool :=
  match n.form with
  | .ident .. | .arrayPattern | .objectPattern => true
  | _ => false

def optionalMark (inner : Node) : P Bool := do
  if ← hasTypes <&&> eat "?" then
    if isBarePattern inner then return true
    else if (← context).inDeclare then return false
    else failAt (← lastSpan) .optionalPattern
  else return false

def annotated (self : Rules) (lo : Nat) (isOptional : Bool) (inner : Node) : P Node := do
  let type ← optType self
  if inner.form matches .patternDefault then
    if !type.isAbsent then note (← spanFrom lo) .annotationBehindDefault
    return inner
  else if type.isAbsent && !isOptional then return inner
  else node lo (.annotated (if isOptional then "?" else "")) [inner, type]

def parameter (self : Rules) : P Node := do
  let lo ← position
  let isModified ← eatParameterWord
  let start ← position
  let inner ← bindingElement self
  let isOptional ← optionalMark inner
  let param ← annotated self start isOptional inner
  let param ← (do
    if ← eat "=" then
      if isOptional then
        note (if inner.form matches .ident .. then inner.span else param.span) .optionalWithDefault
      let value ← freely self .assignment
      if (← context).inDeclare then note (← spanFrom lo) .defaultWithoutBody
      node lo .patternDefault [param, value]
    else return param)
  if isModified then note (← spanFrom lo) .parameterModifier
  return param

/-- A pattern with its type as what three dots stand before. -/
def typedRest (self : Rules) (lo : Nat) (inner : Node) : P Node := do
  let type ← optType self
  if type.isAbsent then node lo .rest [inner]
  else
    let typed ← node inner.start (.annotated "") [inner, type]
    node lo .rest [typed]

def restParameter (self : Rules) (lo : Nat) : P Node := do
  let inner ← self .pattern
  let inner ← (do
    if ← eat "=" then
      let value ← freely self .assignment
      note inner.span .restParameterDefault
      node lo .patternDefault [inner, value]
    else return inner)
  let rest ← typedRest self lo inner
  if ← hasTypes <&&> eat "?" then note (← lastSpan) .restParameterOptional
  return rest

/-- The next parameter of a list, where `read` holds those before, the last one first. -/
def nextParameter (one : P Node) (rest : Nat → P Node) (read : List Node) :
    P (Option (List Node)) := do
  if (← atEnd) || (← isSign ")") then return none
  else
    read.forM fun n => do
      if n.form matches .rest then note n.span .restParameterNotLast
    let lo ← position
    let param ← (do if ← eat "..." then rest lo else one)
    if !(← isSign ")") then
      expect ","
      if (param.form matches .rest) && (← isSign ")") then note (← lastSpan) .commaBehindRest
    return some (param :: read)

def formalParameters (self : Rules) : P (List Node) :=
  return (← grow (nextParameter (parameter self) (restParameter self)) []).reverse

def constructorParameter (self : Rules) : P Node := do
  let lo ← position
  let access ← eatAccess
  let isOverride := (← eatModifier ["override"]).isSome
  let isReadonly := (← eatModifier ["readonly"]).isSome
  let mods : Modifiers := { access, isOverride, isReadonly }
  let param ← parameter self
  if mods == {} then return param
  else
    let isNamed := match param.form, param.parts with
      | .ident .., _ | .patternDefault, _ => true
      | .annotated _, inner :: _ => (inner.form matches .ident ..)
      | _, _ => false
    if isNamed then node lo (.parameterProperty mods) [param]
    else failAt param.span .parameterPropertyPattern

def constructorParameters (self : Rules) : P (List Node) := do
  let rest (lo : Nat) : P Node := do typedRest self lo (← self .pattern)
  return (← grow (nextParameter (constructorParameter self) rest) []).reverse

def isSimpleParameter : Node → Bool
  | .mk (.ident ..) _ _ => true
  | .mk (.annotated _) _ (inner :: _) => isSimpleParameter inner
  | .mk (.parameterProperty _) _ [inner] => isSimpleParameter inner
  | _ => false

end CallExpander.Code
