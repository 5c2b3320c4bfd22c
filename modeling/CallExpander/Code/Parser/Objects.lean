import CallExpander.Code.Parser.Classes

/-!
Arrays and objects.
-/

namespace CallExpander.Code

/-- Remembers the last comma of an array or an object. -/
def keepComma (lo : Nat) (comma : Span) : P Unit :=
  modify fun s => { s with commas := (lo, comma) :: s.commas }

def arrayLiteral (self : Rules) : P Node :=
  within (fun c => { c with awaitsColon := false }) do
    let lo ← position
    advance
    let elements ← gather do
      if (← atEnd) || (← isSign "]") then return none
      else if ← eat "," then return some (Node.build .hole)
      else
        let element ← spreadable self
        if !(← isSign "]") then
          expect ","
          let comma ← lastSpan
          if ← isSign "]" then keepComma lo comma
        return some element
    expect "]"
    node lo .array elements

def objectMethod (self : Rules) (lo : Nat) (isAsync isGenerator : Bool) (key : Node) : P Node := do
  let function ← methodFunction self true isAsync isGenerator (formalParameters self)
  node lo .objectMethod [key, function]

def objectAccessor (self : Rules) (lo : Nat) (kind : MethodKind) (key : Node)
    (params : P (List Node)) : P Node := do
  let function ← methodFunction self true false false params
  match function.parts with
  | [_, params, body, _, result] =>
    node lo (.objectAccessor kind)
      [key, params, if kind == .getter then result else Node.missing, body]
  | _ => return function

def followsKey (key : Node) : Token → Bool
  | .punct "\x7d" => (key.form matches .name _)
  | .punct sign => ["(", "[", ":", ",", "?", "=", "*", "<"].contains sign
  | token => token.isWord || token.isString || token.isNumber

/-- A property that starts with a word for what it is, behind that word. -/
def markedProperty (self : Rules) (lo : Nat) (word : String) : P Node := do
  let isGenerator ← (if word == "async" then eat "*" else return false)
  let key ← propertyKey self
  match word with
  | "get" => objectAccessor self lo .getter key (getterParameters self key.span)
  | "set" => objectAccessor self lo .setter key (setterParameters self key.span)
  | _ => objectMethod self lo true isGenerator key

/-- A property whose key is a plain name, behind that name: the name may stand for its value, or be a
word for what the property is. -/
def namedProperty (self : Rules) (lo : Nat) (key : Node) (text : String) (modified : Option Span) :
    P Node := do
  if ← eat "?" then note (← lastSpan) .optionalProperty
  let name := Node.mk (.ident text false) key.origin []
  if ← isOneOf ["=", ",", "\x7d"] then
    if ← eat "=" then
      let value ← freely self .assignment
      node lo .shorthandDefault [name, value]
    else return name
  else if text == "get" || text == "set" || text == "async" then
    if let some span := modified then note span .asyncHere
    markedProperty self lo text
  else if ← hasTypes then
    failUnexpected ("... , *,  (, [, :, , ?, =, an identifier, public, protected, private, readonly, "
      ++ "<.")
  else failUnexpected "... , *,  (, [, :, , ?, = or an identifier"

def objectProperty (self : Rules) : P Node := do
  let lo ← position
  if ← isSign "..." then spreadable self
  else if ← eat "*" then
    let key ← propertyKey self
    objectMethod self lo false true key
  else
    let isModified ← eatParameterWord
    let wordSpan ← lastSpan
    let key ← propertyKey self
    let hasTypes ← hasTypes
    if hasTypes && !followsKey key (← current) then
      noteHere .semicolon
      node lo .property [key, invalidNode (← spanFrom lo)]
    else if ← eat ":" then
      let value ← freely self .assignment
      node lo .property [key, value]
    else if (← isSign "(") || (hasTypes && (← isSign "<")) then
      objectMethod self lo false false key
    else
      match key.form with
      | .name text => namedProperty self lo key text (if isModified then some wordSpan else none)
      | _ => failUnexpected "identifier"

def objectLiteral (self : Rules) : P Node :=
  within (fun c => { c with awaitsColon := false }) do
    let lo ← position
    let (properties, comma) ← bracedProperties (objectProperty self)
    if let some span := comma then keepComma lo span
    node lo .object properties

end CallExpander.Code
