import CallExpander.Code.Parser.Types

/-!
Markup elements. How a token is read depends on where it stands: inside a tag there are names with
hyphens, between tags there is text, and inside braces there is program text again.
-/

namespace CallExpander.Code

def inMode {α : Type} (mode : Mode) (p : P α) : P α :=
  within (fun c => { c with mode }) p

def markupWord : P Node := do
  match ← required with
  | .markupName text =>
    let lo ← position
    advance
    node lo (.name text)
  | _ => failUnexpected "jsx identifier"

/-- A name with a space name before it, if a colon stands between them. -/
def spacedName : P Node := do
  let first ← markupWord
  if ← eat ":" then
    let second ← markupWord
    node first.start (.name (nameText first ++ ":" ++ nameText second))
  else return first

/-- The name of an element: words with points or a colon between them. -/
def elementName : P Node := do
  let first ← spacedName
  grow (fun name => do
    if ← eat "." then
      let word ← markupWord
      return some (← node name.start (.name (nameText name ++ "." ++ nameText word)))
    else return none) first

/-- The expression in braces, from the opening one on. Dots before the expression have no meaning. -/
def markupContainer (self : Rules) : P Node := do
  let lo ← position
  advance
  let inner ← inMode .program do
    if ← isSign "\x7d" then return Node.missing
    else
      let _ ← eat "..."
      let inner ← self .expression
      let _ ← current
      return inner
  expect "\x7d"
  node lo .jsxContainer [inner]

/-- An expression behind three dots, in braces, from behind the opening one. -/
def spreadInBraces (self : Rules) (goal : Goal) : P Node := do
  let inner ← inMode .program do
    expect "..."
    let inner ← self goal
    let _ ← current
    return inner
  expect "\x7d"
  return inner

def attributeValue (self : Rules) : P Node :=
  within (fun c => { c with inConditional := false, awaitsColon := false }) do
    let lo ← position
    match ← required with
    | .punct "\x7b" =>
      let container ← markupContainer self
      if container.parts.any Node.isAbsent then failAt container.span .emptyAttribute
      return container
    | .str value raw =>
      advance
      node lo (.str ⟨value, some raw⟩)
    | .punct "<" | .tagStart => self .markup
    | _ => failHere .attributeValue

def markupAttribute (self : Rules) : P Node := do
  let lo ← position
  if ← eat "\x7b" then
    let inner ← spreadInBraces self .assignment
    node lo .jsxSpreadAttribute [inner]
  else
    let name ← spacedName
    let value ← behind "=" (attributeValue self)
    node lo .jsxAttribute [name, value]

/-- An opening tag, from behind its first sign, which stands at `lo`. -/
structure OpeningTag where
  /-- Missing in the tag of a fragment. -/
  name : Node
  typeArgs : Node := Node.missing
  attributes : List Node := []
  isClosed : Bool := false

def openingTag (self : Rules) : P OpeningTag := do
  if ← eatToken .tagEnd then return { name := Node.missing }
  else
    let name ← elementName
    let typeArgs ← (do
      if (← hasTypes) && (← isSign "<") then attempt do return some (← typeArguments self)
      else return none)
    let attributes ← gather do
      if (← atEnd) || (← isSign "/") || (← current) == .tagEnd then return none
      else return some (← markupAttribute self)
    let isClosed ← eat "/"
    if !(← eatToken .tagEnd) then failUnexpected "> (jsx closing tag)"
    return { name, typeArgs := typeArgs.getD Node.missing, attributes, isClosed }

def closingTag : P Node := do
  if ← eatToken .tagEnd then return Node.missing
  else
    let name ← elementName
    expectToken .tagEnd
    return name

/-- What has been read of the content of an element, the last part first, and its closing tag: the
name and where the tag stands. -/
structure Content where
  found : List Node := []
  closing : Option (Node × Span) := none

def nextContent (self : Rules) (read : Content) : P (Option Content) := do
  if read.closing.isSome then return none
  else
    let token ← required
    let lo ← position
    match token with
    | .tagStart =>
      if ← inMode .tag (peekSign "/") then
        let name ← inMode .tag do
          advance
          advance
          closingTag
        return some { read with closing := some (name, ← spanFrom lo) }
      else return some { found := (← self .markup) :: read.found }
    | .markupText value _ =>
      advance
      return some { found := (← node lo (.jsxText value)) :: read.found }
    | .punct "\x7b" =>
      if ← inMode .program (peekSign "...") then
        advance
        let inner ← spreadInBraces self .expression
        return some { found := (← node lo .jsxSpreadChild [inner]) :: read.found }
      else return some { found := (← markupContainer self) :: read.found }
    | _ => failUnexpected "< (jsx tag start), jsx text or \x7b"

/-- The text of the name of a tag, which may be missing. -/
def tagText (name : Node) : String := if name.isAbsent then "" else nameText name

def markup (self : Rules) : P Node := do
  let lo ← position
  let _ ← required
  let opening ← inMode .tag do
    advance
    openingTag self
  if opening.isClosed then
    node lo (.jsxElement true)
      [opening.name, Node.build .attributes opening.attributes, opening.typeArgs, Node.build .run]
  else
    let content ← inMode .content (grow (nextContent self) {})
    let inner := content.found.reverse
    match content.closing with
    | some (name, span) =>
      if tagText name != tagText opening.name || name.isAbsent != opening.name.isAbsent then
        failAt span (.closingTag (tagText opening.name))
    | none => pure ()
    if opening.name.isAbsent then node lo .jsxFragment inner
    else
      node lo (.jsxElement false)
        [opening.name, Node.build .attributes opening.attributes, opening.typeArgs,
          Node.build .run inner]

end CallExpander.Code
