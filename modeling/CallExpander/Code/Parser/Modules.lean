import CallExpander.Code.Parser.Statements

/-!
Imports and exports.
-/

namespace CallExpander.Code

/-! ## Sources and names -/

def sourceText : P (StringLiteral × Origin) := do
  match ← required with
  | .str value raw =>
    advance
    return (⟨value, some raw⟩, .file (← lastSpan))
  | _ => failUnexpected "a string literal"

/-- Attributes of an import on the same line, if there are any. Only where types can be written are
they known. -/
def attributes (self : Rules) : P Node := do
  if (← hasTypes) && !(← afterLineBreak) && (← isOneOfWords ["assert", "with"]) then
    advance
    objectLiteral self
  else return Node.missing

def exportSource (self : Rules) : P (List Node) := do
  expectWord "from"
  let (literal, origin) ← sourceText
  let attributes ← attributes self
  expectSemicolon
  return [.mk (.str literal) origin [], attributes]

def placedWord : P Name := do
  let text ← anyWord
  return ⟨text, .file (← lastSpan)⟩

def placedBinding : P Name := do
  let text ← bindingName
  return ⟨text, .file (← lastSpan)⟩

/-- A name that an import binds for the whole module. -/
def importedName : P Name :=
  within (fun c => { c with inAsync := false, inGenerator := false }) placedBinding

def placeOf (origin : Origin) : Span := origin.span?.getD ⟨0, 0⟩

def exportName : P ExportName := do
  match ← current with
  | .str value raw =>
    advance
    return .str ⟨value, some raw⟩ (.file (← lastSpan))
  | .word _ => return .name (← placedWord)
  | _ => failUnexpected "identifier or string"

/-! ## Imports -/

/-- Notes a mark for a type in a list that is marked itself. -/
def noteMarked (listIsTypes : Bool) (mark : Name) (problem : Problem) : P Unit := do
  if listIsTypes then note (placeOf mark.origin) problem

/-- An entry of an import list behind what it imports. -/
def importedAs (lo : Nat) (imported : Name) (typeOnly : Bool) : P ImportSpecifier := do
  if ← eatWord "as" then
    let localName ← placedBinding
    return .named localName (some (.name imported)) typeOnly (.file (← spanFrom lo))
  else
    if (← context).reserves imported.text then failAt (placeOf imported.origin) .reservedImport
    return .named imported none typeOnly (.file (← spanFrom lo))

def importedTypeAs (lo : Nat) (listIsTypes : Bool) (mark second : Name) : P ImportSpecifier := do
  if !(← wordHere) then
    noteMarked listIsTypes mark .typeImportTwice
    return .named second none true (.file (← spanFrom lo))
  else
    let third ← placedBinding
    if third.text == "as" && (← wordHere) then
      let localName ← placedBinding
      noteMarked listIsTypes mark .typeImportTwice
      return .named localName (some (.name second)) true (.file ⟨lo, (placeOf mark.origin).hi⟩)
    else
      let hi := if third.text == "as" then (placeOf third.origin).hi else (placeOf mark.origin).hi
      return .named third (some (.name mark)) false (.file ⟨lo, hi⟩)

/-- One entry of an import list. The word `type` may be a mark, or a name like any other. -/
def importSpecifier (listIsTypes : Bool) : P ImportSpecifier := do
  let lo ← position
  match ← exportName with
  | .name first =>
    if (← hasTypes) && first.text == "type" && (← wordHere) then
      let second ← placedWord
      if second.text == "as" then importedTypeAs lo listIsTypes first second
      else
        noteMarked listIsTypes first .typeImportTwice
        importedAs lo second true
    else importedAs lo first false
  | .str literal origin =>
    if ← eatWord "as" then
      let localName ← placedBinding
      return .named localName (some (.str literal origin)) false (.file (← spanFrom lo))
    else failAt (placeOf origin) (.importString literal.value)

def bracedList {α : Type} (item : P α) : P (List α) := do
  let found ← commaItems "\x7d" item
  expect "\x7d"
  return found

/-- The names of an import outside its default one: all under one name, or some of them in a list. -/
def importList (typeOnly : Bool) : P (List ImportSpecifier) := do
  if ← eat "*" then
    expectWord "as"
    return [.namespace (← importedName)]
  else if ← eat "\x7b" then bracedList (importSpecifier typeOnly)
  else return []

/-- How an import starts: the words that mark it, and the name of its default import. -/
structure ImportHead where
  typeOnly : Bool := false
  phase : ImportPhase := .evaluation
  name : Option Name := none

/-- What the word `type` behind `import` means, where it has been taken as a name. -/
def typeHead (word : Name) : P ImportHead := do
  if ← isOneOf ["*", "\x7b"] then return { typeOnly := true }
  else if ← nameHere then
    if ← notM (isWord "from") <||> peekWord "from" then
      return { typeOnly := true, name := some (← importedName) }
    else if ← peekSign "=" then return { typeOnly := true, name := some (← placedWord) }
    else return { name := some word }
  else return { name := some word }

/-- What a word that names a phase means behind `import`, where it has been taken as a name. -/
def phaseHead (phase : ImportPhase) (head : ImportHead) : P ImportHead := do
  if ← isOneOf ["*", "\x7b"] then return { head with phase, name := none }
  else if ← (nameHere <&&> notM (isWord "from")) <||> peekWord "from" then
    return { head with phase, name := some (← importedName) }
  else return head

def namedHead : P ImportHead := do
  let word ← importedName
  let head ← (do
    if (← hasTypes) && word.text == "type" then typeHead word else return { name := some word })
  match head.name.map Name.text with
  | some "source" => phaseHead .source head
  | some "defer" => phaseHead .defer head
  | _ => return head

def importFrom (self : Rules) (lo : Nat) (head : ImportHead) : P Node := do
  if head.name.isSome && !(← isWord "from") then expect ","
  let more ← importList head.typeOnly
  expectWord "from"
  let (source, sourceOrigin) ← sourceText
  let attributes ← attributes self
  expectSemicolon
  let specifiers := (head.name.map ImportSpecifier.default).toList ++ more
  node lo
    (.importDecl { specifiers, source, typeOnly := head.typeOnly, phase := head.phase, sourceOrigin })
    [attributes]

def nodeOfName (name : Name) : Node := .mk (.name name.text) name.origin []

def importDeclaration (self : Rules) : P Node := do
  let lo ← position
  advance
  if ← hasTypes <&&> nameHere <&&> peekSign "=" then
    let name ← nameNode
    importEqualsFrom lo name false false
  else if (← current).isString then
    let (source, sourceOrigin) ← sourceText
    let attributes ← attributes self
    expectSemicolon
    node lo (.importDecl { specifiers := [], source, sourceOrigin }) [attributes]
  else if ← nameHere then
    let head ← namedHead
    match head.name with
    | some name =>
      if head.typeOnly && (← isSign "=") then
        importEqualsFrom lo (nodeOfName name) false true
      else importFrom self lo head
    | none => importFrom self lo head
  else importFrom self lo {}

/-! ## Exports -/

def exportedTypeAs (lo : Nat) (listIsTypes : Bool) (mark second : Name) : P ExportSpecifier := do
  if !(← wordHere) then
    noteMarked listIsTypes mark .typeExportTwice
    return .named (.name second) none true (.file (← spanFrom lo))
  else
    let third ← placedWord
    let origin := Origin.file ⟨lo, (placeOf mark.origin).hi⟩
    if third.text == "as" && (← wordHere) then
      let exported ← placedWord
      noteMarked listIsTypes mark .typeExportTwice
      return .named (.name second) (some (.name exported)) true origin
    else return .named (.name mark) (some (.name third)) false origin

/-- An entry of an export list behind what it exports. -/
def exportedAs (lo : Nat) (name : ExportName) (typeOnly : Bool) : P ExportSpecifier := do
  let exported ← (do
    if ← eatWord "as" then return some (← exportName) else return none)
  return .named name exported typeOnly (.file (← spanFrom lo))

/-- One entry of an export list. The word `type` may be a mark, or a name like any other. -/
def exportSpecifier (listIsTypes : Bool) : P ExportSpecifier := do
  let lo ← position
  match ← exportName with
  | .name first =>
    if (← hasTypes) && first.text == "type" && (← wordHere) then
      let second ← placedWord
      if second.text == "as" then exportedTypeAs lo listIsTypes first second
      else
        noteMarked listIsTypes first .typeExportTwice
        exportedAs lo (.name second) true
    else exportedAs lo (.name first) false
  | name => exportedAs lo name false

/-- Whether a word can be no name in any code. -/
def isReservedEverywhere (word : String) : Bool :=
  (isKeyword word && !(["await", "let", "yield"].contains word)) || word == "enum" || word == "package"

/-- Notes what an export list without a source cannot hold. -/
def noteSourceless : ExportSpecifier → P Unit
  | .named (.name name) _ _ _ =>
    if isReservedEverywhere name.text then note (placeOf name.origin) (.exportWithoutSource name.text)
    else pure ()
  | .named (.str _ origin) _ _ _ => note (placeOf origin) .exportString
  | .namespace .. => pure ()

def exportList (self : Rules) (lo : Nat) (typeOnly : Bool) : P Node := do
  expect "\x7b"
  let specifiers ← bracedList (exportSpecifier typeOnly)
  if ← isWord "from" then
    let source ← exportSource self
    node lo (.exportNamed specifiers typeOnly) source
  else
    specifiers.forM noteSourceless
    let _ ← eatSemicolon
    node lo (.exportNamed specifiers typeOnly) [Node.missing, Node.missing]

def exportEverything (self : Rules) (lo start : Nat) (typeOnly : Bool) : P Node := do
  advance
  if ← eatWord "as" then
    let name ← exportName
    let entry := ExportSpecifier.namespace name (.file (← spanFrom start))
    let source ← exportSource self
    node lo (.exportNamed [entry] typeOnly) source
  else
    let source ← exportSource self
    node lo (.exportAll typeOnly) source

/-- The declaration that is the default export, if it is one and no expression. -/
def defaultDeclaration? (self : Rules) : P (Option Node) := do
  let start ← position
  match ← current with
  | .word "abstract" =>
    if ← hasTypes <&&> peekInLine "class" then
      advance
      return some (← classFrom self start .declaration false true)
    else return none
  | .word "interface" =>
    if ← hasTypes then
      advance
      return some (← interfaceFrom self start)
    else return none
  | .word "class" => return some (← classFrom self start .declaration false false)
  | .word "async" =>
    if ← peekInLine "function" then
      advance
      return some (← functionFrom self start .declaration true false)
    else return none
  | .word "function" => return some (← functionFrom self start .declaration false false)
  | _ => return none

def exportDefault (self : Rules) (lo : Nat) : P Node := do
  match ← defaultDeclaration? self with
  | some inner => node lo .exportDefaultDecl [inner]
  | none =>
    let inner ← freely self .assignment
    expectSemicolon
    node lo .exportDefaultExpr [inner]

def exportedDeclaration? (self : Rules) : P (Option Node) := do
  let start ← position
  match ← current with
  | .word "class" => return some (← classFrom self start .declaration true false)
  | .word "async" =>
    if ← peekInLine "function" then
      advance
      return some (← functionFrom self start .declaration true true)
    else return none
  | .word "function" => return some (← functionFrom self start .declaration false true)
  | .word text =>
    if ← hasTypes <&&> pure (text == "const") <&&> peekWord "enum" then
      advance
      advance
      return some (← enumFrom self start true)
    else
      match ← varKindHere with
      | some kind => return some (← varStatement self kind)
      | none => return none
  | _ => return none

/-- An export that only types make possible, behind its keyword. -/
def typedExport? (self : Rules) (lo : Nat) : P (Option Node) := do
  let start ← position
  let exported ← (do
    match ← required with
    | .word text => attempt (wordDeclaration? self start text true)
    | _ => return none)
  match exported with
  | some inner => return some (← node lo .exportDecl [inner])
  | none =>
    if ← eatWord "import" then
      let typeOnly ← (do
        if ← isWord "type" <&&> peekName then eatWord "type" else return false)
      let name ← nameNode
      return some (← importEqualsFrom lo name true typeOnly)
    else if ← eat "=" then
      let inner ← self .expression
      expectSemicolon
      return some (← node lo .exportAssign [inner])
    else if ← eatWord "as" then
      expectWord "namespace"
      let inner ← position
      let text ← plainName false false
      let name ← node inner (.name text)
      expectSemicolon
      return some (← node lo .exportAsNamespace [name])
    else return none

def exportedDeclare? (self : Rules) (lo : Nat) : P (Option Node) := do
  let start ← position
  if ← hasTypes <&&> eatWord "declare" then
    match ← declaration? self start with
    | some inner => return some (← node lo .exportDecl [inner])
    | none => return none
  else return none

def plainExport (self : Rules) (lo : Nat) : P Node := do
  let start ← position
  let typeOnly ← (do if ← hasTypes then eatWord "type" else return false)
  if ← pure !typeOnly <&&> eatWord "default" then exportDefault self lo
  else
    match ← (if typeOnly then return none else exportedDeclaration? self) with
    | some inner => node lo .exportDecl [inner]
    | none =>
      if ← isSign "*" then exportEverything self lo start typeOnly
      else exportList self lo typeOnly

def exportDeclaration (self : Rules) : P Node := do
  let lo ← position
  advance
  let _ ← required
  match ← exportedDeclare? self lo with
  | some n => return n
  | none =>
    match ← (do if ← hasTypes then typedExport? self lo else return none) with
    | some n => return n
    | none => plainExport self lo

/-! ## Items -/

def importItem (self : Rules) : P Node := do
  let lo ← position
  if ← peekSign "(" <||> peekSign "." then
    let inner ← self .expression
    let _ ← eatSemicolon
    node lo .exprStmt [inner]
  else importDeclaration self

def item (self : Rules) : P Node := do
  match ← current with
  | .word "import" => importItem self
  | .word "export" => exportDeclaration self
  | _ => self .declaration

end CallExpander.Code
