import CallExpander.Code.Parser.Variables

/-!
Declarations of types, enumerations and namespaces, and of what is defined elsewhere.
-/

namespace CallExpander.Code

def nameNode : P Node := do
  let lo ← position
  let text ← anyWord
  node lo (.name text)

/-! ## Interfaces and aliases -/

/-- Notes a second list of what an interface extends, and skips it. -/
def skipSecondBases : P Unit := do
  if ← isWord "extends" then
    noteHere .baseTwice
    let _ ← gather do
      if (← atEnd) || (← isSign "\x7b") then return none
      else
        advance
        return some ()

def interfaceFrom (self : Rules) (lo : Nat) : P Node := do
  let name ← nameNode
  if builtInTypes.contains (nameText name) then note name.span .interfaceName
  let typeParams ← optTypeParameters self { allowsVariance := true, allowsConst := false }
  let bases ← (do
    if ← eatWord "extends" then return group (← heritageList self) else return Node.missing)
  skipSecondBases
  let members ← typeMembers self
  node lo (.interface false) [name, typeParams, bases, Node.build .members members]

def typeAliasFrom (self : Rules) (lo : Nat) : P Node := do
  let name ← nameNode
  let typeParams ← optTypeParameters self { allowsVariance := true, allowsConst := false }
  let type ← typeBehind self (.punct "=")
  expectSemicolon
  node lo (.typeAlias false) [name, typeParams, type]

/-! ## Enumerations -/

/-- The name that stands for one that a member of an enumeration cannot have. -/
def noMemberName (lo : Nat) : P Node := node lo (.str ⟨"", some "\"\""⟩)

def enumKey (self : Rules) : P Node := do
  let lo ← position
  match ← required with
  | .str value raw =>
    advance
    node lo (.str ⟨value, some raw⟩)
  | .num .. =>
    advance
    note (← spanFrom lo) .enumNumeric
    noMemberName lo
  | .punct "[" =>
    advance
    let _ ← self .expression
    note (← spanFrom lo) .enumComputed
    expect "]"
    noMemberName lo
  | _ => nameNode

/-- One member of an enumeration. A token that cannot follow its name is noted and taken for a
comma. -/
def enumMember (self : Rules) : P Node := do
  let lo ← position
  let key ← enumKey self
  if ← eat "=" then
    let value ← self .assignment
    node lo .enumMember [key, value]
  else
    let n ← node lo .enumMember [key, Node.missing]
    if !(← isOneOf [",", "\x7d"]) then
      let stray ← lexeme
      modify fun s => { s with
        cur := some { stray with token := .punct ",", lineBreak := false } }
      let pos ← position
      note ⟨pos, pos⟩ .semicolon
    return n

/-- The next member of an enumeration, where `read` holds those before, the last one first. A missing
comma is noted. -/
def nextEnumMember (self : Rules) (read : List Node) : P (Option (List Node)) := do
  if ← isSign "\x7d" then return none
  else
    let n ← enumMember self
    if !(← eat "," <||> isSign "\x7d") then noteHere (.expected "," (← current).dump)
    return some (n :: read)

def enumFrom (self : Rules) (lo : Nat) (isConst : Bool) : P Node := do
  let name ← nameNode
  expect "\x7b"
  let members := (← grow (nextEnumMember self) []).reverse
  expect "\x7d"
  let span ← spanFrom lo
  node lo (.enum isConst false) [name, .mk .enumMembers (.file span) members]

/-! ## Namespaces and modules -/

def moduleBlock (self : Rules) : P Node := do
  let lo ← position
  let items ← bracedStatements (self .item)
  node lo .moduleBlock items

/-- A namespace, from its name on; the name may have points in it. -/
def namespaceFrom (self : Rules) (lo : Nat) : P Node := do
  let first ← nameNode
  let name ← grow (fun name => do
    if ← eat "." then
      let more ← anyWord
      return some (← node name.start (.name (nameText name ++ "." ++ more)))
    else return none) first
  let body ← moduleBlock self
  node lo (.moduleDecl false false) [name, body]

/-- A module that is defined elsewhere, or the global scope, from its name on. -/
def ambientModule (self : Rules) (lo : Nat) : P Node := do
  let isGlobal ← isWord "global"
  let start ← position
  let name ← (do
    match ← required with
    | .word "global" => nameNode
    | .str value raw =>
      advance
      node start (.str ⟨value, some raw⟩)
    | _ => failUnexpected "global or a string literal")
  if ← isSign "\x7b" then
    let body ← moduleBlock self
    node lo (.moduleDecl isGlobal false) [name, body]
  else
    expectSemicolon
    node lo (.moduleDecl isGlobal false) [name, Node.missing]

/-- What an import with an equals sign names, from that sign on. -/
def importEqualsFrom (lo : Nat) (name : Node) (isExport typeOnly : Bool) : P Node := do
  expect "="
  let start ← position
  let target ← (do
    if ← isWord "require" <&&> peekSign "(" then
      advance
      advance
      let inner ← position
      match ← required with
      | .str value raw =>
        advance
        let text ← node inner (.str ⟨value, some raw⟩)
        expect ")"
        node start .externalModule [text]
      | _ => failUnexpected "a string literal"
    else
      let text ← entityName false
      node start (.name text))
  expectSemicolon
  node lo (.importEquals isExport typeOnly) [name, target]

/-! ## Declarations by their word -/

/-- Whether the current token is a name on the same line as the token before. -/
def nameInLine : P Bool := return (← nameHere) && !(← afterLineBreak)

/-- A declaration that starts with a word of its own, if what follows the word makes it one. The word
has been taken, unless it is `ahead`, where it is known to start a declaration. -/
def wordDeclaration? (self : Rules) (lo : Nat) (word : String) (ahead : Bool) : P (Option Node) := do
  let opens (test : P Bool) : P Bool := do
    if ahead then
      advance
      return true
    else test
  match word with
  | "abstract" =>
    if ← opens (return (← isWord "class") && !(← afterLineBreak)) then
      return some (← classFrom self lo .declaration true true)
    else return none
  | "enum" => if ← opens nameHere then return some (← enumFrom self lo false) else return none
  | "interface" => if ← opens nameHere then return some (← interfaceFrom self lo) else return none
  | "namespace" => if ← opens nameHere then return some (← namespaceFrom self lo) else return none
  | "type" => if ← opens nameInLine then return some (← typeAliasFrom self lo) else return none
  | "module" =>
    if ← afterLineBreak then return none
    else
      if ahead then advance
      if (← required).isString then return some (← ambientModule self lo)
      else if ahead || (← nameHere) then return some (← namespaceFrom self lo)
      else return none
  | _ => return none

/-- A declaration of what is defined elsewhere. -/
def declaredForm : Form → Form
  | .varDecl kind _ isHead => .varDecl kind true isHead
  | .function role isAsync isGenerator _ => .function role isAsync isGenerator true
  | .class role isAbstract _ => .class role isAbstract true
  | .interface _ => .interface true
  | .typeAlias _ => .typeAlias true
  | .enum isConst _ => .enum isConst true
  | .moduleDecl isGlobal _ => .moduleDecl isGlobal true
  | form => form

def behindDeclare? (self : Rules) (lo : Nat) : P (Option Node) := do
  match ← current with
  | .word "function" => return some (← functionFrom self lo .declaration false true)
  | .word "class" => return some (← classFrom self lo .declaration true false)
  | .word "var" => return some (← varStatement self .var)
  | .word "let" => return some (← varStatement self .let)
  | .word "const" =>
    if ← peekWord "enum" then
      advance
      advance
      return some (← enumFrom self lo true)
    else return some (← varStatement self .const)
  | .word "global" => return some (← ambientModule self lo)
  | .word text => wordDeclaration? self lo text true
  | _ => return none

/-- What is defined elsewhere, behind the word `declare`, which stands at `lo`. -/
def declaration? (self : Rules) (lo : Nat) : P (Option Node) := do
  if (← context).inDeclare then note (← spanFrom lo) .declareTwice
  let found ← within (fun c => { c with inDeclare := true }) (behindDeclare? self lo)
  match found with
  | some n => return some (← node lo (declaredForm n.form) n.parts)
  | none => return none

/-- A declaration that starts with a word which was read as an expression. -/
def typedDeclaration? (self : Rules) (lo : Nat) (word : Node) (text : String) : P (Option Node) := do
  match text with
  | "declare" => declaration? self lo
  | "global" =>
    if ← isSign "\x7b" then
      let body ← moduleBlock self
      return some (← node lo (.moduleDecl true false) [.mk (.name text) word.origin [], body])
    else return none
  | _ => wordDeclaration? self lo text false

end CallExpander.Code
