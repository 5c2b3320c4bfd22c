import CallExpander.Code.Parser.Declarations
import CallExpander.Code.Parser.Loops

/-!
Statements.
-/

namespace CallExpander.Code

/-! ## Branches -/

/-- An `if` up to its alternative. -/
structure Branch where
  lo : Nat
  hi : Nat
  test : Node
  yes : Node

def branch (self : Rules) : P Branch := do
  let lo ← position
  advance
  let test ← condition self
  let yes ← self .statement
  return { lo, hi := (← lastSpan).hi, test, yes }

/-- The further conditions of an `if`, and what is done if none of them holds. -/
def alternatives (self : Rules) : P (List Branch × Node) := do
  let found ← grow (fun (read : List Branch × Option Node) => do
    if read.2.isSome then return none
    else if ← eatWord "else" then
      if ← isWord "if" then return some ((← branch self) :: read.1, none)
      else return some (read.1, some (← self .statement))
    else return none) ([], none)
  return (found.1.reverse, found.2.getD Node.missing)

/-- An `if`. A condition inside its alternative ends with its own branch. -/
def ifStatement (self : Rules) : P Node := do
  let first ← branch self
  let (more, last) ← alternatives self
  let no := more.foldr (fun branch no =>
    Node.mk .ifStmt (.file ⟨branch.lo, branch.hi⟩) [branch.test, branch.yes, no]) last
  node first.lo .ifStmt [first.test, first.yes, no]

/-- One case of a switch. Only one can be the default. -/
def switchCase (self : Rules) (hasDefault : Bool) : P Node := do
  let lo ← position
  let isCase ← isWord "case"
  advance
  if !isCase && hasDefault then failAt (← spanHere) .manyDefaults
  let test ← orMissing isCase (freely self .expression)
  expect ":"
  let found ← gather do
    if (← atEnd) || (← isSign "\x7d") || (← isOneOfWords ["case", "default"]) then return none
    else return some (← self .declaration)
  node lo .case [test, Node.build .consequent found]

def isDefaultCase (n : Node) : Bool :=
  match n.parts with
  | test :: _ => test.isAbsent
  | [] => false

def switchStatement (self : Rules) : P Node := do
  let lo ← position
  advance
  let discriminant ← condition self
  expect "\x7b"
  let found ← within (fun c => { c with allowsBreak := true }) <|
    grow (fun read => do
      if ← isOneOfWords ["case", "default"] then
        return some ((← switchCase self (read.any isDefaultCase)) :: read)
      else return none) []
  expect "\x7d"
  node lo .switch [discriminant, Node.build .cases found.reverse]

/-! ## Faults that are caught -/

def catchParameter (self : Rules) : P Node := do
  if ← eat "(" then
    let name ← self .pattern
    let type ← optType self
    expect ")"
    return if type.isAbsent then name else .mk (.annotated "") name.origin [name, type]
  else return Node.missing

def catchClause (self : Rules) : P Node := do
  let lo ← position
  if ← eatWord "catch" then
    let param ← catchParameter self
    let body ← block self
    node lo .catchClause [param, body]
  else return Node.missing

/-- What is done in any case, if there is anything. -/
def finalizer (self : Rules) : P Node := do
  if ← eatWord "finally" then block self else return Node.missing

def tryStatement (self : Rules) : P Node := do
  let lo ← position
  advance
  let tried ← block self
  let spot ← position
  let handler ← catchClause self
  let last ← finalizer self
  if handler.isAbsent && last.isAbsent then note ⟨spot, spot⟩ .semicolon
  node lo .tryStmt [tried, handler, last]

/-- A handler without a `try`, which is noted and dropped. -/
def strayHandler (self : Rules) : P Node := do
  let lo ← position
  noteHere .semicolon
  let _ ← tryCatch (catchClause self) fun _ => return Node.missing
  let _ ← tryCatch (finalizer self) fun _ => return Node.missing
  node lo .exprStmt [invalidNode (← lastSpan)]

/-! ## Jumps -/

/-- The label behind the word of a jump, if there is one, up to the end of the statement. -/
def jumpLabel : P Node := do
  advance
  if ← eatSemicolon then return Node.missing
  else
    let lo ← position
    let ctx ← context
    let text ← plainName (!ctx.inGenerator) (!ctx.inAsync)
    let label ← node lo (.name text)
    expectSemicolon
    return label

def knowsLabel (ctx : Context) (label : Node) : Bool :=
  label.isAbsent || ctx.labels.contains (nameText label)

def breakStatement : P Node := do
  let lo ← position
  let label ← jumpLabel
  let ctx ← context
  let span ← spanFrom lo
  if !knowsLabel ctx label then note span .breakLabel
  else if !ctx.allowsBreak then note span .breakOutside
  node lo .breakStmt [label]

def continueStatement : P Node := do
  let lo ← position
  let label ← jumpLabel
  let ctx ← context
  let span ← spanFrom lo
  if !ctx.allowsContinue then note span .continueOutside
  else if !knowsLabel ctx label then note span .continueLabel
  node lo .continueStmt [label]

def returnStatement (self : Rules) : P Node := do
  let lo ← position
  advance
  let value ← (do if ← isStatementEnd then return Node.missing else freely self .expression)
  expectSemicolon
  if !(← context).inFunction then note (← spanFrom lo) .returnOutside
  node lo .returnStmt [value]

def throwStatement (self : Rules) : P Node := do
  let lo ← position
  advance
  if ← afterLineBreak then failHere .lineBreakAfterThrow
  let value ← freely self .expression
  expectSemicolon
  node lo .throwStmt [value]

def withStatement (self : Rules) : P Node := do
  let lo ← position
  let span ← spanHere
  if ← hasTypes then note span .withTyped
  noteStrict span .withStrict
  advance
  let object ← condition self
  let body ← within (fun c => { c with inFunction := true }) (self .statement)
  node lo .withStmt [object, body]

/-! ## Expressions and labels -/

/-- The end of a statement that is an expression. Where it is missing before an operator, that is
noted and the operator is read all the same. -/
def expressionEnd (self : Rules) (lo : Nat) (inner : Node) : P Node := do
  if ← eatSemicolon then node lo .exprStmt [inner]
  else if (← required).isBinaryOperator then
    noteHere .semicolon
    let inner ← operators self inner
    node lo .exprStmt [inner]
  else failHere .statementEnd

def labelledBody (self : Rules) : P Node := do
  let lo ← position
  if ← isWord "function" then
    let n ← functionFrom self lo .declaration false true
    if (← context).isStrict then note n.span .labelledFunction
    match n.form with
    | .function _ _ true _ => note n.span .labelledGenerator
    | _ => pure ()
    return n
  else self .statement

def labelled (self : Rules) (label : Node) (text : String) : P Node := do
  let isKnown := (← context).labels.contains text
  let body ← within (fun c => { c with allowsBreak := true, labels := text :: c.labels })
    (labelledBody self)
  if isKnown then note label.span (.labelTwice text)
  node label.start .labeled [.mk (.name text) label.origin [], body]

/-- A statement that starts with a name, or is one. -/
def nameStatement (self : Rules) (lo : Nat) (word : Node) (text : String) : P Node := do
  if ← eat ":" then labelled self word text
  else if text == "interface" && (← afterLineBreak) then
    noteStrict word.span (.reservedName text)
    let _ ← eatSemicolon
    node lo .exprStmt [word]
  else
    let hasTypes ← hasTypes
    match ← (if hasTypes then typedDeclaration? self lo word text else return none) with
    | some n => return n
    | none =>
      let mayPrecede := hasTypes && ["public", "static", "abstract"].contains text
      if ← pure mayPrecede <&&> eatWord "interface" then
        note (← lastSpan) .interfaceName
        interfaceFrom self lo
      else expressionEnd self lo word

/-- An expression as a statement, or what starts with a name and is none. -/
def expressionStatement (self : Rules) : P Node := do
  let lo ← position
  let inner ← freely self .expression
  match inner.form with
  | .ident text _ => nameStatement self lo inner text
  | _ =>
    noteStrayDefaults inner
    expressionEnd self lo inner

/-! ## Statements by their first word -/

/-- An import or an export where none can stand; an import may still be an expression. -/
def strayModuleItem (self : Rules) (lo : Nat) : P Node := do
  if ← isWord "import" <&&> (peekSign "(" <||> peekSign ".") then
    let inner ← self .expression
    let _ ← eatSemicolon
    node lo .exprStmt [inner]
  else failHere .moduleItemHere

/-- Resources that are awaited when they are given up, or an expression that is waited for. -/
def awaitUsing (self : Rules) (lo : Nat) : P Node := do
  advance
  match ← usingDeclaration? self lo .awaitUsing with
  | some n => return n
  | none =>
    let inner ← awaited self lo
    let _ ← eatSemicolon
    node lo .exprStmt [inner]

/-- Whether the token behind the current one is a name on the same line. -/
def namesNext : P Bool := return !(← peekToken).2 && (← peekName)

def debuggerStatement : P Node := do
  let lo ← position
  advance
  expectSemicolon
  node lo .debugger

/-- The statement that a word opens wherever it stands. -/
def keywordStatement? (self : Rules) : String → Option (P Node)
  | "break" => some breakStatement
  | "continue" => some continueStatement
  | "debugger" => some debuggerStatement
  | "do" => some (doStatement self)
  | "for" => some (forStatement self)
  | "if" => some (ifStatement self)
  | "return" => some (returnStatement self)
  | "switch" => some (switchStatement self)
  | "throw" => some (throwStatement self)
  | "catch" | "finally" => some (strayHandler self)
  | "try" => some (tryStatement self)
  | "with" => some (withStatement self)
  | "while" => some (whileStatement self)
  | "var" => some (varStatement self .var)
  | _ => none

/-- A declaration whose name binds in the list of statements around it. Where no such list is around
it, a function or a class cannot stand, and other words are read as expressions. -/
def bindingStatement? (self : Rules) (lo : Nat) (text : String) (inList : Bool) :
    P (Option Node) := do
  match text with
  | "function" =>
    if !inList then failHere .declarationHere
    return some (← functionFrom self lo .declaration false true)
  | "class" =>
    if !inList then failHere .declarationHere
    return some (← classFrom self lo .declaration true false)
  | "const" | "let" =>
    if !inList then return none
    else
      match ← varKindHere with
      | some kind => return some (← varStatement self kind)
      | none => return none
  | "using" => if inList then usingDeclaration? self lo .using else return none
  | "async" =>
    if ← peekInLine "function" then
      advance
      return some (← functionFrom self lo .declaration true true)
    else return none
  | _ => return none

/-- A declaration that only types make possible, if one starts here. -/
def typedStatement? (self : Rules) (lo : Nat) (text : String) (inList : Bool) :
    P (Option Node) := do
  let behindWord (p : P Node) : P (Option Node) := do
    advance
    return some (← p)
  match text with
  | "const" =>
    if ← peekWord "enum" then
      advance
      behindWord (enumFrom self lo true)
    else return none
  | "await" =>
    if ← pure inList <&&> peekWord "using" then return some (← awaitUsing self lo) else return none
  | "interface" => if ← namesNext then behindWord (interfaceFrom self lo) else return none
  | "type" => if ← namesNext then behindWord (typeAliasFrom self lo) else return none
  | "enum" => if ← namesNext then behindWord (enumFrom self lo false) else return none
  | _ => return none

def wordStatement (self : Rules) (lo : Nat) (text : String) (inList : Bool) : P Node := do
  match ← (do if ← hasTypes then typedStatement? self lo text inList else return none) with
  | some n => return n
  | none =>
    match keywordStatement? self text with
    | some statement => statement
    | none =>
      match ← bindingStatement? self lo text inList with
      | some n => return n
      | none => expressionStatement self

/-- A statement. In a list of statements it may also be a declaration. -/
def statement (self : Rules) (inList : Bool) : P Node :=
  within (fun c => { c with awaitsColon := false }) do
    let token ← required
    let lo ← position
    match token with
    | .word "import" | .word "export" => strayModuleItem self lo
    | .word text => wordStatement self lo text inList
    | .punct "\x7b" => block self
    | .punct ";" =>
      advance
      node lo .empty
    | _ => expressionStatement self

end CallExpander.Code
