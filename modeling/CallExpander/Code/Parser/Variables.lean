import CallExpander.Code.Parser.Expressions

/-!
Declarations of variables.
-/

namespace CallExpander.Code

def patternSpan (n : Node) : Span :=
  match n.form, n.parts with
  | .annotated _, [inner, type] => ⟨inner.start, if type.isAbsent then n.span.hi else type.span.hi⟩
  | _, _ => n.span

/-- The value of a declared pattern. Without one a constant is noted, and a pattern that is no name
stops the parser; only where nothing is defined may the value be missing. -/
def initialValue (self : Rules) (lo : Nat) (kind : VarKind) (target : Node) : P Node := do
  if ← eat "=" then self .assignment
  else
    if !(← context).inDeclare then
      if kind == .const then note (← spanFrom lo) .constWithoutValue
      else if !(target.form matches .ident ..) then failAt (← spanFrom lo) .patternWithoutValue
    return Node.missing

/-- One declared pattern and its value; in the head of a loop the value may be missing. A mark behind
a name says that the name has a value, and is dropped. -/
def declarator (self : Rules) (kind : VarKind) (inHead : Bool) : P Node := do
  let lo ← position
  let name ← bindingPattern self (kind == .let || kind == .const)
  let _ ← (do
    if (← hasTypes) && (name.form matches .ident ..) then eat "!" else return false)
  let type ← optType self
  let target := if type.isAbsent then name else .mk (.annotated "") name.origin [name, type]
  let isRound ← (do if inHead then isOneOfWords ["in", "of"] else return false)
  let value ← (if isRound then return Node.missing else initialValue self lo kind name)
  node lo .declarator [target, value]

/-- What has been read of a list of variables, the last one first. -/
structure Variables where
  found : List Node := []
  isOver : Bool := false

/-- The next variable of a list whose keyword stands at `word`. A list that ends with a comma is
noted. -/
def nextVariable (one : P Node) (word : Span) (read : Variables) : P (Option Variables) := do
  if read.isOver then return none
  else if (← isSign ";") || (← atEnd) then
    let last ← lastSpan
    note (if last == word then ⟨word.hi, word.hi⟩ else last) .danglingComma
    return none
  else
    let n ← one
    return some { found := n :: read.found, isOver := !(← eat ",") }

def declarators (one : P Node) (word : Span) : P (List Node) :=
  return (← grow (nextVariable one word) {}).found.reverse

/-- Whether the head of a loop goes on without the variables that it should declare. -/
def lacksVariables (self : Rules) : P Bool := do
  if (← hasTypes) && (← isOneOfWords ["in", "of"]) then
    foresees do
      advance
      let _ ← self .assignment
      eat ")"
  else return false

/-- A variable declaration without its end. In the head of a loop `in` is no operator behind `var`. -/
def varDeclaration (self : Rules) (kind : VarKind) (inHead : Bool) : P Node := do
  let lo ← position
  advance
  let word ← lastSpan
  let isEmpty ← (if inHead then lacksVariables self else return false)
  if isEmpty then
    note ⟨word.hi, word.hi⟩ .noVariables
    node lo (.varDecl kind false inHead)
  else
    let includesIn := kind != .var || !inHead
    let found ← within (fun c => { c with includesIn := c.includesIn || includesIn })
      (declarators (declarator self kind inHead) word)
    node lo (.varDecl kind false inHead) found

def varKindHere : P (Option VarKind) := do
  match ← current with
  | .word "var" => return some .var
  | .word "const" => return some .const
  | .word "let" => return if (← peekToken).1.followsLet then some .let else none
  | _ => return none

/-- Skips tokens up to where a statement ends. -/
def skipStatement : P Unit := do
  let _ ← grow (fun isOver => do
    if ← pure isOver <||> eatSemicolon then return none
    else
      advance
      match ← current with
      | .invalid _ => return some true
      | _ => return some false) false

/-- A variable declaration. Where its end is missing, that is noted, and reading goes on behind the
next place where a statement can end. -/
def varStatement (self : Rules) (kind : VarKind) : P Node := do
  let lo ← position
  let n ← varDeclaration self kind false
  if !(← eatSemicolon) then
    noteHere .semicolon
    let _ ← tryCatch (self .expression) fun _ => return Node.missing
    skipStatement
  node lo n.form n.parts

/-- Notes a resource that has no name or no value. -/
def checkResource (span : Span) (declared : Node) : P Unit := do
  match declared.parts with
  | [target, value] =>
    let isNamed := match target.form, target.parts with
      | .annotated _, inner :: _ => (inner.form matches .ident ..)
      | form, _ => (form matches .ident ..)
    if !isNamed then note span .usingName
    if value.isAbsent then note span .usingValue
  | _ => pure ()

/-- A declaration of resources, if the word `using` that is at hand starts one. Its end is not
taken. -/
def usingDeclaration? (self : Rules) (lo : Nat) (kind : VarKind) : P (Option Node) := do
  if (← peekToken).2 || !(← peekName) then return none
  else
    advance
    let found ← declarators (declarator self kind false) ⟨lo, lo⟩
    let span ← spanFrom lo
    if !(← hasTypes) then note span .usingDisabled
    found.forM (checkResource span)
    return some (← node lo (.varDecl kind false false) found)

end CallExpander.Code
