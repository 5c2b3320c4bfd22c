import CallExpander.Code.Printer.Types

/-!
How expressions and patterns are laid out. Nothing is put in parentheses that does not stand in
parentheses in the tree.
-/

namespace CallExpander.Code

/-- The elements of an array, where a missing last element keeps its comma. -/
def withLastHole (parts : List Part) (elements : Pieces) : Pieces :=
  match parts.getLast? with
  | some last => match last.node.form with
    | .hole => elements ++ txt ", "
    | _ => elements
  | none => elements

/-- An array: one element a line. -/
def arrayLayout (origin : Origin) (parts : List Part) : Pieces :=
  if parts.isEmpty then txt "[]"
  else
    txt "[" ++ [.line, .indent]
      ++ withLastHole parts (joined [.text ",", .line] (parts.map (listed origin Part.full)))
      ++ [.line, .dedent] ++ txt "]"

/-- A property of an object: what it spreads is an expression, a plain name is not. -/
def propertyLayout (part : Part) : Pieces :=
  match part.node.form with
  | .spread => part.full
  | _ => part.pieces

/-- An object: one property a line. The braces of an empty one touch, unless there are comments
between them. -/
def objectLayout (origin : Origin) (parts : List Part) : Pieces :=
  if parts.isEmpty then txt "\x7b" ++ beforeBrace origin .lineBefore ++ txt "\x7d"
  else txt "\x7b" ++ indentedList origin propertyLayout parts ++ txt "\x7d"

/-- Whether a sign before an operand would run together with the sign that the operand starts
with. -/
def signsTouch (op : String) (operand : Node) : Bool :=
  match operand.form with
  | .unary inner => op == inner && (op == "+" || op == "-")
  | .update inner true => (op == "+" && inner == "++") || (op == "-" && inner == "--")
  | .num value _ => op == "-" && value.isNegative
  | _ => false

/-- An operator before its operand: words are followed by a blank. -/
def unaryLayout (op : String) (operand : Part) : Pieces :=
  let isWord := op == "typeof" || op == "void" || op == "delete"
  txt op ++ txtIf (isWord || signsTouch op operand.node) " " ++ operand.full

def functionWords (function : Node) : String :=
  match function.form with
  | .function _ isAsync isGenerator _ =>
    (if isAsync then "async " else "") ++ (if isGenerator then "*" else "")
  | _ => ""

def accessorWord : MethodKind → String
  | .method => ""
  | .getter => "get "
  | .setter => "set "

/-- What a member or a call is taken of. The words `super` and `import` are no expressions, and the
comments behind a number or a `new` are not printed here. -/
def subjectLayout (part : Part) : Pieces :=
  match part.node.form with
  | .super | .importWord _ | .num .. | .new _ => part.pieces
  | _ => part.full

/-- A point with the comments before it, so many characters before the name of a member. -/
def pointBefore (name : Node) (distance : Nat) : Pieces :=
  match name.origin.span? with
  | some span => [.before (span.lo - distance), .text "."]
  | none => txt "."

def memberByName (object name : Part) : Pieces :=
  match object.node.form with
  | .super => object.pieces ++ txt "." ++ name.pieces
  | .num value raw =>
    subjectLayout object ++ (if needsTwoPoints value raw then pointBefore name.node 2 else [])
      ++ pointBefore name.node 1 ++ name.pieces
  | _ => subjectLayout object ++ pointBefore name.node 1 ++ name.pieces

/-- What a link of an optional chain is taken of. -/
def chainObject (part : Part) : Pieces :=
  match part.node.form with
  | .new _ => part.pieces
  | _ => part.full

/-- The word that names the phase of an import, behind a text. -/
def phaseText (lead : String) : ImportPhase → String
  | .evaluation => ""
  | .source => lead ++ "source"
  | .defer => lead ++ "defer"

def calleeLayout (part : Part) : Pieces :=
  match part.node.form with
  | .super | .importWord _ | .new _ => part.pieces
  | _ => part.full

def argumentsLayout (part : Part) : Pieces :=
  txt "(" ++ part.pieces ++ txt ")"

def functionRest (typeParams params result body : Part) (isSpaced : Bool) : Pieces :=
  typeParams.pieces ++ parametersLayout params ++ result.after ": "
    ++ (if body.isAbsent then txt ";" else txtIf isSpaced " " ++ body.pieces)

def functionLayout (role : Role) (isAsync isGenerator isDeclare : Bool) (parts : List Part) :
    Pieces :=
  let rest := functionRest (nth parts 3) (nth parts 1) (nth parts 4) (nth parts 2)
  match role with
  | .method isSpaced => rest isSpaced
  | _ =>
    txtIf isDeclare "declare " ++ txtIf isAsync "async " ++ txt "function" ++ txtIf isGenerator "*"
      ++ (nth parts 0).after " " ++ rest true

def accessorLayout (kind : MethodKind) (parts : List Part) : Pieces :=
  txt (accessorWord kind) ++ (nth parts 0).pieces ++ txt " "
    ++ functionRest (nth [] 0) (nth parts 1) (nth parts 2) (nth parts 3) (kind != .setter)

/-- An arrow function; the inner lines of an expression are one level deeper. -/
def arrowLayout (isAsync : Bool) (parts : List Part) : Pieces :=
  let body := nth parts 1
  let result := nth parts 3
  let target := match body.node.form with
    | .body => body.pieces
    | _ => .indent :: body.full ++ [.dedent]
  txtIf isAsync "async " ++ (nth parts 2).pieces ++ parametersLayout (nth parts 0)
    ++ result.after ": " ++ txtIf (!result.isAbsent) " " ++ txt "=>" ++ target

def modifiersText (mods : Modifiers) : String :=
  (mods.access.map (· ++ " ")).getD "" ++ (if mods.isDeclare then "declare " else "")
    ++ (if mods.isStatic then "static " else "") ++ (if mods.isAbstract then "abstract " else "")
    ++ (if mods.isOverride then "override " else "") ++ (if mods.isReadonly then "readonly " else "")
    ++ (if mods.isAccessor then "accessor " else "")

def classLayout (isAbstract isDeclare : Bool) (parts : List Part) : Pieces :=
  txtIf isDeclare "declare " ++ txtIf isAbstract "abstract " ++ txt "class" ++ (nth parts 0).after " "
    ++ (nth parts 3).pieces ++ (nth parts 2).fullAfter " extends " ++ (nth parts 4).pieces
    ++ (nth parts 5).after " implements " ++ txt " " ++ (nth parts 1).pieces

def memberLayout (form : Form) (parts : List Part) : Pieces :=
  let first := nth parts 0
  match form with
  | .classMethod kind mods =>
    let function := nth parts 1
    txt (modifiersText mods ++ functionWords function.node ++ accessorWord kind) ++ first.pieces
      ++ txtIf mods.isOptional "?" ++ function.pieces
  | .constructor mods => txt (modifiersText mods ++ "constructor") ++ first.pieces
  | .classField mods =>
    txt (modifiersText mods) ++ first.pieces ++ txtIf mods.isOptional "?"
      ++ txtIf mods.isDefinite "!" ++ (nth parts 2).after ": " ++ (nth parts 1).fullAfter " = "
      ++ txt ";"
  | .emptyMember => txt ";"
  | _ => []

def markupLayout (form : Form) (parts : List Part) : Pieces :=
  let first := nth parts 0
  match form with
  | .jsxElement isClosed =>
    let tag := txt "<" ++ first.pieces ++ (nth parts 2).pieces ++ (nth parts 1).pieces
    if isClosed then tag ++ txt "/>"
    else tag ++ txt ">" ++ (nth parts 3).pieces ++ txt "</" ++ first.pieces ++ txt ">"
  | .jsxFragment => txt "<>" ++ parts.flatMap (·.pieces) ++ txt "</>"
  | .jsxText value => txt value
  | .jsxContainer => txt "\x7b" ++ first.full ++ txt "\x7d"
  | .jsxSpreadChild => txt "\x7b..." ++ first.full ++ txt "\x7d"
  | .jsxAttribute => first.pieces ++ (nth parts 1).after "="
  | .jsxSpreadAttribute => txt "\x7b..." ++ first.full ++ txt "\x7d"
  | _ => []

def patternLayout (form : Form) (origin : Origin) (parts : List Part) : Pieces :=
  let first := nth parts 0
  let second := nth parts 1
  match form with
  | .arrayPattern => txt "[" ++ inLine origin Part.full parts ++ txt "]"
  | .objectPattern =>
    if parts.isEmpty then txt "\x7b\x7d"
    else txt "\x7b " ++ inLine origin Part.pieces parts ++ txt " \x7d"
  | .patternProperty => first.pieces ++ txt ": " ++ second.full
  | .patternShorthand => first.pieces ++ second.fullAfter " = "
  | .patternDefault => first.full ++ second.fullAfter " = "
  | .rest => txt "..." ++ first.full
  | .annotated mark => first.pieces ++ txtIf (mark != "") mark ++ second.after ": "
  | .parameterProperty mods => txt (modifiersText mods) ++ first.pieces
  | _ => []

def expressionLayout (form : Form) (origin : Origin) (parts : List Part) : Pieces :=
  let first := nth parts 0
  let second := nth parts 1
  let third := nth parts 2
  match form with
  | .ident name _ | .name name => txt name
  | .privateName name => txt ("#" ++ name)
  | .str literal => txt (literalText literal)
  | .num value raw => txt (numberText value raw)
  | .bool value => txt (if value then "true" else "false")
  | .null => txt "null"
  | .this => txt "this"
  | .super => txt "super"
  | .importWord phase => txt ("import" ++ phaseText "." phase)
  | .verbatim text => txt text
  | .template quasis => txt "`" ++ templateLayout quasis (parts.map Part.full) ++ txt "`"
  | .tagged => chainObject first ++ second.pieces ++ third.pieces
  | .array => arrayLayout origin parts
  | .spread => txt "..." ++ first.full
  | .object => objectLayout origin parts
  | .property => first.pieces ++ txt ": " ++ second.full
  | .shorthandDefault => first.pieces ++ txt " = " ++ second.full
  | .objectMethod => txt (functionWords second.node) ++ first.pieces ++ txt " " ++ second.pieces
  | .objectAccessor kind => accessorLayout kind parts
  | .computed => txt "[" ++ first.full ++ txt "]"
  | .unary op => unaryLayout op first
  | .update op isBefore => if isBefore then txt op ++ first.full else first.full ++ txt op
  | .binary op => first.full ++ txt (" " ++ op ++ " ") ++ second.full
  | .assign op => first.pieces ++ txt (" " ++ op ++ " ") ++ second.full
  | .conditional => first.full ++ txt " ? " ++ second.full ++ txt " : " ++ third.full
  | .call => calleeLayout first ++ third.pieces ++ argumentsLayout second
  | .new hasArguments =>
    txt "new " ++ first.full ++ third.pieces ++ (if hasArguments then argumentsLayout second else [])
  | .member => memberByName first second
  | .index => subjectLayout first ++ txt "[" ++ second.full ++ txt "]"
  | .optMember isOptional =>
    chainObject first ++ txt (if isOptional then "?." else ".") ++ second.pieces
  | .optIndex isOptional =>
    chainObject first ++ txtIf isOptional "?." ++ txt "[" ++ second.full ++ txt "]"
  | .optCall isOptional => first.full ++ txtIf isOptional "?." ++ argumentsLayout second
  | .paren => txt "(" ++ first.full ++ txt ")"
  | .sequence => inLine origin Part.full parts
  | .yield isDelegate => txt "yield" ++ txtIf isDelegate "*" ++ first.shielded "("
  | .await => txt "await " ++ first.full
  | .removed => txt "<invalid>"
  | .asType => first.full ++ txt " as " ++ second.pieces
  | .asConst => first.full ++ txt " as const"
  | .satisfies => first.full ++ txt " satisfies " ++ second.pieces
  | .nonNull => first.full ++ txt "!"
  | .typeAssertion => txt "<" ++ second.pieces ++ txt ">" ++ first.full
  | .instantiation => first.full ++ second.pieces
  | _ => []

end CallExpander.Code
