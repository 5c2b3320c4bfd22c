import CallExpander.Code.Parser
import CallExpander.Code.Printer.Statements

/-!
Printing program text. A node is laid out from the layouts of its parts, so printing is one
recursion over the tree.
-/

namespace CallExpander.Code

/-- What a form is printed as. -/
inductive Kind where
  | expression
  | pattern
  | type
  | markup
  | member
  /-- Comments stand before and behind it, and its line ends with it. -/
  | statement
  /-- A statement that has no comments before it. -/
  | jump
  /-- No comments of its own. -/
  | list
  deriving Repr, DecidableEq, Inhabited

def Form.kind : Form → Kind
  | .absent | .group | .members | .enumMembers | .attributes | .run | .hole
  | .function (.method _) .. => .list
  | .breakStmt | .continueStmt => .jump
  | .exprStmt | .empty | .ifStmt | .forStmt | .forIn | .forOf _ | .whileStmt | .doWhile | .switch
  | .tryStmt | .throwStmt | .returnStmt | .labeled | .withStmt | .debugger | .importDecl _
  | .exportDecl | .exportDefaultExpr | .exportDefaultDecl | .exportNamed .. | .exportAll _
  | .interface _ | .typeAlias _ | .enum .. | .moduleDecl .. | .importEquals .. | .exportAssign
  | .exportAsNamespace | .varDecl _ _ false | .function .declaration .. | .class .declaration .. =>
    .statement
  | .classMethod .. | .constructor _ | .classField _ | .emptyMember | .block | .body | .staticBlock
  | .varDecl .. | .declarator | .cases | .case | .consequent | .catchClause | .enumMember
  | .moduleBlock | .externalModule => .member
  | .jsxElement _ | .jsxFragment | .jsxText _ | .jsxContainer | .jsxSpreadChild | .jsxAttribute
  | .jsxSpreadAttribute => .markup
  | .arrayPattern | .objectPattern | .patternProperty | .patternShorthand | .patternDefault | .rest
  | .annotated _ | .parameterProperty _ => .pattern
  | .typeWord _ | .typeReference _ | .typeQuery _ | .typeArray | .typeUnion | .typeIntersection
  | .typeTuple | .typeTupleElement .. | .typeObject | .typeFunction .. | .typeParen | .typeOperator _
  | .typeConditional | .typeInfer _ | .typeIndexed | .typeLiteral | .typeTemplate _ | .typeImport _
  | .typePredicate .. | .typeMapped .. | .typeArguments | .typeParameters | .typeParameter ..
  | .propertySignature .. | .methodSignature _ | .callSignature _ | .accessorSignature _
  | .indexSignature .. => .type
  | _ => .expression

/-- An item of a group. The comments behind an expression or a pattern are its own. -/
def itemLayout (part : Part) : Pieces :=
  match part.node.form with
  | .parameterProperty _ => part.pieces
  | form =>
    match Form.kind form with
    | .expression | .pattern | .markup => part.full
    | _ => part.pieces

def coreLayout (form : Form) (origin : Origin) (parts : List Part) : Pieces :=
  match form with
  | .absent | .hole => []
  | .group => inLine origin itemLayout parts
  | .members => bracedLines (layouts parts)
  | .attributes => parts.flatMap fun part => .text " " :: part.pieces
  | .run => parts.flatMap (·.pieces)
  | .function role isAsync isGenerator isDeclare =>
    functionLayout role isAsync isGenerator isDeclare parts
  | .arrow isAsync => arrowLayout isAsync parts
  | .class _ isAbstract isDeclare => classLayout isAbstract isDeclare parts
  | .classMethod .. | .constructor _ | .classField _ | .emptyMember => memberLayout form parts
  | _ =>
    match Form.kind form with
    | .type => typeLayout form origin parts
    | .pattern => patternLayout form origin parts
    | .markup => markupLayout form parts
    | .expression => expressionLayout form origin parts
    | _ => statementLayout form origin parts

/-- A node with the comments before it. A statement also has the comments behind it and the end of
its line. -/
def arrange (form : Form) (origin : Origin) (parts : List Part) : Pieces :=
  let core := coreLayout form origin parts
  match Form.kind form with
  | .list => core
  | .jump => core ++ commentsBehind origin ++ [.line]
  | .statement => commentsBefore origin ++ core ++ commentsBehind origin ++ [.line]
  | _ => commentsBefore origin ++ core

mutual

/-- How a node is laid out. -/
def layout : Node → Pieces
  | .mk form origin parts => arrange form origin (layoutParts parts)

def layoutParts : List Node → List Part
  | [] => []
  | n :: rest => ⟨n, layout n⟩ :: layoutParts rest

end

/-- Prints items without comments. -/
def printItems (items : List Node) : String :=
  render {} (items.flatMap layout)

def statementOf (e : Node) : Node := Node.build .exprStmt [e]

/-- Prints an expression: as a statement, without its end. -/
def printExpression (e : Node) : String :=
  let chars := Text.trimEnd (printItems [statementOf e]).toList
  String.ofList (Text.dropEndWhile (· == ';') chars)

def itemOfModule (n : Node) : Pieces :=
  layout n ++ commentsBehind n.origin

def printModule (module : Module) : String :=
  let head := match module.interpreter with
    | some line => [.text ("#!" ++ line), .line]
    | none => []
  render module.comments
    (head ++ .before module.span.lo :: module.items.flatMap itemOfModule ++ [.behind module.span.hi])

end CallExpander.Code
