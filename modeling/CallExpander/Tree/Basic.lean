import CallExpander.Number.Binary64

/-!
Program text as a tree. Every construct is a node with a form, the place it came from, and its parts
in visiting order, so that a walk over the whole language is one recursion. A part that may be
missing is filled with an absent node, and parts that come in lists stand in a group.

Parts are listed in the order in which they are visited, which is source order with a few exceptions:
a `do` loop has its test before its body, a class has its members before its base class, a type
assertion has its expression first, and type parameters, type arguments and result types come late.
-/

namespace CallExpander

open Number

/-- Byte offsets of the first byte and behind the last byte. -/
structure Span where
  lo : Nat
  hi : Nat
  deriving Repr, DecidableEq, Inhabited

/-- Where a node came from: made by a builder, read from a snippet, or read from the file. -/
inductive Origin where
  | built
  | snippet
  | file (span : Span)
  deriving Repr, DecidableEq, Inhabited

/-- The place in the file, if the node was read from it. -/
def Origin.span? : Origin → Option Span
  | .file span => some span
  | _ => none

/-- A stretch of template text: as it is written, and the text it stands for. -/
structure Quasi where
  raw : String
  cooked : Option String
  deriving Repr, DecidableEq, Inhabited

/-- A string literal: its value, and its spelling if it was read from text. -/
structure StringLiteral where
  value : String
  raw : Option String := none
  deriving Repr, DecidableEq, Inhabited

structure Name where
  text : String
  origin : Origin := .built
  deriving Repr, DecidableEq, Inhabited

/-- The name of an export: a name, or a string. -/
inductive ExportName where
  | name (n : Name)
  | str (literal : StringLiteral) (origin : Origin)
  deriving Repr, DecidableEq, Inhabited

def ExportName.text : ExportName → String
  | .name n => n.text
  | .str literal _ => literal.value

inductive ImportSpecifier where
  | default (localName : Name)
  | namespace (localName : Name)
  | named (localName : Name) (imported : Option ExportName) (typeOnly : Bool) (origin : Origin)
  deriving Repr, DecidableEq, Inhabited

def ImportSpecifier.localName : ImportSpecifier → Name
  | .default name => name
  | .namespace name => name
  | .named name _ _ _ => name

/-- How far an import goes: the module is evaluated, only its source is loaded, or its evaluation is
put off. -/
inductive ImportPhase where
  | evaluation
  | source
  | defer
  deriving Repr, DecidableEq, Inhabited

/-- An import declaration, but for its attributes. -/
structure ImportDecl where
  specifiers : List ImportSpecifier
  source : StringLiteral
  typeOnly : Bool := false
  phase : ImportPhase := .evaluation
  /-- Where the source is written. -/
  sourceOrigin : Origin := .built
  deriving Repr, DecidableEq, Inhabited

inductive ExportSpecifier where
  | namespace (exported : ExportName) (origin : Origin)
  | named (name : ExportName) (exported : Option ExportName) (typeOnly : Bool) (origin : Origin)
  deriving Repr, DecidableEq, Inhabited

inductive VarKind where
  | var
  | let
  | const
  | using
  | awaitUsing
  deriving Repr, DecidableEq, Inhabited

/-- What a function or a class is: a declaration binds its name around itself, an expression inside
itself, and a method has its name outside. A method is spaced if a blank stands before its body. -/
inductive Role where
  | declaration
  | expression
  | method (isSpaced : Bool)
  deriving Repr, DecidableEq, Inhabited

inductive MethodKind where
  | method
  | getter
  | setter
  deriving Repr, DecidableEq, Inhabited

structure Modifiers where
  access : Option String := none
  isDeclare : Bool := false
  isStatic : Bool := false
  isAbstract : Bool := false
  isOverride : Bool := false
  isReadonly : Bool := false
  isAccessor : Bool := false
  isOptional : Bool := false
  isDefinite : Bool := false
  deriving Repr, DecidableEq, Inhabited

/-- What a node is. The comment of a form names its parts. -/
inductive Form where
  /-- A part that is missing. -/
  | absent
  /-- A list of parts with commas between them. -/
  | group
  /-- The members of a class or an interface. -/
  | members
  /-- The members of an enumeration. -/
  | enumMembers
  /-- The attributes of a tag. -/
  | attributes
  /-- What stands between tags. -/
  | run
  /-- A name in an expression or a binding, and whether a declaration in scope binds it. -/
  | ident (name : String) (bound : Bool)
  | str (literal : StringLiteral)
  | num (value : Binary64) (raw : Option String)
  | bool (value : Bool)
  | null
  | this
  | super
  /-- The word `import` as a callee. -/
  | importWord (phase : ImportPhase)
  /-- A literal that is printed as it was written. -/
  | verbatim (text : String)
  /-- The expressions inside a template. -/
  | template (quasis : List Quasi)
  /-- Tag, type arguments, template. -/
  | tagged
  | array
  /-- A missing element of an array. -/
  | hole
  | spread
  /-- Properties; a plain name is a shorthand property. -/
  | object
  /-- Key, value. -/
  | property
  /-- Name, default: only valid where the object turns out to be a pattern. -/
  | shorthandDefault
  /-- Key, function. -/
  | objectMethod
  /-- Key, parameters, result type, body. -/
  | objectAccessor (kind : MethodKind)
  /-- A property name that is no reference. -/
  | name (text : String)
  | privateName (text : String)
  /-- The expression of a computed property name. -/
  | computed
  /-- Name, parameters, body, type parameters, result type. -/
  | function (role : Role) (isAsync isGenerator isDeclare : Bool)
  /-- Parameters, body, type parameters, result type. -/
  | arrow (isAsync : Bool)
  /-- The statements of a function body. -/
  | body
  /-- Name, members, base class, type parameters, type arguments of the base, interfaces. -/
  | class (role : Role) (isAbstract isDeclare : Bool)
  /-- Key, function. -/
  | classMethod (kind : MethodKind) (mods : Modifiers)
  /-- Function. -/
  | constructor (mods : Modifiers)
  /-- Key, value, type. -/
  | classField (mods : Modifiers)
  /-- The statements of a static block. -/
  | staticBlock
  | emptyMember
  | unary (op : String)
  | update (op : String) (isBefore : Bool)
  | binary (op : String)
  /-- Target, value. -/
  | assign (op : String)
  | conditional
  /-- Callee, arguments, type arguments. -/
  | call
  /-- Callee, arguments, type arguments. -/
  | new (hasArguments : Bool)
  /-- Object, name. -/
  | member
  /-- Object, index. -/
  | index
  | optMember (isOptional : Bool)
  | optIndex (isOptional : Bool)
  /-- Callee, arguments, type arguments. -/
  | optCall (isOptional : Bool)
  | paren
  | sequence
  | yield (isDelegate : Bool)
  | await
  /-- What a removed call leaves in its place. -/
  | removed
  /-- Expression, type. -/
  | asType
  | asConst
  /-- Expression, type. -/
  | satisfies
  | nonNull
  /-- Expression, type. -/
  | typeAssertion
  /-- Expression, type arguments. -/
  | instantiation
  /-- Name, attributes, type arguments, children. -/
  | jsxElement (isClosed : Bool)
  | jsxFragment
  /-- Text between tags, with its references replaced by what they stand for. -/
  | jsxText (value : String)
  | jsxContainer
  | jsxSpreadChild
  /-- Name, value. -/
  | jsxAttribute
  | jsxSpreadAttribute
  | arrayPattern
  | objectPattern
  /-- Key, pattern. -/
  | patternProperty
  /-- Name, default. -/
  | patternShorthand
  /-- Pattern, default. -/
  | patternDefault
  | rest
  /-- Pattern, type, with a mark between them. -/
  | annotated (mark : String)
  /-- A parameter that is also a property. -/
  | parameterProperty (mods : Modifiers)
  | exprStmt
  | empty
  | block
  /-- Declarators; a declaration in the head of a loop has no end of its own. -/
  | varDecl (kind : VarKind) (isDeclare isHead : Bool)
  /-- Pattern, initial value. -/
  | declarator
  /-- Test, consequence, alternative. -/
  | ifStmt
  /-- Head, test, update, body. -/
  | forStmt
  /-- Head, object, body. -/
  | forIn
  /-- Head, iterated, body. -/
  | forOf (isAwait : Bool)
  | whileStmt
  /-- Test, body. -/
  | doWhile
  /-- Discriminant, cases. -/
  | switch
  | cases
  /-- Test, statements. -/
  | case
  /-- Statements of a case. -/
  | consequent
  /-- Block, handler, finalizer. -/
  | tryStmt
  /-- Parameter, block. -/
  | catchClause
  | throwStmt
  | returnStmt
  /-- Label. -/
  | breakStmt
  /-- Label. -/
  | continueStmt
  /-- Label, statement. -/
  | labeled
  /-- Object, statement. -/
  | withStmt
  | debugger
  /-- Attributes. -/
  | importDecl (decl : ImportDecl)
  | exportDecl
  | exportDefaultExpr
  | exportDefaultDecl
  /-- Source, attributes. -/
  | exportNamed (specifiers : List ExportSpecifier) (typeOnly : Bool)
  /-- Source, attributes. -/
  | exportAll (typeOnly : Bool)
  /-- Name, type parameters, extended interfaces, members. -/
  | interface (isDeclare : Bool)
  /-- Name, type parameters, type. -/
  | typeAlias (isDeclare : Bool)
  /-- Name, members. -/
  | enum (isConst isDeclare : Bool)
  /-- Key, initial value. -/
  | enumMember
  /-- Name, body. The name is a text, or a name that may have points in it. -/
  | moduleDecl (isGlobal isDeclare : Bool)
  /-- The items of a namespace. -/
  | moduleBlock
  /-- Name, target. -/
  | importEquals (isExport typeOnly : Bool)
  /-- The text that names a module, as the target of an import. -/
  | externalModule
  | exportAssign
  /-- Name. -/
  | exportAsNamespace
  | typeWord (text : String)
  /-- Type arguments. -/
  | typeReference (name : String)
  /-- Type arguments. -/
  | typeQuery (name : String)
  | typeArray
  | typeUnion
  | typeIntersection
  | typeTuple
  /-- Type. -/
  | typeTupleElement (label : Option String) (isOptional isRest : Bool)
  | typeObject
  /-- Parameters, type parameters, result. -/
  | typeFunction (isConstructor isAbstract : Bool)
  | typeParen
  | typeOperator (op : String)
  /-- Checked, bound, then, else. -/
  | typeConditional
  /-- Constraint. -/
  | typeInfer (name : String)
  /-- Object, index. -/
  | typeIndexed
  | typeLiteral
  | typeTemplate (quasis : List Quasi)
  /-- Argument, type arguments. -/
  | typeImport (qualifier : String)
  /-- Type. -/
  | typePredicate (name : String) (isAsserts : Bool)
  /-- Constraint, name type, type. -/
  | typeMapped (name : String) (readonlyMark optionalMark : String)
  | typeArguments
  | typeParameters
  /-- Constraint, default. -/
  | typeParameter (name : String) (words : String)
  /-- Key, type. -/
  | propertySignature (isReadonly isOptional isComputed : Bool)
  /-- Key, parameters, result, type parameters. -/
  | methodSignature (isOptional : Bool)
  /-- Parameters, result, type parameters. -/
  | callSignature (isConstructor : Bool)
  /-- Key, parameters, result. -/
  | accessorSignature (kind : MethodKind)
  /-- Parameter, type. -/
  | indexSignature (isReadonly inClass : Bool)
  deriving Inhabited

/-- A construct of the program. -/
inductive Node where
  | mk (form : Form) (origin : Origin) (parts : List Node)
  deriving Inhabited

namespace Node

def form : Node → Form
  | .mk form _ _ => form

def origin : Node → Origin
  | .mk _ origin _ => origin

/-- The node's parts in visiting order. -/
def parts : Node → List Node
  | .mk _ _ parts => parts

/-- The span of a node in its text; nodes that a builder made stand at its start. -/
def span (n : Node) : Span :=
  match n.origin with
  | .file span => span
  | _ => ⟨0, 0⟩

def start (n : Node) : Nat := n.span.lo

/-- A node made by a builder. -/
def build (form : Form) (parts : List Node := []) : Node :=
  .mk form .built parts

/-- The node that stands for a missing part. -/
def missing : Node := build .absent

def isAbsent (n : Node) : Bool :=
  match n.form with
  | .absent => true
  | _ => false

end Node

/-- Whether the parts of a form are statements that stand in a list, where one can be dropped. -/
def Form.isStatementList : Form → Bool
  | .block | .body | .staticBlock | .consequent | .moduleBlock => true
  | _ => false

end CallExpander
