import CallExpander.Tree.Names

/-!
Scopes. Every name is marked as bound or not: it is bound if a declaration of that name is in scope
where it stands. A list of statements declares its names before any of them is looked at; all other
names come into scope when the walk reaches their declaration.
-/

namespace CallExpander.Node

/-- The names in scope. -/
structure Env where
  /-- Names of the scopes around the current one. -/
  outer : List String := []
  /-- Those of them inside the function around it. -/
  near : List String := []
  /-- Names of the current scope. -/
  names : List String := []
  deriving Repr, DecidableEq, Inhabited

namespace Env

def knows (env : Env) (name : String) : Bool :=
  env.names.contains name || env.outer.contains name

def declare (env : Env) (names : List String) : Env :=
  { env with names := names ++ env.names }

def block (env : Env) : Env :=
  { outer := env.names ++ env.outer, near := env.names ++ env.near }

/-- The scope of a function inside the current one. -/
def function (env : Env) : Env :=
  { outer := env.names ++ env.outer }

/-- Declares what a list of statements declares. -/
def hoist (env : Env) (statements : List Node) : Env :=
  env.declare (declaredNames (env.names ++ env.near) false statements)

def hoistItems (env : Env) (items : List Node) : Env :=
  env.declare (declaredNames (env.names ++ env.near) true items)

end Env

def memberNames (members : List Node) : List String :=
  members.flatMap fun member => match member with
    | .mk .enumMember _ (.mk (.name text) _ _ :: _) => [text]
    | _ => []

def parametersOf (part : Node) : List Node :=
  match part.form with
  | .group => part.parts
  | _ => []

mutual

/-- Marks the names in a tree, and gives the scope behind it. -/
def mark (env : Env) : Node → Node × Env
  | .mk (.ident name _) origin parts => (.mk (.ident name (env.knows name)) origin parts, env)
  | .mk .removed origin parts => (.mk .removed origin parts, env)
  | .mk (.function role isAsync isGenerator isDeclare) origin parts =>
    let inner := match role with
      | .expression => env.function.declare (parts.take 1 |>.flatMap identNames)
      | _ => env
    (.mk (.function role isAsync isGenerator isDeclare) origin (markFunction inner parts), env)
  | .mk (.arrow isAsync) origin parts => (.mk (.arrow isAsync) origin (markArrow env parts), env)
  | .mk (.objectAccessor kind) origin parts =>
    (.mk (.objectAccessor kind) origin (markAccessor env parts), env)
  | .mk (.class role isAbstract isDeclare) origin parts =>
    let form := Form.class role isAbstract isDeclare
    match role with
    | .expression => (.mk form origin (markClass env true parts), env)
    | _ =>
      let env := env.declare (parts.take 1 |>.flatMap identNames)
      (.mk form origin (markClass env false parts), env)
  | .mk .exportDefaultDecl origin parts =>
    let (parts, env) := markDefault env parts
    (.mk .exportDefaultDecl origin parts, env)
  | .mk .block origin parts => (.mk .block origin (markAll (env.block.hoist parts) parts).1, env)
  | .mk .staticBlock origin parts =>
    (.mk .staticBlock origin (markAll (env.block.hoist parts) parts).1, env)
  | .mk .body origin parts =>
    let (parts, env) := markAll (env.hoist parts) parts
    (.mk .body origin parts, env)
  | .mk .consequent origin parts =>
    let (parts, env) := markAll (env.hoist parts) parts
    (.mk .consequent origin parts, env)
  | .mk .moduleBlock origin parts =>
    let (parts, env) := markAll (env.hoistItems parts) parts
    (.mk .moduleBlock origin parts, env)
  | .mk .declarator origin parts =>
    let (parts, env) := markDeclared env parts
    (.mk .declarator origin parts, env)
  | .mk .forStmt origin parts => (.mk .forStmt origin (markAll env.block parts).1, env)
  | .mk .forIn origin parts => (.mk .forIn origin (markAll env.block parts).1, env)
  | .mk (.forOf isAwait) origin parts =>
    (.mk (.forOf isAwait) origin (markAll env.block parts).1, env)
  | .mk .cases origin parts => (.mk .cases origin (markAll env.block parts).1, env)
  | .mk .case origin parts =>
    let (parts, env) := markCase env parts
    (.mk .case origin parts, env)
  | .mk .catchClause origin parts =>
    (.mk .catchClause origin (markCatch env.function parts), env)
  | .mk (.enum isConst isDeclare) origin parts =>
    let env := env.declare (parts.take 1 |>.flatMap nameSteps)
    (.mk (.enum isConst isDeclare) origin (markEnum env.block parts), env)
  | .mk (.moduleDecl isGlobal isDeclare) origin parts =>
    let steps := parts.take 1 |>.flatMap nameSteps
    let env := env.declare (steps.take 1)
    let inner := env.block.declare (steps.drop 1)
    (.mk (.moduleDecl isGlobal isDeclare) origin (markAll inner parts).1, env)
  | .mk (.importEquals isExport typeOnly) origin parts =>
    (.mk (.importEquals isExport typeOnly) origin parts,
      env.declare (parts.take 1 |>.flatMap nameSteps))
  | .mk form origin parts =>
    let (parts, env) := markAll env parts
    (.mk form origin parts, env)

/-- Marks the names in a list of trees, each in the scope behind the one before. -/
def markAll (env : Env) : List Node → List Node × Env
  | [] => ([], env)
  | n :: rest =>
    let (n, env) := mark env n
    let (rest, env) := markAll env rest
    (n :: rest, env)

/-- Marks a default export. The members of a class have the scope around it. -/
def markDefault (env : Env) : List Node → List Node × Env
  | [] => ([], env)
  | [.mk (.class role isAbstract isDeclare) origin parts] =>
    let (parts, env) := markAll env parts
    ([.mk (.class role isAbstract isDeclare) origin parts], env)
  | n :: rest =>
    let (n, env) := mark env n
    let (rest, env) := markAll env rest
    (n :: rest, env)

/-- Marks a pattern whose names are declared as they are reached. -/
def markPattern (env : Env) : Node → Node × Env
  | .mk (.ident name _) origin parts => (.mk (.ident name true) origin parts, env.declare [name])
  | .mk .patternProperty origin parts =>
    let (parts, env) := markProperty env parts
    (.mk .patternProperty origin parts, env)
  | .mk .patternShorthand origin parts =>
    let (parts, env) := markDeclared env parts
    (.mk .patternShorthand origin parts, env)
  | .mk .patternDefault origin parts =>
    let (parts, env) := markDeclared env parts
    (.mk .patternDefault origin parts, env)
  | .mk (.annotated mark) origin parts =>
    let (parts, env) := markDeclared env parts
    (.mk (.annotated mark) origin parts, env)
  | .mk .arrayPattern origin parts =>
    let (parts, env) := markPatterns env parts
    (.mk .arrayPattern origin parts, env)
  | .mk .objectPattern origin parts =>
    let (parts, env) := markPatterns env parts
    (.mk .objectPattern origin parts, env)
  | .mk .rest origin parts =>
    let (parts, env) := markPatterns env parts
    (.mk .rest origin parts, env)
  | .mk (.parameterProperty mods) origin parts =>
    let (parts, env) := markPatterns env parts
    (.mk (.parameterProperty mods) origin parts, env)
  | n => (n, env)

def markPatterns (env : Env) : List Node → List Node × Env
  | [] => ([], env)
  | n :: rest =>
    let (n, env) := markPattern env n
    let (rest, env) := markPatterns env rest
    (n :: rest, env)

/-- Marks a pattern and the expressions behind it. -/
def markDeclared (env : Env) : List Node → List Node × Env
  | [] => ([], env)
  | target :: rest =>
    let (target, env) := markPattern env target
    let (rest, env) := markAll env rest
    (target :: rest, env)

def markProperty (env : Env) : List Node → List Node × Env
  | [] => ([], env)
  | key :: rest =>
    let (key, env) := mark env key
    let (rest, env) := markPatterns env rest
    (key :: rest, env)

def markParameters (env : Env) : Node → Node × Env
  | .mk .group origin parts =>
    let (parts, env) := markPatterns env parts
    (.mk .group origin parts, env)
  | n => (n, env)

/-- Marks the parts of a function. Its type parameters stand outside the scope of its parameters. -/
def markFunction (env : Env) : List Node → List Node
  | name :: params :: body :: typeParams :: rest =>
    let (typeParams', inner) := mark env.function typeParams
    let (params', inner) :=
      markParameters (inner.declare (earlyNames (parametersOf params))) params
    let (rest', inner) := markAll inner rest
    (mark env name).1 :: params' :: (mark inner body).1 :: typeParams' :: rest'
  | parts => parts

/-- Marks the parts of an arrow function. Its result type has the scope of its body. -/
def markArrow (env : Env) : List Node → List Node
  | params :: body :: typeParams :: rest =>
    let (typeParams', inner) := mark env.function typeParams
    let (params', inner) :=
      markParameters (inner.declare (earlyNames (parametersOf params))) params
    let (body', inner) := mark inner body
    params' :: body' :: typeParams' :: (markAll inner rest).1
  | parts => parts

/-- Marks the parts of an accessor of an object. Its body has a scope of its own, and the parameter
of a setter comes into scope only when it is reached. -/
def markAccessor (env : Env) : List Node → List Node
  | key :: params :: rest =>
    let (params', inner) := markParameters env.function params
    (mark env key).1 :: params' :: (markAll inner.block rest).1
  | parts => parts

/-- Marks the parts of a class. The base of a class that is an expression stands outside its
scope. -/
def markClass (env : Env) (isExpression : Bool) : List Node → List Node
  | name :: members :: parent :: rest =>
    let inner := if isExpression then env.function.declare (identNames name) else env.function
    let parent' := if isExpression then (mark env parent).1 else (mark inner parent).1
    (mark inner name).1 :: (mark inner members).1 :: parent' :: (markAll inner rest).1
  | parts => parts

/-- Marks a case of a switch: its statements, and then its test. -/
def markCase (env : Env) : List Node → List Node × Env
  | [test, consequent] =>
    let (consequent, env) := mark env consequent
    let (test, env) := mark env test
    ([test, consequent], env)
  | parts => (parts, env)

/-- Marks the parts of a handler, whose block has the scope of its parameter. -/
def markCatch (env : Env) : List Node → List Node
  | [param, .mk .block origin statements] =>
    let (param, env) := markPattern env param
    [param, .mk .block origin (markAll (env.hoist statements) statements).1]
  | parts => parts

def markEnum (env : Env) : List Node → List Node
  | [name, .mk .enumMembers origin members] =>
    [name, .mk .enumMembers origin (markAll (env.declare (memberNames members)) members).1]
  | parts => parts

end

/-- Marks the names in the items of a file. -/
def resolve (items : List Node) : List Node :=
  (markAll (({} : Env).hoistItems items) items).1

end CallExpander.Node
