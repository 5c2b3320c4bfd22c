import CallExpander.Tree.Basic

/-!
The names that a piece of program declares for the scope around it. A `var` reaches the whole
function, other declarations only the list of statements they stand in, and inside a `catch` a name
that is also caught there counts for the handler alone.
-/

namespace CallExpander.Node

mutual

/-- The names that a pattern binds. Keys and default values bind nothing. -/
def patternNames : Node → List String
  | .mk (.ident name _) _ _ => [name]
  | .mk .patternProperty _ (_ :: values) => patternNamesIn values
  | .mk .patternShorthand _ (name :: _) => patternNames name
  | .mk .patternDefault _ (target :: _) => patternNames target
  | .mk (.annotated _) _ (target :: _) => patternNames target
  | .mk .arrayPattern _ parts => patternNamesIn parts
  | .mk .objectPattern _ parts => patternNamesIn parts
  | .mk .rest _ parts => patternNamesIn parts
  | .mk (.parameterProperty _) _ parts => patternNamesIn parts
  | _ => []

def patternNamesIn : List Node → List String
  | [] => []
  | n :: rest => patternNames n ++ patternNamesIn rest

end

def declaratorNames : Node → List String
  | .mk .declarator _ (target :: _) => patternNames target
  | _ => []

/-- The name that a part is, if it is one. -/
def identNames (n : Node) : List String :=
  match n.form with
  | .ident name _ => [name]
  | _ => []

/-- The steps of a name with points in it; none for a text. -/
def nameSteps (n : Node) : List String :=
  match n.form with
  | .name text => text.splitOn "."
  | _ => []

/-- The names that parameters bind before any of them is looked at: those of a rest parameter and of
a parameter that is also a property come in only when it is reached. -/
def earlyNames (params : List Node) : List String :=
  params.flatMap fun param => match param.form with
    | .rest | .parameterProperty _ => []
    | _ => patternNames param

/-- What a search for declarations has found, and which names are caught on the way. -/
structure Hoist where
  names : List String := []
  /-- Names that some `catch` binds. -/
  caught : List String := []
  /-- Caught names that are declared all the same. -/
  excluded : List String := []
  deriving Repr, DecidableEq, Inhabited

/-- Where a search for declarations is. -/
structure Depth where
  /-- Names that are declared between the list and the function around it. -/
  around : List String := []
  /-- Whether the list is that of a module. -/
  inModule : Bool := false
  inBlock : Bool := false
  inCatch : Bool := false
  deriving Repr, DecidableEq, Inhabited

namespace Hoist

/-- Adds a name, unless it is caught: a name that is caught and not known around is declared by the
handler that declares it. -/
def add (depth : Depth) (hoist : Hoist) (name : String) : Hoist :=
  if depth.inCatch then
    if (depth.around.contains name || hoist.names.contains name) && hoist.caught.contains name then
      hoist
    else { hoist with names := name :: hoist.names, excluded := name :: hoist.excluded }
  else if hoist.caught.contains name && !hoist.excluded.contains name then hoist
  else { hoist with names := name :: hoist.names }

def addAll (depth : Depth) (hoist : Hoist) (names : List String) : Hoist :=
  names.foldl (add depth) hoist

/-- Adds the name of a function, unless it is caught. -/
def addFunction (hoist : Hoist) (names : List String) : Hoist :=
  if names.any hoist.caught.contains then hoist
  else { hoist with names := names ++ hoist.names }

end Hoist

/-- Whether a variable declaration is looked at before the other statements of its list: in the list
of a module only a `var` is. -/
def comesEarly (inModule : Bool) : VarKind → Bool
  | .var => true
  | .let | .const => !inModule
  | .using | .awaitUsing => false

/-- Whether a statement is looked at before the others of its list: one that declares variables, or a
function. -/
def comesFirst (inModule : Bool) : Node → Bool
  | .mk (.varDecl kind _ _) _ _ => comesEarly inModule kind
  | .mk (.function .declaration _ _ _) _ _ => true
  | .mk .exportDecl _ [.mk (.varDecl kind _ _) _ _] => comesEarly inModule kind
  | .mk .exportDecl _ [.mk (.function .declaration _ _ _) _ _] => true
  | _ => false

mutual

/-- The declarations of a statement that reach the list it stands in. -/
def hoist (depth : Depth) : Node → Hoist → Hoist
  | .mk form _ parts, found =>
    match form, parts with
    | .varDecl kind _ isHead, _ =>
      if kind == .var || (!depth.inBlock && !isHead) then
        found.addAll depth (parts.flatMap declaratorNames)
      else found
    | .function .declaration .., name :: _ =>
      if depth.inBlock then found else found.addFunction (identNames name)
    | .class .declaration .., name :: _ =>
      if depth.inBlock then found else found.addAll depth (identNames name)
    | .importDecl decl, _ => found.addAll depth (decl.specifiers.map (·.localName.text))
    | .enum .., name :: _ | .moduleDecl false _, name :: _ =>
      if depth.inBlock then found else found.addAll depth ((nameSteps name).take 1)
    | .exportDecl, _ => hoistParts depth parts found
    | .exportDefaultDecl, _ => hoistDefault depth parts found
    | .block, _ | .staticBlock, _ | .consequent, _ =>
      let inner := { depth with inModule := false, inBlock := true }
      hoistLate inner parts (hoistEarly inner parts found)
    | .catchClause, param :: _ =>
      let inner := { found with caught := patternNames param ++ found.caught, excluded := [] }
      { hoistParts { depth with inCatch := true } parts inner with excluded := found.excluded }
    | .ifStmt, _ | .forStmt, _ | .forIn, _ | .forOf _, _ | .whileStmt, _ | .doWhile, _ | .switch, _
    | .cases, _ | .case, _ | .tryStmt, _ | .labeled, _ | .withStmt, _ => hoistParts depth parts found
    | _, _ => found

/-- The declarations of each of some statements, in order. -/
def hoistParts (depth : Depth) : List Node → Hoist → Hoist
  | [], found => found
  | n :: rest, found => hoistParts depth rest (hoist depth n found)

/-- The declarations of the statements that come first in a list. -/
def hoistEarly (depth : Depth) : List Node → Hoist → Hoist
  | [], found => found
  | n :: rest, found =>
    hoistEarly depth rest (if comesFirst depth.inModule n then hoist depth n found else found)

/-- The declarations of the other statements of a list. -/
def hoistLate (depth : Depth) : List Node → Hoist → Hoist
  | [], found => found
  | n :: rest, found =>
    hoistLate depth rest (if comesFirst depth.inModule n then found else hoist depth n found)

/-- The declarations of a default export. A class is looked into for its static blocks. -/
def hoistDefault (depth : Depth) : List Node → Hoist → Hoist
  | [.mk (.class _ _ _) _ (name :: members :: _)], found =>
    hoistMembers depth members (found.addAll depth (identNames name))
  | [.mk (.function _ _ _ _) _ (name :: _)], found => found.addFunction (identNames name)
  | _, found => found

def hoistMembers (depth : Depth) : Node → Hoist → Hoist
  | .mk .members _ parts, found => hoistParts depth parts found
  | _, found => found

end

/-- The names that a list of statements declares for its scope. -/
def declaredNames (around : List String) (inModule : Bool) (statements : List Node) : List String :=
  let depth : Depth := { around, inModule }
  (hoistLate depth statements (hoistEarly depth statements {})).names

end CallExpander.Node
