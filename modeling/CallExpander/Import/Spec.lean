import CallExpander.Json.Value
import CallExpander.Tree.Basic

/-!
Import specifications: what to import from where, how a specification is written as data, which
declaration satisfies it, and the declaration it stands for.
-/

namespace CallExpander

/-- One thing to import. -/
inductive ImportSpec where
  | namespace (module name : String)
  | aliased (module exportName localName : String)
  | named (module exportName : String)
  | default (module name : String)
  | bare (module : String)
  deriving Repr, DecidableEq, Inhabited

namespace ImportSpec

def module : ImportSpec → String
  | .namespace module _ | .aliased module _ _ | .named module _ | .default module _ | .bare module =>
    module

def shape : ImportSpec → String
  | .namespace .. => "namespace"
  | .aliased .. => "aliased"
  | .named .. => "named"
  | .default .. => "default"
  | .bare _ => "bare"

/-- A specification written as an object. The first shape counts whose keys all hold a text, the
most specific shapes first; other keys do not matter. -/
def ofJson? (value : Json) : Option ImportSpec :=
  match value.getStr? "moduleName" with
  | none => none
  | some module =>
    match value.getStr? "namespaceName", value.getStr? "exportName", value.getStr? "localName",
        value.getStr? "defaultName" with
    | some name, _, _, _ => some (.namespace module name)
    | _, some exportName, some localName, _ => some (.aliased module exportName localName)
    | _, some exportName, _, _ => some (.named module exportName)
    | _, _, _, some name => some (.default module name)
    | _, _, _, _ => some (.bare module)

def toJson : ImportSpec → Json
  | .namespace module name =>
    Json.object [("moduleName", .str module), ("namespaceName", .str name)]
  | .aliased module exportName localName =>
    Json.object [("moduleName", .str module), ("exportName", .str exportName),
      ("localName", .str localName)]
  | .named module exportName =>
    Json.object [("moduleName", .str module), ("exportName", .str exportName)]
  | .default module name => Json.object [("moduleName", .str module), ("defaultName", .str name)]
  | .bare module => Json.object [("moduleName", .str module)]

/-- The specifiers of the declaration that a specification stands for. -/
def specifiers : ImportSpec → List ImportSpecifier
  | .namespace _ name => [.namespace ⟨name, .built⟩]
  | .aliased _ exportName localName =>
    let imported := if exportName = localName then none else some (.name ⟨exportName, .built⟩)
    [.named ⟨localName, .built⟩ imported false .built]
  | .named _ exportName => [.named ⟨exportName, .built⟩ none false .built]
  | .default _ name => [.default ⟨name, .built⟩]
  | .bare _ => []

def toDecl (spec : ImportSpec) : ImportDecl :=
  { specifiers := spec.specifiers, source := ⟨spec.module, none⟩ }

def toItem (spec : ImportSpec) : Node :=
  Node.build (.importDecl spec.toDecl)

/-- The exported and the local name of a specifier that imports a value by name. -/
def namedParts : ImportSpecifier → Option (String × String)
  | .named localName imported false _ =>
    some (imported.elim localName.text ExportName.text, localName.text)
  | _ => none

/-- Whether a specifier imports what is asked for. A loose match ignores local names. -/
def matchesSpecifier (spec : ImportSpec) (loose : Bool) (specifier : ImportSpecifier) : Bool :=
  match spec, specifier with
  | .default _ name, .default localName => loose || localName.text == name
  | .namespace _ name, .namespace localName => loose || localName.text == name
  | .named _ exportName, specifier =>
    (namedParts specifier).any fun p => p.1 == exportName && (loose || p.2 == exportName)
  | .aliased _ exportName localName, specifier =>
    (namedParts specifier).any fun p => p.1 == exportName && (loose || p.2 == localName)
  | _, _ => false

/-- Whether a declaration provides what is asked for. -/
def isSatisfiedBy (spec : ImportSpec) (loose : Bool) (decl : ImportDecl) : Bool :=
  !decl.typeOnly && decl.source.value == spec.module &&
    match spec with
    | .bare _ => loose || decl.specifiers.isEmpty
    | _ => decl.specifiers.any (spec.matchesSpecifier loose)

end ImportSpec

def Node.importDecl? (n : Node) : Option ImportDecl :=
  match n.form with
  | .importDecl decl => some decl
  | _ => none

/-- The first item that provides what is asked for. -/
def findImport (items : List Node) (spec : ImportSpec) (loose : Bool) : Option Nat :=
  items.findIdx? fun n => n.importDecl?.any (spec.isSatisfiedBy loose)

end CallExpander
