import CallExpander.Import.Spec

/-!
Macro imports. An import of a macro module turns into bindings: the local names that stand for
macros. The import itself is retired: it is dropped, or kept as a bare import, and only what it
imports as a type stays in it.
-/

namespace CallExpander

/-- A local name that stands for macros. -/
inductive Binding where
  /-- The name stands for all macros of a module. -/
  | namespace (localName module : String) (macros : List String)
  /-- The name stands for one export, which may be no macro. -/
  | named (localName module exportName : String) (target : Option String)
  deriving Repr, DecidableEq, Inhabited

/-- The names of the macros that a module exports; none if it is no macro module. -/
abbrev Exports := String → Option (List String)

namespace Binding

def localName : Binding → String
  | .namespace name _ _ => name
  | .named name _ _ _ => name

def module : Binding → String
  | .namespace _ module _ => module
  | .named _ module _ _ => module

def isTypeOnly : ImportSpecifier → Bool
  | .named _ _ typeOnly _ => typeOnly
  | _ => false

def ofSpecifier (module : String) (macros : List String) : ImportSpecifier → Binding
  | .default name => .namespace name.text module macros
  | .namespace name => .namespace name.text module macros
  | .named name imported _ _ =>
    let exportName := imported.elim name.text ExportName.text
    .named name.text module exportName (macros.find? (· == exportName))

def ofDecl (decl : ImportDecl) (macros : List String) : List Binding :=
  (decl.specifiers.filter fun s => !isTypeOnly s).map (ofSpecifier decl.source.value macros)

end Binding

/-- What becomes of a macro import: the bindings it makes, and what remains of it. -/
structure Retired where
  bindings : List Binding
  remains : Option Node
  deriving Inhabited

/-- Retires an item that imports from a macro module; none if it is anything else. -/
def retireImport (exports : Exports) (keepImports : Bool) (item : Node) : Option Retired :=
  match item.importDecl? with
  | none => none
  | some decl =>
    if decl.typeOnly then none
    else
      match exports decl.source.value with
      | none => none
      | some macros =>
        let kept := decl.specifiers.filter Binding.isTypeOnly
        let item := Node.mk (.importDecl { decl with specifiers := kept }) item.origin []
        some {
          bindings := Binding.ofDecl decl macros
          remains := if keepImports || !kept.isEmpty then some item else none }

/-- Retires every macro import among some items: the bindings they make, and the items that
remain. -/
def collectBindings (exports : Exports) (keepImports : Bool) : List Node → List Binding × List Node
  | [] => ([], [])
  | item :: rest =>
    let (bindings, items) := collectBindings exports keepImports rest
    match retireImport exports keepImports item with
    | none => (bindings, item :: items)
    | some retired => (retired.bindings ++ bindings, retired.remains.toList ++ items)

end CallExpander
