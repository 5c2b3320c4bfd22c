import CallExpander.Import.Resolution
import CallExpander.Tree.Sweep

/-!
The items of a program while it is expanded. An item is detached while it is expanded, and an empty
statement holds its place; such a place is pending. Expanding one item can lead to expanding
another, so pending places form a stack, and edits keep each of them at the item it stands for.
-/

namespace CallExpander

/-- The items of a program, and the indices of the pending ones, the latest first. -/
structure Body where
  items : List Node
  pending : List Nat := []
  deriving Inhabited

/-- A change that a handler makes to the program. -/
inductive Edit where
  /-- Inserts items before all others. -/
  | prepend (items : List Node)
  /-- Inserts items behind all others. -/
  | append (items : List Node)
  /-- Ensures imports, missing ones before all other items. -/
  | prependImports (specs : List ImportSpec)
  /-- Ensures imports, missing ones behind the last import. -/
  | appendImports (specs : List ImportSpec)
  /-- Overwrites an item; one that is pending or missing stays as it is. -/
  | overwrite (index : Nat) (item : Node)
  deriving Inhabited

namespace Body

def size (body : Body) : Nat := body.items.length

def isPending (body : Body) (index : Nat) : Bool :=
  body.pending.contains index

/-- Takes an item out and leaves an empty statement in its place; none if there is no such item. -/
def detach? (body : Body) (index : Nat) : Option (Node × Body) :=
  body.items[index]?.map fun item =>
    (item, ⟨body.items.set index Node.emptyStatement, index :: body.pending⟩)

/-- Puts an item into the latest pending place, and tells where that is; none if no place is
pending. -/
def reattach? (body : Body) (item : Node) : Option (Nat × Body) :=
  match body.pending with
  | [] => none
  | index :: rest =>
    if index < body.size then some (index, ⟨body.items.set index item, rest⟩) else none

/-- Drops the item at an index; pending places behind it move up. -/
def remove? (body : Body) (index : Nat) : Option Body :=
  if index < body.size then
    some ⟨body.items.eraseIdx index, body.pending.map fun i => if i > index then i - 1 else i⟩
  else none

/-- Drops the latest pending place, and tells where the item behind it is now; none if no place is
pending. -/
def discard? (body : Body) : Option (Nat × Body) :=
  match body.pending with
  | [] => none
  | index :: rest => (remove? { body with pending := rest } index).map (index, ·)

/-- Inserts items at an index; pending places from there on move down. -/
def insertAll (body : Body) (index : Nat) (items : List Node) : Body :=
  { items := body.items.take index ++ items ++ body.items.drop index
    pending := body.pending.map fun i => if i ≥ index then i + items.length else i }

def indicesFrom (index count : Nat) : List Nat :=
  (List.range count).map (index + ·)

/-- Inserts items before all others, and tells where they are. -/
def prepend (body : Body) (items : List Node) : List Nat × Body :=
  (indicesFrom 0 items.length, body.insertAll 0 items)

def append (body : Body) (items : List Node) : List Nat × Body :=
  (indicesFrom body.size items.length, body.insertAll body.size items)

/-- Overwrites an item; none if it is pending or missing. -/
def set? (body : Body) (index : Nat) (item : Node) : Option Body :=
  if body.isPending index then none
  else if index < body.size then some { body with items := body.items.set index item }
  else none

/-- The specifications that no item satisfies, each once, in order. -/
def missingImports (items : List Node) : List ImportSpec → List ImportSpec → List ImportSpec
  | missing, [] => missing
  | missing, spec :: rest =>
    if (findImport items spec false).isSome || missing.contains spec then
      missingImports items missing rest
    else missingImports items (missing ++ [spec]) rest

/-- Where a specification is satisfied once the missing ones stand at an index. -/
def importIndex (items : List Node) (missing : List ImportSpec) (index : Nat) (spec : ImportSpec) :
    Nat :=
  match findImport items spec false with
  | some i => if i ≥ index then i + missing.length else i
  | none => index + missing.idxOf spec

/-- Sees to it that every specification is satisfied, inserting what is missing at an index, and
tells where each one is. -/
def ensureImports (body : Body) (index : Nat) (specs : List ImportSpec) : List Nat × Body :=
  let missing := missingImports body.items [] specs
  (specs.map (importIndex body.items missing index),
    body.insertAll index (missing.map ImportSpec.toItem))

/-- Ensures imports, missing ones before all other items. -/
def prependImports (body : Body) (specs : List ImportSpec) : List Nat × Body :=
  body.ensureImports 0 specs

/-- The index behind the last import. -/
def behindImports (items : List Node) : Nat :=
  items.length - (items.reverse.takeWhile fun n => n.importDecl?.isNone).length

/-- Ensures imports, missing ones behind the last import. -/
def appendImports (body : Body) (specs : List ImportSpec) : List Nat × Body :=
  body.ensureImports (behindImports body.items) specs

/-- Makes a change, and tells where the items are that it inserted or ensured. -/
def edit (body : Body) : Edit → List Nat × Body
  | .prepend items => body.prepend items
  | .append items => body.append items
  | .prependImports specs => body.prependImports specs
  | .appendImports specs => body.appendImports specs
  | .overwrite index item =>
    match body.set? index item with
    | some body => ([index], body)
    | none => ([], body)

/-- Whether an item contains a macro call. What a pending item contains is not visible, so it always
counts. -/
def containsMacros (body : Body) (bindings : List Binding) (index : Nat) : Bool :=
  body.isPending index || body.items[index]?.any (CallExpander.containsMacros bindings)

end Body

end CallExpander
