import CallExpander.Tree.Literal

/-!
Cleaning up behind removed calls. A removed call leaves a marker; a marker that is a whole statement
takes the statement with it where the statement stands in a list, and leaves an empty statement
where it stands alone. Anywhere else it becomes `void 0`.
-/

namespace CallExpander.Node

/-- Whether an expression is the marker of a removed call. -/
def isRemoved (n : Node) : Bool :=
  match n.form with
  | .removed => true
  | _ => false

/-- Whether a statement is nothing but the marker of a removed call. -/
def isRemovedStatement : Node → Bool
  | .mk .exprStmt _ [inner] => inner.isRemoved
  | _ => false

def emptyStatement : Node := build .empty

mutual

/-- Resolves the markers in a tree. -/
def sweep : Node → Node
  | .mk .removed _ _ => undefined
  | .mk form origin parts =>
    if isRemovedStatement (.mk form origin parts) then emptyStatement
    else if form.isStatementList then .mk form origin (sweepStatements parts)
    else .mk form origin (sweepParts parts)

def sweepParts : List Node → List Node
  | [] => []
  | n :: rest => sweep n :: sweepParts rest

/-- Resolves the markers in a list of statements, dropping those that are markers. -/
def sweepStatements : List Node → List Node
  | [] => []
  | n :: rest =>
    if isRemovedStatement n then sweepStatements rest else sweep n :: sweepStatements rest

end

end CallExpander.Node
