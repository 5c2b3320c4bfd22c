import CallExpander.Code.Printer.Expressions

/-!
How statements, imports and exports are laid out, without the end of their line.
-/

namespace CallExpander.Code

def varWord : VarKind → String
  | .var => "var "
  | .let => "let "
  | .const => "const "
  | .using => "using "
  | .awaitUsing => "await using "

def Part.isBlock (part : Part) : Bool :=
  match part.node.form with
  | .block => true
  | _ => false

/-- A text with the comments before it. -/
def placedText (origin : Origin) (text : String) : Pieces :=
  commentsBefore origin ++ txt text

def nameLayout (name : Name) : Pieces := placedText name.origin name.text

def exportNameLayout : ExportName → Pieces
  | .name name => nameLayout name
  | .str literal origin => placedText origin (literalText literal)

def bracedEntries (parent : Origin) (entries : List (Origin × Pieces)) : Pieces :=
  let items := entries.map fun entry =>
    commentsBefore entry.1 ++ entry.2 ++ leftovers parent entry.1
  txt "\x7b " ++ joined (txt ", ") items ++ txtIf (!items.isEmpty) " " ++ txt "\x7d"

def importEntry? : ImportSpecifier → Option (Origin × Pieces)
  | .named localName imported typeOnly origin =>
    let renamed := match imported with
      | none => []
      | some name => exportNameLayout name ++ txt " as "
    some (origin, txtIf typeOnly "type " ++ renamed ++ nameLayout localName)
  | _ => none

/-- What an import binds, outside braces. -/
def importHead? : ImportSpecifier → Option Pieces
  | .default name => some (nameLayout name)
  | .namespace name => some (txt "* as " ++ nameLayout name)
  | .named .. => none

def importNames (parent : Origin) (specifiers : List ImportSpecifier) : Pieces :=
  let entries := specifiers.filterMap importEntry?
  let heads := specifiers.filterMap importHead?
  joined (txt ", ") (heads ++ if entries.isEmpty then [] else [bracedEntries parent entries])

def importLayout (origin : Origin) (decl : ImportDecl) : Pieces :=
  txt "import " ++ txtIf decl.typeOnly "type " ++ phasePieces decl.phase
    ++ (if decl.specifiers.isEmpty then []
      else importNames origin decl.specifiers ++ txt " from ")
    ++ placedText decl.sourceOrigin (literalText decl.source)
where
  phasePieces : ImportPhase → Pieces
    | .evaluation => []
    | .source => txt "source "
    | .defer => txt "defer "

def exportEntry : ExportSpecifier → Origin × Pieces
  | .namespace exported origin => (origin, txt "* as " ++ exportNameLayout exported)
  | .named name exported typeOnly origin =>
    let renamed := match exported with
      | none => []
      | some other => txt " as " ++ exportNameLayout other
    (origin, txtIf typeOnly "type " ++ exportNameLayout name ++ renamed)

def exportNames (parent : Origin) : List ExportSpecifier → Pieces
  | [.namespace exported origin] =>
    commentsBefore origin ++ txt "* as " ++ exportNameLayout exported
  | specifiers => bracedEntries parent (specifiers.map exportEntry)

def attributesLayout (part : Part) : Pieces := part.after " with "

def ifLayout (test yes no : Part) : Pieces :=
  txt "if (" ++ test.full ++ txt ") " ++ yes.pieces
    ++ (if no.isAbsent then []
      else (if yes.isBlock then txt " " else [.line]) ++ txt "else " ++ no.pieces)

def namespaceLayout (isGlobal : Bool) (name : Part) : Pieces :=
  if isGlobal then name.pieces
  else
    match name.node.form with
    | .str _ => txt "module " ++ name.pieces
    | _ => txt "namespace " ++ name.pieces

def declarationLayout (form : Form) (origin : Origin) (parts : List Part) : Pieces :=
  let first := nth parts 0
  let second := nth parts 1
  match form with
  | .interface isDeclare =>
    txtIf isDeclare "declare " ++ txt "interface " ++ first.pieces ++ second.pieces
      ++ (nth parts 2).after " extends " ++ txt " " ++ (nth parts 3).pieces
  | .typeAlias isDeclare =>
    txtIf isDeclare "declare " ++ txt "type " ++ first.pieces ++ second.pieces ++ txt " = "
      ++ (nth parts 2).pieces ++ txt ";"
  | .enum isConst isDeclare =>
    txtIf isDeclare "declare " ++ txtIf isConst "const " ++ txt "enum " ++ first.pieces
      ++ txt " " ++ second.pieces
  | .enumMembers => txt "\x7b" ++ indentedList origin Part.pieces parts ++ txt "\x7d"
  | .enumMember => first.pieces ++ second.fullAfter " = "
  | .moduleDecl isGlobal isDeclare =>
    txtIf isDeclare "declare " ++ namespaceLayout isGlobal first ++ second.after " "
  | .moduleBlock => txt "\x7b" ++ indented (layouts parts) ++ beforeBrace origin .before ++ txt "\x7d"
  | .importEquals isExport typeOnly =>
    txtIf isExport "export " ++ txt "import " ++ txtIf typeOnly "type " ++ first.pieces ++ txt " = "
      ++ second.pieces ++ txt ";"
  | .externalModule => txt "require(" ++ first.pieces ++ txt ")"
  | .exportAssign => txt "export = " ++ first.full
  | .exportAsNamespace => txt "export as namespace " ++ first.pieces ++ txt ";"
  | _ => []

def statementLayout (form : Form) (origin : Origin) (parts : List Part) : Pieces :=
  let first := nth parts 0
  let second := nth parts 1
  let third := nth parts 2
  match form with
  | .exprStmt => first.full ++ txt ";"
  | .empty => txt ";"
  | .block | .body => braced origin (layouts parts)
  | .staticBlock => txt "static" ++ braced origin (layouts parts)
  | .varDecl kind isDeclare isHead =>
    txtIf isDeclare "declare " ++ txt (varWord kind) ++ inLine origin Part.pieces parts
      ++ txtIf (!isHead) ";"
  | .declarator => first.full ++ second.fullAfter " = "
  | .ifStmt => ifLayout first second third
  | .forStmt =>
    txt "for(" ++ headLayout first ++ txt ";" ++ second.fullAfter " " ++ txt ";"
      ++ third.fullAfter " " ++ txt ")" ++ (nth parts 3).pieces
  | .forIn => txt "for(" ++ headLayout first ++ txt " in " ++ second.full ++ txt ")" ++ third.pieces
  | .forOf isAwait =>
    txt (if isAwait then "for await (" else "for (") ++ headLayout first ++ txt " of " ++ second.full
      ++ txt ")" ++ third.pieces
  | .whileStmt => txt "while(" ++ first.full ++ txt ")" ++ second.pieces
  | .doWhile => txt "do " ++ second.pieces ++ txt "while (" ++ first.full ++ txt ")"
  | .switch => txt "switch(" ++ first.full ++ txt ")" ++ second.pieces
  | .cases => bracedLines (layouts parts)
  | .case =>
    (if first.isAbsent then txt "default:" else txt "case " ++ first.full ++ txt ":") ++ second.pieces
  | .consequent => indented (layouts parts)
  | .tryStmt =>
    txt "try " ++ first.pieces ++ second.after " " ++ third.after " finally"
  | .catchClause =>
    txt "catch " ++ (if first.isAbsent then [] else txt "(" ++ first.full ++ txt ")") ++ txt " "
      ++ second.pieces
  | .throwStmt => txt "throw" ++ first.shielded " (" ++ txt ";"
  | .returnStmt => txt "return" ++ first.shielded "(" ++ txt ";"
  | .breakStmt => txt "break" ++ first.after " " ++ txt ";"
  | .continueStmt => txt "continue" ++ first.after " " ++ txt ";"
  | .labeled => first.pieces ++ txt ": " ++ second.pieces
  | .withStmt => txt "with(" ++ first.full ++ txt ")" ++ second.pieces
  | .debugger => txt "debugger;"
  | .importDecl decl => importLayout origin decl ++ attributesLayout first ++ txt ";"
  | .exportDecl => txt "export " ++ first.pieces
  | .exportDefaultExpr => txt "export default " ++ first.full ++ txt ";"
  | .exportDefaultDecl => txt "export default " ++ first.pieces
  | .exportNamed specifiers typeOnly =>
    txt "export " ++ txtIf typeOnly "type " ++ exportNames origin specifiers ++ first.after " from "
      ++ attributesLayout second ++ txt ";"
  | .exportAll typeOnly =>
    txt "export " ++ txtIf typeOnly "type " ++ txt "*" ++ first.after " from "
      ++ attributesLayout second ++ txt ";"
  | _ => declarationLayout form origin parts
where
  /-- The head of a loop: a declaration, or an expression or pattern. -/
  headLayout (head : Part) : Pieces :=
    match head.node.form with
    | .varDecl .. => head.pieces
    | _ => head.full

end CallExpander.Code
