import CallExpander.Code.Printer
import CallExpander.Failure

/-!
Files and snippets. A file knows its path and its text, and can name a place in itself; a snippet is
text that a handler supplies, and has no places.
-/

namespace CallExpander

open CallExpander.Code
open CallExpander.Text

structure Source where
  path : String
  text : String
  dialect : Dialect
  deriving Inhabited

namespace Source

/-- A file in the dialect that its path asks for. -/
def ofPath (path text : String) : Source :=
  ⟨path, text, Dialect.ofPath path⟩

/-- The characters of the file, without a byte order mark. -/
def chars (source : Source) : List Char :=
  match source.text.toList with
  | '\uFEFF' :: rest => rest
  | chars => chars

def siteAt (source : Source) (span : Span) : Site :=
  { file := source.path
    location := locate source.chars span.lo
    offset := span.lo
    length := span.hi - span.lo }

def site? (source : Source) (n : Node) : Option Site :=
  n.origin.span?.map source.siteAt

def parse (source : Source) : Except Failure Module :=
  match parseModule source.dialect source.chars with
  | .ok module => .ok module
  | .error fault =>
    .error (.parse source.path fault.problem.message (some (source.siteAt fault.span)))

end Source

/-- The same origin, marked as that of a snippet. -/
def Origin.asSnippet : Origin → Origin
  | .file _ => .snippet
  | other => other

def Name.asSnippet (name : Name) : Name := { name with origin := name.origin.asSnippet }

def ExportName.asSnippet : ExportName → ExportName
  | .name n => .name n.asSnippet
  | .str literal origin => .str literal origin.asSnippet

def ImportSpecifier.asSnippet : ImportSpecifier → ImportSpecifier
  | .default name => .default name.asSnippet
  | .namespace name => .namespace name.asSnippet
  | .named name imported typeOnly origin =>
    .named name.asSnippet (imported.map ExportName.asSnippet) typeOnly origin.asSnippet

def ExportSpecifier.asSnippet : ExportSpecifier → ExportSpecifier
  | .namespace exported origin => .namespace exported.asSnippet origin.asSnippet
  | .named name exported typeOnly origin =>
    .named name.asSnippet (exported.map ExportName.asSnippet) typeOnly origin.asSnippet

def Form.asSnippet : Form → Form
  | .importDecl decl =>
    .importDecl { decl with
      specifiers := decl.specifiers.map ImportSpecifier.asSnippet
      sourceOrigin := decl.sourceOrigin.asSnippet }
  | .exportNamed specifiers typeOnly =>
    .exportNamed (specifiers.map ExportSpecifier.asSnippet) typeOnly
  | form => form

namespace Node

mutual

def asSnippet : Node → Node
  | .mk form origin parts => .mk form.asSnippet origin.asSnippet (asSnippets parts)

def asSnippets : List Node → List Node
  | [] => []
  | n :: rest => n.asSnippet :: asSnippets rest

end

end Node

def snippetFailure (code : String) (fault : Fault) : Failure :=
  .parse "<macro>" (fault.problem.message ++ " in `" ++ code ++ "`") none

def snippetChars (code : String) : List Char :=
  match code.toList with
  | '\uFEFF' :: rest => rest
  | chars => chars

/-- Reads one expression from the start of a snippet. -/
def parseSnippet (dialect : Dialect) (code : String) : Except Failure Node :=
  match parseExpression dialect (snippetChars code) with
  | .ok n => .ok n.asSnippet
  | .error fault => .error (snippetFailure code fault)

def parseItems (dialect : Dialect) (code : String) : Except Failure (List Node) :=
  match parseModule dialect (snippetChars code) with
  | .ok module => .ok (Node.asSnippets module.items)
  | .error fault => .error (snippetFailure code fault)

end CallExpander
