import CallExpander.Macro.Handler

/-!
Macros and how they are defined: a name, declarations for the type checker, and a handler. Every
macro carries the compatibility version it was made for.
-/

namespace CallExpander

open CallExpander.Text

/-- The compatibility version that macros and providers have to be made for. -/
def compatVersion : Nat := 1

/-- Refuses what was made for another compatibility version. -/
def ensureCompatible (subject : String) (version : Nat) : Except Failure Unit :=
  if version = compatVersion then .ok ()
  else .error (.incompatibleVersion subject version compatVersion)

structure Macro where
  name : String
  handler : Handler
  /-- The declarations that the macro's module exports for it. -/
  typeText : String
  version : Nat := compatVersion
  deriving Inhabited

namespace Macro

/-- What messages call the macro. -/
def describe (m : Macro) : String := "macro `" ++ m.name ++ "`"

def render (m : Macro) : String :=
  "Macro \x7b name: " ++ quoted m.name ++ ", handler: " ++ m.handler.render ++ ", version: "
    ++ toString m.version ++ " \x7d"

def withVersion (m : Macro) (version : Nat) : Macro := { m with version }

end Macro

/-- A way to call a macro: parameters and result, and a comment on it. -/
structure Signature where
  text : String
  comment : Option String := none
  deriving Repr, DecidableEq, Inhabited

namespace Signature

/-- Whether a signature starts with its parameters. -/
def isWellFormed (signature : Signature) : Bool :=
  match trimStart signature.text.toList with
  | c :: _ => c == '(' || c == '<'
  | [] => false

def commentLine (line : String) : String :=
  match trimEnd line.toList with
  | [] => " *\n"
  | chars => " * " ++ String.ofList chars ++ "\n"

def renderComment (comment : String) : String :=
  "/**\n" ++ String.join ((lines comment).map commentLine) ++ " */\n"

def render (signature : Signature) (name : String) : String :=
  let text := dropEndWhile (· == ';') (trim signature.text.toList)
  signature.comment.elim "" renderComment ++ "export function " ++ name ++ String.ofList text ++ ";"

end Signature

/-- A macro that still lacks its handler. -/
structure Definition where
  name : String
  /-- Declarations that stand before the signatures. -/
  customTypes : List String := []
  signatures : List Signature := []
  deriving Repr, DecidableEq, Inhabited

namespace Definition

def start (name : String) : Except Failure Definition :=
  if isIdentifier name then .ok { name }
  else .error (.definition name "macro names must be valid identifiers")

def withCustomType (d : Definition) (text : String) : Definition :=
  { d with customTypes := d.customTypes ++ [text] }

def withSignature (d : Definition) (signature : Signature) : Definition :=
  { d with signatures := d.signatures ++ [signature] }

def typeText (d : Definition) : String :=
  String.intercalate "\n" (d.customTypes ++ d.signatures.map fun s => s.render d.name)

def finish (d : Definition) (handler : Handler) : Except Failure Macro :=
  if d.signatures.isEmpty then
    .error (.definition d.name "at least one signature is required before a handler")
  else
    match d.signatures.find? fun s => !s.isWellFormed with
    | some bad =>
      .error (.definition d.name
        ("signature `" ++ bad.text ++ "` must start with a parameter list"))
    | none => .ok { name := d.name, handler, typeText := d.typeText }

end Definition

end CallExpander
