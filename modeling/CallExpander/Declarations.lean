import CallExpander.Registry

/-!
Type declarations of virtual modules: one block a module.
-/

namespace CallExpander

open CallExpander.Text

/-- Puts other characters in the place of every occurrence of one. -/
def replaceChar (c : Char) (others chars : List Char) : List Char :=
  chars.flatMap fun d => if d = c then others else [d]

/-- The characters of a module name between single quotes. Quotes are escaped behind the backslashes:
one that is put in front of a quote is not doubled. -/
def escapeName (chars : List Char) : List Char :=
  replaceChar '\'' ['\\', '\''] (replaceChar '\\' ['\\', '\\'] chars)

def quoteName (name : String) : String :=
  "'" ++ String.ofList (escapeName name.toList) ++ "'"

/-- A line of a declaration, indented unless it is blank. -/
def declarationLine (line : String) : String :=
  if isBlankText line then "" else "  " ++ line

def renderDeclaration (module : String) (types : List String) : String :=
  let body := String.intercalate "\n" ((types.flatMap lines).map declarationLine)
  if body = "" then "declare module " ++ quoteName module ++ " \x7b\x7d\n"
  else "declare module " ++ quoteName module ++ " \x7b\n" ++ body ++ "\n\x7d\n"

def declarationsHeader : String := "// Generated by vmacro. Do not edit.\n"

def Registry.declarations (registry : Registry) : String :=
  declarationsHeader ++ String.join (registry.modules.map fun (module, entry) =>
    "\n" ++ renderDeclaration module entry.types)

end CallExpander
