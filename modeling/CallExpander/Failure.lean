import CallExpander.Text.Location

/-!
Everything that can go wrong, as causes. A cause knows its message, the phase it belongs to, what to
do about it, and the place it points at.
-/

namespace CallExpander

open CallExpander.Text

/-- A place in a file that a failure points at. -/
structure Site where
  file : String
  location : Location
  /-- Bytes before the place. -/
  offset : Nat
  /-- Bytes that it covers. -/
  length : Nat
  deriving Repr, DecidableEq, Inhabited

inductive Failure where
  | definition (name reason : String)
  | incompatibleVersion (subject : String) (found expected : Nat)
  | duplicateRegistration (module : String) (macroName : Option String)
  | unknownMacro (name module file : String) (site : Option Site)
  | invalidRequest (macroName file reason : String) (site : Option Site)
  | passLimit (file : String) (maxPasses : Nat)
  | handler (macroName file : String) (site : Option Site) (cause : String)
  | parse (file message : String) (site : Option Site)
  | config (message : String)
  | io (path : String)
  deriving Repr, DecidableEq, Inhabited

inductive Phase where
  | definition
  | registration
  | transform
  | environment
  deriving Repr, DecidableEq, Inhabited

def Phase.name : Phase → String
  | .definition => "Definition"
  | .registration => "Registration"
  | .transform => "Transform"
  | .environment => "Environment"

namespace Failure

def at? (file : String) : Option Site → String
  | none => file
  | some site => file ++ ":" ++ site.location.render

def message : Failure → String
  | .definition name reason => "invalid macro definition `" ++ name ++ "`: " ++ reason
  | .incompatibleVersion subject found expected =>
    subject ++ " was built for compatibility version " ++ toString found
      ++ ", but the runtime expects " ++ toString expected
  | .duplicateRegistration module none => "module `" ++ module ++ "` is already registered"
  | .duplicateRegistration module (some name) =>
    "macro `" ++ name ++ "` is registered twice in module `" ++ module ++ "`"
  | .unknownMacro name module file site =>
    "`" ++ name ++ "` is imported from `" ++ module ++ "`, which exports no macro of that name ("
      ++ at? file site ++ ")"
  | .invalidRequest name file reason site =>
    "macro `" ++ name ++ "` made an invalid expansion request (" ++ at? file site ++ "): " ++ reason
  | .passLimit file maxPasses =>
    "macro expansion in " ++ file ++ " did not settle within " ++ toString maxPasses ++ " passes"
  | .handler name file site _ => "macro `" ++ name ++ "` failed (" ++ at? file site ++ ")"
  | .parse file text _ => "failed to parse " ++ file ++ ": " ++ text
  | .config text => "invalid configuration: " ++ text
  | .io path => "I/O error on " ++ path

def phase : Failure → Phase
  | .definition .. => .definition
  | .incompatibleVersion .. | .duplicateRegistration .. => .registration
  | .unknownMacro .. | .invalidRequest .. | .passLimit .. | .handler .. | .parse .. => .transform
  | .config _ | .io _ => .environment

def kind : Failure → String
  | .definition .. => "definition"
  | .incompatibleVersion .. => "incompatible_version"
  | .duplicateRegistration .. => "duplicate_registration"
  | .unknownMacro .. => "unknown_macro"
  | .invalidRequest .. => "invalid_yield"
  | .passLimit .. => "max_passes_exceeded"
  | .handler .. => "handler"
  | .parse .. => "parse"
  | .config _ => "config"
  | .io _ => "io"

def code (failure : Failure) : String := "vmacro::" ++ failure.kind

def site : Failure → Option Site
  | .unknownMacro _ _ _ site | .invalidRequest _ _ _ site | .handler _ _ site _ | .parse _ _ site =>
    site
  | _ => none

/-- What is written at the place. -/
def label : Failure → String
  | .unknownMacro .. => "not exported by the macro module"
  | .invalidRequest .. => "requested from this call"
  | .handler .. => "macro call failed here"
  | .parse .. => "syntax error"
  | _ => "here"

/-- What to do about a failure. -/
def help : Failure → Option String
  | .incompatibleVersion .. =>
    some "rebuild the macro package against the same vmacro release as the host"
  | .unknownMacro name module _ _ =>
    some ("check the spelling of `" ++ name ++ "` or register it in `" ++ module ++ "`")
  | .invalidRequest .. =>
    some "a macro may only request expansion of its arguments or of unrelated program items"
  | .passLimit .. =>
    some ("a macro probably re-emits a call to itself; make sure every handler replaces or "
      ++ "removes its call site")
  | _ => none

/-- What a handler said when it failed. -/
def cause : Failure → Option String
  | .handler _ _ _ cause => some cause
  | _ => none

end Failure

end CallExpander
