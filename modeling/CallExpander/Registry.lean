import CallExpander.Macro.Definition

/-!
The registry: virtual modules by name, each exporting macros or being plain source text. A module is
registered at most once, the macros of a module have different names, and everything is made for the
right compatibility version.
-/

namespace CallExpander

/-- What a virtual module is. -/
inductive Export where
  | macros (macros : List Macro)
  | source (text : String)
  deriving Inhabited

/-- A virtual module. -/
structure Entry where
  content : Export
  /-- The texts of its declarations. -/
  types : List String := []
  deriving Inhabited

/-- The macros of a module; none if it has only source text. -/
def Entry.macros? (entry : Entry) : Option (List Macro) :=
  match entry.content with
  | .macros macros => some macros
  | .source _ => none

/-- Virtual modules in the order of their names. -/
structure Registry where
  modules : List (String × Entry) := []
  deriving Inhabited

/-- What a module that has only macros is loaded as. -/
def placeholderSource : String := "export \x7b\x7d\n"

namespace Registry

def get? (registry : Registry) (module : String) : Option Entry :=
  Table.get? module registry.modules

def contains (registry : Registry) (module : String) : Bool :=
  Table.contains module registry.modules

def names (registry : Registry) : List String := Table.keys registry.modules

def size (registry : Registry) : Nat := registry.modules.length

def isEmpty (registry : Registry) : Bool := registry.modules.isEmpty

/-- The macros of a module; none if it is no macro module. -/
def macros? (registry : Registry) (module : String) : Option (List Macro) :=
  (registry.get? module).bind Entry.macros?

def exports (registry : Registry) : Exports := fun module =>
  (registry.macros? module).map (·.map (·.name))

def find? (registry : Registry) (module name : String) : Option Macro :=
  (registry.macros? module).bind fun macros => macros.find? fun m => m.name == name

/-- The name of a module, if it is registered. -/
def resolve? (registry : Registry) (module : String) : Option String :=
  (registry.get? module).map fun _ => module

def load? (registry : Registry) (module : String) : Option String :=
  (registry.get? module).map fun entry =>
    match entry.content with
    | .source text => text
    | .macros _ => placeholderSource

/-- Refuses a name that is empty or taken. -/
def ensureVacant (registry : Registry) (module : String) : Except Failure Unit :=
  if module = "" then .error (.definition module "module names must not be empty")
  else if registry.contains module then .error (.duplicateRegistration module none)
  else .ok ()

/-- Refuses macros that are made for another version or share a name, whichever comes first. -/
def checkMacros (module : String) : List String → List Macro → Except Failure Unit
  | _, [] => .ok ()
  | seen, m :: rest => do
    ensureCompatible m.describe m.version
    if seen.contains m.name then throw (.duplicateRegistration module (some m.name))
    checkMacros module (m.name :: seen) rest

def insert (registry : Registry) (module : String) (entry : Entry) : Registry :=
  ⟨Table.insert module entry registry.modules⟩

def registerMacros (registry : Registry) (module : String) (macros : List Macro) :
    Except Failure Registry := do
  registry.ensureVacant module
  checkMacros module [] macros
  return registry.insert module ⟨.macros macros, macros.map (·.typeText)⟩

def registerSource (registry : Registry) (module text : String) : Except Failure Registry := do
  registry.ensureVacant module
  return registry.insert module ⟨.source text, []⟩

def addTypes (registry : Registry) (module text : String) : Except Failure Registry :=
  match registry.get? module with
  | none => .error (.definition module "types can only be added to a registered module")
  | some entry => .ok (registry.insert module { entry with types := entry.types ++ [text] })

end Registry

/-- Modules that are registered together. -/
structure Provider where
  id : String
  version : Nat := compatVersion
  provided : Registry := {}
  deriving Inhabited

namespace Provider

/-- What messages call the provider. -/
def describe (provider : Provider) : String := "provider `" ++ provider.id ++ "`"

def withMacros (provider : Provider) (module : String) (macros : List Macro) :
    Except Failure Provider := do
  return { provider with provided := ← provider.provided.registerMacros module macros }

def withSource (provider : Provider) (module text : String) : Except Failure Provider := do
  return { provider with provided := ← provider.provided.registerSource module text }

def withTypes (provider : Provider) (module text : String) : Except Failure Provider := do
  return { provider with provided := ← provider.provided.addTypes module text }

def withVersion (provider : Provider) (version : Nat) : Provider := { provider with version }

end Provider

/-- Registers all modules of a provider, or none of them if the name of one is taken. -/
def Registry.registerProvider (registry : Registry) (provider : Provider) :
    Except Failure Registry := do
  ensureCompatible provider.describe provider.version
  match provider.provided.names.find? registry.contains with
  | some module => throw (.duplicateRegistration module none)
  | none =>
    return provider.provided.modules.foldl (fun merged entry => merged.insert entry.1 entry.2)
      registry

end CallExpander
