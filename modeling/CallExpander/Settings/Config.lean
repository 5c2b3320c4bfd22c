import CallExpander.Failure
import CallExpander.Settings.Options
import CallExpander.Text.Blank
import CallExpander.Yaml.Record

/-!
The configuration of a project, which is written in a file and gives the settings of each kind of
build.
-/

namespace CallExpander

open CallExpander.Text

/-- The configuration of a project. -/
structure Config where
  maxPasses : Option Nat := none
  keepImports : Option Bool := none
  /-- Where type declarations are written. -/
  typeDeclarations : Option String := none
  deriving Repr, DecidableEq, Inhabited

inductive ConfigFormat where
  | json
  | yaml
  deriving Repr, DecidableEq, Inhabited

namespace Config

/-- The settings of a kind of build. Imports are kept in development builds, unless the
configuration says something else. -/
def options (config : Config) (isDev isSsr : Bool) : Options :=
  { isDev, isSsr
    keepImports := config.keepImports.getD isDev
    maxPasses := config.maxPasses.getD defaultMaxPasses }

/-- What a configuration is called in messages. -/
def recordName : String := "struct PluginConfig"

def jsonFields : List (Json.Field Config) := [
  ("maxPasses", do
    let n ← Json.optional Json.count
    return fun c => { c with maxPasses := n }),
  ("keepImports", do
    let b ← Json.optional Json.flag
    return fun c => { c with keepImports := b }),
  ("typeDeclarations", do
    let p ← Json.optional Json.path
    return fun c => { c with typeDeclarations := p })]

def ofJson (text : String) : Except Failure Config :=
  match Json.readAll (Json.record recordName jsonFields {}) text with
  | .ok config => .ok config
  | .error fault => .error (.config ("JSON: " ++ fault.message))

def yamlFields : List (Yaml.Field Config) := [
  ("maxPasses", fun v => do
    let n ← Yaml.optional Yaml.count v
    return fun c => { c with maxPasses := n }),
  ("keepImports", fun v => do
    let b ← Yaml.optional Yaml.flag v
    return fun c => { c with keepImports := b }),
  ("typeDeclarations", fun v => do
    let p ← Yaml.optional Yaml.path v
    return fun c => { c with typeDeclarations := p })]

/-- Reads a configuration written in lines. A blank text is the default configuration. -/
def ofYaml (text : String) : Except Failure Config :=
  if isBlankText text then .ok {}
  else
    match Yaml.record recordName yamlFields {} text with
    | .ok config => .ok config
    | .error fault => .error (.config ("YAML: " ++ fault.message))

def read : ConfigFormat → String → Except Failure Config
  | .json => ofJson
  | .yaml => ofYaml

/-- What follows the last point of the file name of a path. A name that starts with its only point
has no extension. -/
def extension? (path : String) : Option (List Char) :=
  let names := (path.splitOn "/").filter fun name => name != "" && name != "."
  match names.getLast? with
  | none => none
  | some name =>
    let chars := name.toList
    if name != ".." && chars.tail.contains '.' then some (chars.reverse.takeWhile (· != '.')).reverse
    else none

/-- The format that a path asks for, whatever the case of its letters. -/
def formatOf? (path : String) : Option ConfigFormat :=
  match (extension? path).map fun ext => String.ofList (ext.map Char.toLower) with
  | some "json" => some .json
  | some "yaml" | some "yml" => some .yaml
  | _ => none

/-- Loads the configuration at a path, which may hold no file. -/
def load (path : String) : Option String → Except Failure Config
  | none => .error (.io path)
  | some text =>
    match formatOf? path with
    | some format => read format text
    | none => .error (.config (path ++ ": expected a .json, .yaml or .yml file"))

end Config

end CallExpander
