import CallExpander.Import.Spec
import CallExpander.Memory
import CallExpander.Number.Reading

/-!
Handlers as data: a small language of operations on a call and its program, and how it is written. A
script is read without complaint; what it cannot mean fails when it is run.
-/

namespace CallExpander.Script

open CallExpander.Number

/-- Which of the two memories is meant. -/
inductive Scope where
  | pass
  | file
  deriving Repr, DecidableEq, Inhabited

/-- An index into the program. -/
inductive Place where
  | at (index : Nat)
  /-- The first pending item. -/
  | own
  /-- So many items behind the last one. -/
  | behind (count : Nat)
  /-- One of the latest paths. -/
  | latest (index : Nat)
  deriving Repr, DecidableEq, Inhabited

inductive Phrase where
  | literal (text : String)
  /-- The text that an argument is. -/
  | argument (index : Nat)
  /-- An argument as it is printed. -/
  | printed (index : Nat)
  /-- The value of an argument as data. -/
  | data (index : Nat)
  /-- The texts of all arguments. -/
  | allArguments
  | concat (parts : List Phrase)
  | repeated (part : Phrase) (count : Nat)
  | reversed (part : Phrase)
  /-- An item as it is printed. -/
  | item (place : Place)
  | unknown (name : String)
  deriving Inhabited

inductive Form where
  | string (text : Phrase)
  | number (value : Binary64)
  | boolean (value : Bool)
  | null
  | undefined
  | identifier (name : String)
  | member (object : Form) (name : String)
  | call (callee : Form) (args : List Form)
  | array (elements : List Form)
  | value (value : Json)
  /-- An expression read from text. -/
  | parsed (text : Phrase)
  /-- A copy of an argument. -/
  | argument (index : Nat)
  /-- Copies of all arguments. -/
  | allArguments
  /-- A copy of what stands in the place of the call. -/
  | current
  /-- The sum of an argument and a number. -/
  | sum (index : Nat) (number : Binary64)
  /-- A remembered integer. -/
  | remembered (scope : Scope) (key : String)
  | unknown (name : String)
  deriving Inhabited

inductive Condition where
  /-- An argument has a value. -/
  | literal (index : Nat) (value : Json)
  | argumentCount (count : Nat)
  | isDev (expected : Bool)
  | isSsr (expected : Bool)
  | remembers (scope : Scope) (key : String)
  /-- An expression contains a macro call. -/
  | containsMacros (form : Form)
  | unknown (name : String)
  deriving Inhabited

inductive Operation where
  | branch (condition : Condition) (yes no : List Operation)
  | replace (form : Form)
  | remove
  | fail (message : Phrase)
  | info
  | source
  | arguments
  | current
  | pushArgument (form : Form)
  | truncateArguments (count : Nat)
  | memory (scope : Scope) (name : String) (key : String) (value : Json)
  | items
  | findImport (spec : Option ImportSpec) (isLoose : Bool)
  | prependImports (specs : List (Option ImportSpec))
  | appendImports (specs : List (Option ImportSpec))
  | prependItems (code : Phrase)
  | appendItems (code : Phrase)
  | statement (form : Form)
  | containsMacros (paths : Option (List Nat))
  | formContainsMacros (form : Form)
  | isPending (place : Place)
  | setItem (place : Place) (code : Phrase)
  | unknown (name : String)
  deriving Inhabited

/-- What a stage asks to be expanded. -/
inductive Wish where
  | argument (place : Place)
  | arguments
  | item (place : Place)
  | import (place : Place)
  | unknown (name : String)
  deriving Repr, DecidableEq, Inhabited

/-- A stage of a task: its operations, and what it asks for then; a stage that asks for nothing is
the last one. -/
structure Stage where
  operations : List Operation
  wishes : Option (List Wish) := none
  deriving Inhabited

/-! ## How scripts are written -/

/-- A natural number; anything else counts as zero. -/
def natOf (value : Json) : Nat := value.nat?.getD 0

/-- A text; anything else counts as empty. -/
def textOf (value : Json) : String := value.str?.getD ""

def Scope.ofJson (value : Json) : Scope :=
  if textOf value = "pass" then .pass else .file

def Place.ofJson : Json → Place
  | .obj [("len", count)] => .behind (natOf count)
  | .obj [("last", index)] => .latest (natOf index)
  | .str _ => .own
  | value => .at (natOf value)

mutual

def Phrase.ofJson : Json → Phrase
  | .str text => .literal text
  | .obj [("arg", index)] => .argument (natOf index)
  | .obj [("print", index)] => .printed (natOf index)
  | .obj [("json", index)] => .data (natOf index)
  | .obj [("all", _)] => .allArguments
  | .obj [("cat", .arr parts)] => .concat (phrasesOf parts)
  | .obj [("repeat", .arr [part, count])] => .repeated (Phrase.ofJson part) (natOf count)
  | .obj [("rev", part)] => .reversed (Phrase.ofJson part)
  | .obj [("item", place)] => .item (Place.ofJson place)
  | .obj ((name, _) :: _) => .unknown name
  | _ => .unknown ""

def phrasesOf : List Json → List Phrase
  | [] => []
  | part :: rest => Phrase.ofJson part :: phrasesOf rest

end

/-- A number, also by name. -/
def numberOf : Json → Binary64
  | .num n => n.toBinary64
  | .str text => (Binary64.ofText? text).getD .nan
  | _ => Binary64.zero false

mutual

def Form.ofJson : Json → Form
  | .obj [("str", text)] => .string (Phrase.ofJson text)
  | .obj [("num", value)] => .number (numberOf value)
  | .obj [("bool", value)] => .boolean (value.bool?.getD false)
  | .obj [("null", _)] => .null
  | .obj [("undefined", _)] => .undefined
  | .obj [("ident", name)] => .identifier (textOf name)
  | .obj [("member", .arr [object, name])] => .member (Form.ofJson object) (textOf name)
  | .obj [("call", .arr [callee, .arr args])] => .call (Form.ofJson callee) (formsOf args)
  | .obj [("array", .arr elements)] => .array (formsOf elements)
  | .obj [("value", value)] => .value value
  | .obj [("parse", text)] => .parsed (Phrase.ofJson text)
  | .obj [("arg", index)] => .argument (natOf index)
  | .obj [("args", _)] => .allArguments
  | .obj [("current", _)] => .current
  | .obj [("add", .arr [index, number])] => .sum (natOf index) (numberOf number)
  | .obj [("state", .arr [scope, key])] => .remembered (Scope.ofJson scope) (textOf key)
  | .obj ((name, _) :: _) => .unknown name
  | _ => .unknown ""

def formsOf : List Json → List Form
  | [] => []
  | form :: rest => Form.ofJson form :: formsOf rest

end

def Condition.ofJson : Json → Condition
  | .obj [("literal", .arr [index, value])] => .literal (natOf index) value
  | .obj [("nargs", count)] => .argumentCount (natOf count)
  | .obj [("dev", expected)] => .isDev (expected.bool?.getD false)
  | .obj [("ssr", expected)] => .isSsr (expected.bool?.getD false)
  | .obj [("has", .arr [scope, key])] => .remembers (Scope.ofJson scope) (textOf key)
  | .obj [("contains", form)] => .containsMacros (Form.ofJson form)
  | .obj ((name, _) :: _) => .unknown name
  | _ => .unknown ""

/-- An operation that is no branch. -/
def Operation.ofFields (value : Json) : Operation :=
  let get := fun key => (value.get? key).getD .null
  let specs := (value.getList "specs").map ImportSpec.ofJson?
  match textOf (get "do") with
  | "replace" => .replace (Form.ofJson (get "expr"))
  | "remove" => .remove
  | "fail" => .fail (Phrase.ofJson (get "message"))
  | "info" => .info
  | "source" => .source
  | "args" => .arguments
  | "current" => .current
  | "push_arg" => .pushArgument (Form.ofJson (get "expr"))
  | "truncate_args" => .truncateArguments (natOf (get "len"))
  | "state" =>
    .memory (Scope.ofJson (get "scope")) (textOf (get "action")) (textOf (get "key")) (get "value")
  | "items" => .items
  | "find_import" =>
    .findImport (ImportSpec.ofJson? (get "spec")) ((get "loose").bool?.getD false)
  | "prepend_imports" => .prependImports specs
  | "append_imports" => .appendImports specs
  | "prepend_to_body" => .prependItems (Phrase.ofJson (get "code"))
  | "append_to_body" => .appendItems (Phrase.ofJson (get "code"))
  | "statement" => .statement (Form.ofJson (get "expr"))
  | "contains_macros" => .containsMacros ((get "paths").arr?.map (·.map natOf))
  | "expr_contains" => .formContainsMacros (Form.ofJson (get "expr"))
  | "is_pending" => .isPending (Place.ofJson (get "index"))
  | "set_item" => .setItem (Place.ofJson (get "index")) (Phrase.ofJson (get "code"))
  | name => .unknown name

mutual

def Operation.ofJson : Json → Operation
  | .obj entries =>
    if textOf ((Table.get? "do" entries).getD .null) = "if" then
      .branch (Condition.ofJson ((Table.get? "cond" entries).getD .null))
        (operationsAt "then" entries) (operationsAt "else" entries)
    else Operation.ofFields (.obj entries)
  | value => Operation.ofFields value

def operationsAt (key : String) : List (String × Json) → List Operation
  | [] => []
  | (k, .arr operations) :: rest =>
    if k = key then operationsOf operations else operationsAt key rest
  | _ :: rest => operationsAt key rest

def operationsOf : List Json → List Operation
  | [] => []
  | operation :: rest => Operation.ofJson operation :: operationsOf rest

end

def Wish.ofJson : Json → Wish
  | .arr [.str "argument", place] => .argument (Place.ofJson place)
  | .arr [.str "arguments"] => .arguments
  | .arr [.str "item", place] => .item (Place.ofJson place)
  | .arr [.str "import", place] => .import (Place.ofJson place)
  | .arr (.str name :: _) => .unknown name
  | _ => .unknown ""

def Stage.ofJson (value : Json) : Stage :=
  { operations := operationsOf (value.getList "ops")
    wishes := ((value.get? "expand").bind Json.arr?).map (·.map Wish.ofJson) }

end CallExpander.Script
