import CallExpander.Macro.Definition
import CallExpander.Script.Eval

/-!
Running scripts, and the handlers that scripts make.
-/

namespace CallExpander.Script

open CallExpander.Code

/-- Part of a run of a script. What was done before a failure stays done. -/
abbrev Action := EStateM String Scene

/-- What a computation on the scene gives. -/
def ask {α : Type} (f : Scene → Except String α) : Action α := do
  match f (← get) with
  | .ok a => return a
  | .error message => throw message

def note (setting : Setting) (action : String) (result : Json) : Action Unit :=
  modify fun scene =>
    { scene with
      context.notes := scene.context.notes ++ [⟨setting.call.macroName, action, result⟩] }

def setSlot (slot : Node) : Action Unit :=
  modify fun scene => { scene with context.slot := slot }

def infoJson (setting : Setting) (context : Context) : Json :=
  let call := setting.call
  Json.object [("file", .str call.file), ("source_len", .ofNat call.source.utf8ByteSize),
    ("dev", .bool call.isDev), ("ssr", .bool call.isSsr), ("macro", .str call.macroName),
    ("module", .str call.module),
    ("location", Json.ofOption
      (fun at_ => .arr [.ofNat at_.line, .ofNat at_.column, .str at_.render]) call.location),
    ("synthetic", .bool (call.origin == .built)), ("nargs", .ofNat context.args.length),
    ("detached", .bool context.isDetached)]

def argumentJson (context : Context) (index : Nat) (arg : Node) : Json :=
  let inner := withoutSpread arg
  let isSpread := match arg.form with
    | .spread => true
    | _ => false
  Json.object [("spread", .bool isSpread), ("visible", .bool (context.arg? index).isSome),
    ("printed", .str (printExpression inner)), ("string", Json.ofOption .str inner.stringValue?),
    ("literal", Json.ofOption (fun v => .arr [v]) inner.literal?)]

/-- Arguments as data, numbered from an index on. -/
def argumentsJson (context : Context) : Nat → List Node → List Json
  | _, [] => []
  | index, arg :: rest => argumentJson context index arg :: argumentsJson context (index + 1) rest

def itemsJson (body : Body) : Nat → List Node → List Json
  | _, [] => []
  | index, item :: rest =>
    .arr [.bool (body.isPending index), .str (printItems [item])] :: itemsJson body (index + 1) rest

def pathsJson (paths : List Nat) : Json := .arr (paths.map .ofNat)

/-- Changes the arguments of the call, and gives how many there are then. -/
def changeArguments (setting : Setting) (action : String) (f : List Node → List Node) :
    Action Unit := do
  let slot := (← get).context.slot
  if slot.isCall then
    setSlot (slot.withArgs (f slot.args))
    note setting action (.ofNat (f slot.args).length)
  else note setting action .null

/-- Inserts into the program, and gives and remembers the paths of what was inserted. -/
def insertPaths (setting : Setting) (action : String) (edit : Edit) : Action Unit := do
  let _ ← ask fun _ => setting.helper
  let (paths, body) := (← get).body.edit edit
  modify fun scene => { scene with body, edits := scene.edits ++ [edit], latest := paths }
  note setting action (pathsJson paths)

def specOf : Option ImportSpec → Except String ImportSpec
  | some spec => .ok spec
  | none => scriptFault "data did not match any variant of untagged enum ImportSpec"

def specsOf (specs : List (Option ImportSpec)) : Except String (List ImportSpec) :=
  specs.mapM specOf

def useMemory (setting : Setting) (scope : Scope) (name key : String) (value : Json) :
    Action Unit := do
  match Memory.Action.ofName? name value with
  | none => throw ("unknown action " ++ name)
  | some action =>
    let (answer, memory) := ((← get).memory scope).act key action
    modify fun scene =>
      match scope with
      | .pass => { scene with context.passState := memory }
      | .file => { scene with context.fileState := memory }
    note setting "state" answer

def setItem (setting : Setting) (place : Place) (code : Phrase) : Action Unit := do
  let index ← ask (place.eval setting)
  let dialect ← ask fun _ => setting.toolkit
  let text ← ask (code.eval setting)
  match ← ask fun _ => parsedItems dialect text with
  | [] => throw "script: no item"
  | item :: _ =>
    let _ ← ask fun _ => setting.helper
    match (← get).body.set? index item with
    | some body =>
      modify fun scene => { scene with body, edits := scene.edits ++ [.overwrite index item] }
      note setting "set_item" (.bool true)
    | none => note setting "set_item" (.bool false)

def insertItems (setting : Setting) (action : String) (code : Phrase)
    (edit : List Node → Edit) : Action Unit := do
  let dialect ← ask fun _ => setting.toolkit
  let text ← ask (code.eval setting)
  let items ← ask fun _ => parsedItems dialect text
  insertPaths setting action (edit items)

/-- Inserts the imports that are missing. -/
def insertImports (setting : Setting) (action : String) (specs : List (Option ImportSpec))
    (edit : List ImportSpec → Edit) : Action Unit := do
  let _ ← ask fun _ => setting.helper
  let specs ← ask fun _ => specsOf specs
  insertPaths setting action (edit specs)

mutual

def runOperation (setting : Setting) : Operation → Action Unit
  | .branch condition yes no => do
    if ← ask (condition.eval setting) then runOperations setting yes else runOperations setting no
  | .replace form => do setSlot (← ask (form.eval setting))
  | .remove => modify fun scene => { scene with context := scene.context.remove }
  | .fail message => do throw (← ask (message.eval setting))
  | .info => do note setting "info" (infoJson setting (← get).context)
  | .source => note setting "source" (.str setting.call.source)
  | .arguments => do
    let _ ← ask fun _ => setting.toolkit
    let context := (← get).context
    note setting "args" (.arr (argumentsJson context 0 context.args))
  | .current => do
    let _ ← ask fun _ => setting.toolkit
    note setting "current" (.str (printExpression (← get).context.slot))
  | .pushArgument form => do
    let arg ← ask (form.eval setting)
    changeArguments setting "push_arg" (· ++ [arg])
  | .truncateArguments count => changeArguments setting "truncate_args" (·.take count)
  | .memory scope name key value => useMemory setting scope name key value
  | .items => do
    let _ ← ask fun _ => setting.helper
    let body := (← get).body
    note setting "items" (.arr (itemsJson body 0 body.items))
  | .findImport spec isLoose => do
    let _ ← ask fun _ => setting.helper
    let spec ← ask fun _ => specOf spec
    let items := (← get).body.items
    note setting "find_import" (Json.ofOption .ofNat (CallExpander.findImport items spec isLoose))
  | .prependImports specs => insertImports setting "prepend_imports" specs .prependImports
  | .appendImports specs => insertImports setting "append_imports" specs .appendImports
  | .prependItems code => insertItems setting "prepend_to_body" code .prepend
  | .appendItems code => insertItems setting "append_to_body" code .append
  | .statement form => do
    let e ← ask (form.eval setting)
    insertPaths setting "statement" (.append [statementOf e])
  | .containsMacros paths => do
    let bindings ← ask fun _ => setting.helper
    let body := (← get).body
    let paths := paths.getD (List.range body.size)
    note setting "contains_macros" (.arr (paths.map fun i => .bool (body.containsMacros bindings i)))
  | .formContainsMacros form => do
    let e ← ask (form.eval setting)
    let bindings ← ask fun _ => setting.helper
    note setting "expr_contains" (.bool (CallExpander.containsMacros bindings e))
  | .isPending place => do
    let index ← ask (place.eval setting)
    let _ ← ask fun _ => setting.helper
    note setting "is_pending" (.bool ((← get).body.isPending index))
  | .setItem place code => setItem setting place code
  | .unknown name => throw ("script: unknown operation " ++ name)

def runOperations (setting : Setting) : List Operation → Action Unit
  | [] => return ()
  | operation :: rest => do
    runOperation setting operation
    runOperations setting rest

end

def Wish.eval (setting : Setting) (scene : Scene) : Wish → Except String Request
  | .argument place => return .argument (← place.eval setting scene)
  | .arguments => .ok .arguments
  | .item place => return .item (← place.eval setting scene)
  | .import place => return .import (← place.eval setting scene)
  | .unknown name => scriptFault ("unknown request " ++ name)

def onContext (setting : Setting) (operations : List Operation) : EStateM String Context Unit :=
  fun context =>
    match runOperations setting operations { context } with
    | .ok _ scene => .ok () scene.context
    | .error message scene => .error message scene.context

/-- Runs part of a script on the program, starting with the latest paths. -/
def onWorkspace {α : Type} (latest : List Nat) (action : Action α) (workspace : Workspace) :
    EStateM.Result String Changes (α × List Nat) :=
  match action { context := workspace.toContext, body := workspace.body, latest } with
  | .ok a scene => .ok (a, scene.latest) { scene.context with edits := scene.edits }
  | .error message scene => .error message { scene.context with edits := scene.edits }

def runStage (setting : Setting) (stage : Stage) : Action (Option (List Request)) := do
  runOperations setting stage.operations
  match stage.wishes with
  | none => return none
  | some wishes => return some (← ask fun scene => wishes.mapM (Wish.eval setting scene))

def task (dialect : Dialect) : List Stage → List Nat → Task
  | [], _ => .done
  | stage :: rest, latest => .stage fun call bindings workspace =>
    let setting := { call, dialect := some dialect, bindings := some bindings }
    match onWorkspace latest (runStage setting stage) workspace with
    | .ok (some requests, latest) changes =>
      .ok (some (requests, task dialect rest latest)) changes
    | .ok (none, _) changes => .ok none changes
    | .error message changes => .error message changes

/-- The handler of a kind that a script makes; none if there is no such kind. -/
def handler? (kind : String) (operations : List Operation) (stages : List Stage) : Option Handler :=
  match kind with
  | "context" => some (.context fun call => onContext { call } operations)
  | "toolkit" =>
    some (.toolkit fun call dialect => onContext { call, dialect := some dialect } operations)
  | "helper" => some (.helper fun call dialect bindings workspace =>
      let setting := { call, dialect := some dialect, bindings := some bindings }
      match onWorkspace [] (runOperations setting operations) workspace with
      | .ok _ changes => .ok () changes
      | .error message changes => .error message changes)
  | "task" => some (.task fun dialect => task dialect stages [])
  | _ => none

end CallExpander.Script
