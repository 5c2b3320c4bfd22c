import CallExpander.Registry
import CallExpander.Settings.Options

/-!
The state of an expansion, and how handlers are run on it.
-/

namespace CallExpander

open CallExpander.Text

/-- What an expansion works on: a file, the macros, and the settings. -/
structure Job where
  registry : Registry
  source : Source
  options : Options := {}
  deriving Inhabited

/-- Why an expansion stops before its end. -/
inductive Halt where
  | failure (failure : Failure)
  /-- More steps were needed than were allowed. -/
  | outOfBudget
  /-- An item or a pending place was needed that does not exist. -/
  | lostItem
  deriving Repr, DecidableEq, Inhabited

/-- One application of a macro. -/
structure Step where
  pass : Nat
  macroName : String
  module : String
  location : Option Location
  deriving Repr, DecidableEq, Inhabited

/-- Something that happened in an expansion. -/
inductive Event where
  /-- The names in the items of the program were resolved. -/
  | resolved (items : List Node)
  /-- The walk over the program took up the item at an index. -/
  | walked (index : Nat)
  /-- A macro was applied to a call. -/
  | applied (call : Node)
  /-- A handler, or a stage of a task, left a tree in the place of its call. -/
  | left (slot : Node)
  /-- A handler changed the program. -/
  | edited (before : Body) (edit : Edit)
  /-- The item at an index went away. -/
  | dropped (index : Nat)
  deriving Inhabited

/-- The state of an expansion. -/
structure Run where
  body : Body
  bindings : List Binding
  passState : Memory := {}
  fileState : Memory := {}
  notes : List Note := []
  pass : Nat := 0
  /-- How many macros were applied in this pass. -/
  applied : Nat := 0
  trace : List Step := []
  /-- Everything that happened, in order. Nothing looks at it but the statements about runs. -/
  history : List Event := []
  deriving Inhabited

/-- Part of an expansion. The state survives a halt. -/
abbrev Expansion := EStateM Halt Run

/-- A call that is being expanded. -/
structure Invocation where
  callee : Macro
  module : String
  site : Option Site
  deriving Inhabited

namespace Run

def context (run : Run) (slot : Node) : Context :=
  { slot, passState := run.passState, fileState := run.fileState, notes := run.notes }

def record (run : Run) (event : Event) : Run :=
  { run with history := run.history ++ [event] }

def withContext (run : Run) (context : Context) : Run :=
  { run with
    passState := context.passState, fileState := context.fileState, notes := context.notes
    history := run.history ++ [.left context.slot] }

/-- What a handler with access to the program gets to see. -/
def workspace (run : Run) (slot : Node) : Workspace :=
  { run.context slot with body := run.body }

def edit (run : Run) (edit : Edit) : Run :=
  { run with
    body := (run.body.edit edit).2
    history := run.history ++ [.edited run.body edit] }

def withChanges (run : Run) (changes : Changes) : Run :=
  (changes.edits.foldl edit run).withContext changes.toContext

def dropping (run : Run) (index : Nat) (body : Body) : Run :=
  { run with body, history := run.history ++ [.dropped index] }

/-- The state after the import at an index was retired; none if there is no such item. -/
def retiring? (run : Run) (index : Nat) (retired : Retired) : Option Run :=
  let bindings := run.bindings ++ retired.bindings
  match retired.remains with
  | some rest =>
    some { run with body := { run.body with items := run.body.items.set index rest }, bindings }
  | none => (run.body.remove? index).map fun body => { run.dropping index body with bindings }

def applying (run : Run) (step : Step) (call : Node) : Run :=
  { run with
    applied := run.applied + 1
    trace := run.trace ++ [step]
    history := run.history ++ [.applied call] }

end Run

namespace Job

def facts (job : Job) (invocation : Invocation) (slot : Node) : Call :=
  { file := job.source.path
    source := job.source.text
    isDev := job.options.isDev
    isSsr := job.options.isSsr
    macroName := invocation.callee.name
    module := invocation.module
    origin := slot.origin
    location := invocation.site.map (·.location) }

def handlerFailure (job : Job) (invocation : Invocation) (cause : String) : Halt :=
  .failure (.handler invocation.callee.name job.source.path invocation.site cause)

/-- Halts because a task asked for something it cannot have. -/
def invalidRequest {α : Type} (job : Job) (invocation : Invocation) (reason : String) :
    Expansion α :=
  throw (.failure (.invalidRequest invocation.callee.name job.source.path reason invocation.site))

/-- Runs a handler on its call, and gives what stands in the place of the call then. -/
def onContext (job : Job) (invocation : Invocation) (slot : Node)
    (handler : Call → EStateM String Context Unit) : Expansion Node := fun run =>
  match handler (job.facts invocation slot) (run.context slot) with
  | .ok _ context => .ok context.slot (run.withContext context)
  | .error cause context => .error (job.handlerFailure invocation cause) (run.withContext context)

/-- Runs a handler on its call and the program, and gives its answer and what stands in the place of
the call then. -/
def onWorkspace {α : Type} (job : Job) (invocation : Invocation) (slot : Node)
    (handler : Call → List Binding → Workspace → EStateM.Result String Changes α) :
    Expansion (α × Node) := fun run =>
  match handler (job.facts invocation slot) run.bindings (run.workspace slot) with
  | .ok a changes => .ok (a, changes.slot) (run.withChanges changes)
  | .error cause changes =>
    .error (job.handlerFailure invocation cause) (run.withChanges changes)

/-- Counts the application of a macro. -/
def begin (job : Job) (callee : Macro) (module : String) (slot : Node) : Expansion Invocation := do
  let site := job.source.site? slot
  modify fun run =>
    run.applying ⟨run.pass, callee.name, module, site.map (·.location)⟩ slot
  return ⟨callee, module, site⟩

end Job

end CallExpander
