import CallExpander.Expansion.Run

/-!
Expanding the macro calls of a tree. The arguments of a call are expanded before its handler runs,
and what the handler puts in the place of the call is not looked at again in the same pass. Tasks
choose themselves what is expanded; serving them can lead anywhere in the program, so it is handed
to a walker, which is given a budget.
-/

namespace CallExpander

/-- How the requests of tasks are served. -/
structure Walker where
  /-- Expands an expression. -/
  expression : Node → Expansion Node
  /-- Expands an item, and tells the index behind it. -/
  item : Nat → Expansion Nat
  /-- Runs a task for a call to its end. -/
  task : Invocation → Task → Node → Expansion Node

namespace Job

/-- Runs the handler of a call whose arguments are expanded, where it has to be. -/
def apply (job : Job) (walker : Walker) (invocation : Invocation) (slot : Node) : Expansion Node :=
  match invocation.callee.handler with
  | .context run => job.onContext invocation slot run
  | .toolkit run => job.onContext invocation slot fun call => run call job.source.dialect
  | .helper run => do
    let (_, slot) ← job.onWorkspace invocation slot fun call => run call job.source.dialect
    return slot
  | .task start => walker.task invocation (start job.source.dialect) slot

/-- The macro that a call stands for, with its module; none for an ordinary call. Halts if the
module has no such macro. -/
def identify (job : Job) (n : Node) : Expansion (Option (Macro × String)) := do
  match resolveCall (← get).bindings n with
  | none => return none
  | some (.unknown module name) =>
    throw (.failure (.unknownMacro name module job.source.path (job.source.site? n)))
  | some (.known module name) =>
    match job.registry.find? module name with
    | some callee => return some (callee, module)
    | none => throw (.failure (.unknownMacro name module job.source.path (job.source.site? n)))

mutual

/-- Expands the macro calls of a tree. -/
def visit (job : Job) (walker : Walker) : Node → Expansion Node
  | .mk form origin parts => do
    match ← job.identify (.mk form origin parts) with
    | none => return .mk form origin (← visitParts job walker parts)
    | some (callee, module) =>
      let invocation ← job.begin callee module (.mk form origin parts)
      if callee.handler.isCooperative then
        job.apply walker invocation (.mk form origin parts)
      else
        job.apply walker invocation (.mk form origin (← visitCall job walker parts))

def visitParts (job : Job) (walker : Walker) : List Node → Expansion (List Node)
  | [] => return []
  | n :: rest => return (← visit job walker n) :: (← visitParts job walker rest)

/-- Expands the arguments among the parts of a macro call. -/
def visitCall (job : Job) (walker : Walker) : List Node → Expansion (List Node)
  | [callee, group, typeArgs] => return [callee, ← visitGroup job walker group, typeArgs]
  | parts => return parts

/-- Expands each of a list of arguments. -/
def visitGroup (job : Job) (walker : Walker) : Node → Expansion Node
  | .mk .group origin args => return .mk .group origin (← visitArguments job walker args)
  | n => return n

/-- Expands arguments one by one, and cleans up each before the next. -/
def visitArguments (job : Job) (walker : Walker) : List Node → Expansion (List Node)
  | [] => return []
  | n :: rest => return (← visit job walker n).sweep :: (← visitArguments job walker rest)

end

def reattach (item : Node) : Expansion Nat := fun run =>
  match run.body.reattach? item with
  | some (index, body) => .ok index { run with body }
  | none => .error .lostItem run

/-- Expands the item at an index, and tells the index of the item behind it. An item that is nothing
but a removed call is dropped. Where the expansion halts the item goes back as it was detached: how
far its tree had been rewritten by then is not kept, since the run is over and nothing reads the
program any more. That it goes back matters for the pending places only. -/
def expandItem (job : Job) (walker : Walker) (index : Nat) : Expansion Nat := fun run =>
  match run.body.detach? index with
  | none => .error .lostItem run
  | some (item, body) =>
    match job.visit walker item { run with body } with
    | .error halt run =>
      match reattach item run with
      | .ok _ run => .error halt run
      | .error lost run => .error lost run
    | .ok item run =>
      if item.isRemovedStatement then
        match run.body.discard? with
        | some (index, body) => .ok index (run.dropping index body)
        | none => .error .lostItem run
      else
        match reattach item.sweep run with
        | .ok index run => .ok (index + 1) run
        | .error lost run => .error lost run

/-- Refuses an item that is missing or pending. -/
def checkItem (job : Job) (invocation : Invocation) (index : Nat) : Expansion Unit := do
  let body := (← get).body
  if index ≥ body.size then
    job.invalidRequest invocation ("item " ++ toString index
      ++ " was requested, but the program has " ++ toString body.size)
  else if body.isPending index then
    job.invalidRequest invocation
      ("item " ++ toString index ++ " contains the call that requested it")

/-- Retires an import ahead of time. -/
def collectImport (job : Job) (invocation : Invocation) (index : Nat) : Expansion Unit := do
  let run ← get
  match run.body.items[index]? with
  | none => throw .lostItem
  | some item =>
    if item.importDecl?.isNone then
      job.invalidRequest invocation
        ("item " ++ toString index ++ " is not an import declaration")
    else
      match retireImport job.registry.exports job.options.keepImports item with
      | none => return ()
      | some retired =>
        match run.retiring? index retired with
        | some run => set run
        | none => throw .lostItem

/-- Expands an argument and cleans it up. -/
def expandArgument (walker : Walker) (arg : Node) : Expansion Node :=
  return (← walker.expression arg).sweep

def expandArguments (walker : Walker) : List Node → Expansion (List Node)
  | [] => return []
  | arg :: rest => return (← expandArgument walker arg) :: (← expandArguments walker rest)

/-- Serves one request of a task, and gives its call after that. -/
def fulfil (job : Job) (walker : Walker) (invocation : Invocation) (slot : Node) :
    Request → Expansion Node
  | .argument index =>
    if !slot.isCall then
      job.invalidRequest invocation "arguments were requested after the call site was replaced"
    else
      match slot.args[index]? with
      | none =>
        job.invalidRequest invocation ("argument " ++ toString index
          ++ " was requested, but the call has " ++ toString slot.args.length)
      | some arg => return slot.withArgs (slot.args.set index (← expandArgument walker arg))
  | .arguments =>
    if !slot.isCall then
      job.invalidRequest invocation "arguments were requested after the call site was replaced"
    else return slot.withArgs (← expandArguments walker slot.args)
  | .item index => do
    job.checkItem invocation index
    let _ ← walker.item index
    return slot
  | .import index => do
    job.checkItem invocation index
    job.collectImport invocation index
    return slot

def fulfilAll (job : Job) (walker : Walker) (invocation : Invocation) :
    Node → List Request → Expansion Node
  | slot, [] => return slot
  | slot, request :: rest => do
    let slot ← job.fulfil walker invocation slot request
    job.fulfilAll walker invocation slot rest

/-- Runs a task for a call to its end. -/
def drive (job : Job) (walker : Walker) (invocation : Invocation) (task : Task) (slot : Node) :
    Expansion Node := do
  let (answer, slot) ← job.onWorkspace invocation slot task.resume
  match answer with
  | none => return slot
  | some (requests, next) =>
    let slot ← job.fulfilAll walker invocation slot requests
    walker.task invocation next slot

/-- The walker that can go on for a number of steps. -/
def walker (job : Job) : Nat → Walker
  | 0 =>
    { expression := fun _ => throw .outOfBudget
      item := fun _ => throw .outOfBudget
      task := fun _ _ _ => throw .outOfBudget }
  | budget + 1 =>
    { expression := fun n => job.visit (job.walker budget) n
      item := fun index => job.expandItem (job.walker budget) index
      task := fun invocation task slot => job.drive (job.walker budget) invocation task slot }

end Job

end CallExpander
