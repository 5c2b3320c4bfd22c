import CallExpander.Expansion.Walk
import CallExpander.Tree.Scope

/-!
Expanding a file. A pass expands every item once; passes follow one another until one of them
applies no macro, and there may only be so many of them.
-/

namespace CallExpander

open CallExpander.Code

namespace Job

/-- Expands the items from an index on. An item that is inserted behind the current one is reached,
one that is inserted before it is not. -/
def expandFrom (job : Job) : Nat → Nat → Expansion Unit
  | 0, index => do
    if index < (← get).body.size then throw .outOfBudget
  | budget + 1, index => do
    if index < (← get).body.size then
      modify (·.record (.walked index))
      let next ← (job.walker (budget + 1)).item index
      job.expandFrom budget next

def beginPass (run : Run) : Run :=
  { run with pass := run.pass + 1, applied := 0, passState := {} }

/-- Retires the macro imports that are in the program, and resolves names anew. -/
def refresh (job : Job) (run : Run) : Run :=
  let (found, items) := collectBindings job.registry.exports job.options.keepImports run.body.items
  let items := Node.resolve items
  { run with
    body := { run.body with items }
    bindings := run.bindings ++ found
    history := run.history ++ [.resolved items] }

/-- One pass over the program. -/
def runPass (job : Job) (budget : Nat) : Expansion Unit := do
  modify beginPass
  job.expandFrom budget 0

/-- Runs passes until one applies nothing, and counts those that applied something. -/
def settle (job : Job) (budget : Nat) : Nat → Nat → Expansion Nat
  | 0, _ =>
    throw (.failure (.passLimit job.source.path job.options.effectiveMaxPasses))
  | remaining + 1, count => do
    job.runPass budget
    modify job.refresh
    if (← get).applied = 0 then return count
    job.settle budget remaining (count + 1)

def start (job : Job) (items : List Node) : Run :=
  let (bindings, items) := collectBindings job.registry.exports job.options.keepImports items
  let items := Node.resolve items
  { body := { items }, bindings, history := [.resolved items] }

/-- Expands items until nothing is left to expand; none if they import no macros. -/
def expand (job : Job) (budget : Nat) (items : List Node) : Option (EStateM.Result Halt Run Nat) :=
  let run := job.start items
  if run.bindings.isEmpty then none
  else some (job.settle budget job.options.effectiveMaxPasses 0 run)

end Job

/-- A file after its expansion. -/
structure Output where
  code : String
  /-- How many passes applied a macro. -/
  passes : Nat
  /-- All applications of macros, in order. -/
  trace : List Step
  deriving Repr, DecidableEq, Inhabited

/-- What became of a file. -/
inductive Outcome where
  /-- The file imports no macros. -/
  | untouched
  | transformed (output : Output)
  deriving Repr, DecidableEq, Inhabited

/-- What an expansion leaves: its outcome, and what handlers noted down. -/
structure Report where
  outcome : Except Halt Outcome
  notes : List Note := []
  deriving Inhabited

/-- The number of steps that an expansion may take unless something else is asked for. -/
def defaultBudget : Nat := 1000000

def Job.run (job : Job) (budget : Nat) : Report :=
  match job.source.parse with
  | .error failure => { outcome := .error (.failure failure) }
  | .ok module =>
    match job.expand budget module.items with
    | none => { outcome := .ok .untouched }
    | some (.error halt run) => { outcome := .error halt, notes := run.notes }
    | some (.ok passes run) =>
      let code := printModule { module with items := run.body.items }
      { outcome := .ok (.transformed ⟨code, passes, run.trace⟩), notes := run.notes }

/-- Expands the macro calls of a file. -/
def Registry.transform (registry : Registry) (path text : String) (options : Options) : Report :=
  Job.run { registry, source := Source.ofPath path text, options } defaultBudget

end CallExpander
