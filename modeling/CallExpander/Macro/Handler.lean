import CallExpander.Body
import CallExpander.Code.Source
import CallExpander.Memory

/-!
Handlers: what runs when a macro is called. A handler sees its own call, what was remembered, and,
depending on its tier, the whole program. A task is a handler in stages: each stage can ask for
parts of the program to be expanded before the next stage runs.
-/

namespace CallExpander

open CallExpander.Code
open CallExpander.Text

/-- The facts of a call that a handler can read. -/
structure Call where
  file : String
  source : String
  isDev : Bool
  isSsr : Bool
  macroName : String
  module : String
  /-- Where the call came from when the handler got to see it. -/
  origin : Origin
  location : Option Location
  deriving Inhabited

/-- Something a handler noted down: the macro, what it did, and what came out. -/
structure Note where
  macroName : String
  action : String
  result : Json
  deriving Inhabited

/-- What a handler can change about its own call. -/
structure Context where
  /-- The expression at the place of the call. -/
  slot : Node
  passState : Memory := {}
  fileState : Memory := {}
  notes : List Note := []
  deriving Inhabited

namespace Context

/-- Whether the call was replaced or removed. -/
def isDetached (context : Context) : Bool := !context.slot.isCall

/-- The arguments of the call; none after it was replaced. -/
def args (context : Context) : List Node := context.slot.args

/-- An argument of the call, if it is no spread. -/
def arg? (context : Context) (index : Nat) : Option Node :=
  match context.args[index]? with
  | some (.mk .spread _ _) => none
  | other => other

def replaceWith (context : Context) (e : Node) : Context :=
  { context with slot := e }

/-- Removes the call. A call that is a whole statement takes the statement with it; anywhere else it
becomes `void 0`. -/
def remove (context : Context) : Context :=
  { context with slot := Node.removedMarker }

end Context

/-- What a handler with access to the whole program gets to see and change. -/
structure Workspace extends Context where
  body : Body
  deriving Inhabited

/-- What a handler with access to the whole program leaves. It has no other way to change the program
than by edits, which are made in order. -/
structure Changes extends Context where
  edits : List Edit := []
  deriving Inhabited

/-- A part of the program that a task wants expanded. -/
inductive Request where
  /-- An argument of the call. -/
  | argument (index : Nat)
  /-- All arguments of the call, from left to right. -/
  | arguments
  /-- An item of the program. -/
  | item (index : Nat)
  /-- An import, whose macros can be called from then on. -/
  | import (index : Nat)
  deriving Repr, DecidableEq, Inhabited

/-- A handler in stages. A stage either fails with a message, or ends the task, or asks for
expansions and leaves the task that goes on once they are done. Every task ends after finitely many
stages, whatever it gets to see. -/
inductive Task where
  | stage (resume : Call → List Binding → Workspace →
      EStateM.Result String Changes (Option (List Request × Task)))

def Task.resume : Task → Call → List Binding → Workspace →
    EStateM.Result String Changes (Option (List Request × Task))
  | .stage resume => resume

/-- The task that does nothing. -/
def Task.done : Task := .stage fun _ _ workspace => .ok none { workspace with }

instance : Inhabited Task := ⟨.done⟩

/-- What runs when a macro is called. But for tasks, the arguments are expanded first. -/
inductive Handler where
  /-- Sees only its call. -/
  | context (run : Call → EStateM String Context Unit)
  /-- Can also read and print program text. -/
  | toolkit (run : Call → Dialect → EStateM String Context Unit)
  /-- Can also read and edit the program. -/
  | helper (run : Call → Dialect → List Binding → Workspace → EStateM.Result String Changes Unit)
  /-- Decides itself what is expanded and when. -/
  | task (start : Dialect → Task)

instance : Inhabited Handler := ⟨.context fun _ => pure ()⟩

/-- What a handler has access to. -/
inductive Tier where
  | context
  | toolkit
  | helper
  deriving Repr, DecidableEq, Inhabited

def Tier.name : Tier → String
  | .context => "context"
  | .toolkit => "toolkit"
  | .helper => "helper"

namespace Handler

def tier : Handler → Tier
  | .context _ => .context
  | .toolkit _ => .toolkit
  | .helper _ | .task _ => .helper

/-- Whether the handler decides itself what is expanded. -/
def isCooperative : Handler → Bool
  | .task _ => true
  | _ => false

def render : Handler → String
  | .context _ => "Handler::ContextOnly"
  | .toolkit _ => "Handler::WithToolkit"
  | .helper _ => "Handler::WithHelper"
  | .task _ => "Handler::Task"

end Handler

end CallExpander
