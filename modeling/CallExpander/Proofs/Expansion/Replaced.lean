import CallExpander.Proofs.Expansion.Failing

/-!
# Calls that are gone

Nothing tells that a handler replaced or removed its call but what stands in its place: if that is no
call, the call is gone. It has no arguments then, and a task that asks for them all the same fails,
however many stages later that is. But what a call is replaced by can be a call itself. Nothing tells it
from the call it replaces, and a task that asks for arguments is given those of the new call.
-/

namespace CallExpander

open Expansion

theorem Context.isDetached_replaceWith (context : Context) (e : Node) :
    (context.replaceWith e).isDetached = true ↔ e.isCall = false :=
  Bool.not_eq_true' e.isCall ▸ Iff.rfl

/-- A call that is gone has no arguments. -/
theorem Context.args_of_isDetached {context : Context} (h : context.isDetached = true) :
    context.args = [] ∧ ∀ index, context.arg? index = none := by
  have hargs : context.slot.args = [] := by
    unfold Node.args
    split
    · next hslot =>
      rw [isDetached, hslot] at h
      cases h
    · rfl
  refine ⟨hargs, fun index => ?_⟩
  rw [arg?, args, hargs]
  rfl

/-- A task that waits for what it asked for: what stands in the place of its call, what it has not been
given yet, the stage that runs then, and how deep what it is given may lead. -/
structure Waiting where
  level : Nat
  slot : Node
  requests : List Request
  next : Task

namespace Job

variable {job : Job} {invocation : Invocation} {run mid : Run}

/-- Serves what a task waits for, and runs the task to its end. -/
def proceed (job : Job) (invocation : Invocation) (waiting : Waiting) : Expansion Node := do
  let slot ← job.fulfilAll (job.walker waiting.level) invocation waiting.slot waiting.requests
  (job.walker waiting.level).task invocation waiting.next slot

theorem drive_of_asked {level : Nat} {task next : Task} {slot slot' : Node} {requests : List Request}
    (h : job.onWorkspace invocation slot task.resume run = .ok (some (requests, next), slot') mid) :
    job.drive (job.walker level) invocation task slot run =
      job.proceed invocation ⟨level, slot', requests, next⟩ mid := by
  rw [drive, bind_of_ok h]
  rfl

/-- What a task waits for later, when none of its stages since has put a call in the place of its
call. -/
inductive Pursues (job : Job) (invocation : Invocation) (waiting : Waiting) (run : Run) :
    Waiting → Run → Prop
  | start : Pursues job invocation waiting run waiting run
  | served {level : Nat} {slot slot' : Node} {request : Request} {rest : List Request} {next : Task}
      {mid mid' : Run}
      (h : Pursues job invocation waiting run ⟨level, slot, request :: rest, next⟩ mid)
      (hserved : job.fulfil (job.walker level) invocation slot request mid = .ok slot' mid') :
      Pursues job invocation waiting run ⟨level, slot', rest, next⟩ mid'
  | resumed {level : Nat} {slot slot' : Node} {requests : List Request} {task next : Task}
      {mid mid' : Run} (h : Pursues job invocation waiting run ⟨level + 1, slot, [], task⟩ mid)
      (hstage : job.onWorkspace invocation slot task.resume mid =
        .ok (some (requests, next), slot') mid')
      (hgone : slot'.isCall = false) :
      Pursues job invocation waiting run ⟨level, slot', requests, next⟩ mid'

variable {waiting later : Waiting}

/-- How a task ends is how it ends from any later point on. -/
theorem Pursues.proceed_eq (h : job.Pursues invocation waiting run later mid) :
    job.proceed invocation waiting run = job.proceed invocation later mid := by
  induction h with
  | start => rfl
  | served h hserved ih =>
    rw [ih, proceed, proceed, fulfilAll, bind_assoc]
    exact bind_of_ok hserved
  | resumed h hstage hgone ih =>
    rw [ih]
    exact drive_of_asked hstage

/-- A request leaves a call that is gone as it is. -/
theorem fulfil_of_gone {w : Walker} {slot slot' : Node} {request : Request}
    (hgone : slot.isCall = false) (h : job.fulfil w invocation slot request run = .ok slot' mid) :
    slot' = slot := by
  cases request with
  | argument _ | arguments =>
    rw [fulfil_of_replaced rfl hgone] at h
    cases h
  | item _ | «import» _ =>
    obtain ⟨_, _, -, h⟩ := ok_bind h
    obtain ⟨_, _, -, h⟩ := ok_bind h
    exact (ok_pure h).1.symm

/-- A call that is gone stays so. -/
theorem Pursues.isCall_eq_false (h : job.Pursues invocation waiting run later mid)
    (hgone : waiting.slot.isCall = false) : later.slot.isCall = false := by
  induction h with
  | start => exact hgone
  | served h hserved ih => exact (congrArg Node.isCall (fulfil_of_gone ih hserved)).trans ih
  | resumed h hstage hgone' ih => exact hgone'

/-- What becomes of a task that asks for arguments of a call that is gone. -/
def goneFailure (job : Job) (invocation : Invocation) : Failure :=
  .invalidRequest invocation.callee.name job.source.path
    "arguments were requested after the call site was replaced" invocation.site

/-- A call is gone once it was removed, or replaced by anything but a call. It has no arguments then. If
a stage of a task leaves its call so, then a request for arguments is refused whenever its turn comes,
be it in the batch of that stage or of a later one; whoever would serve it, nothing is expanded for it
and the state stays as it is, and that is how the task ends. -/
theorem gone_call_has_no_arguments (job : Job) :
    (∀ (context : Context) (e : Node), (context.replaceWith e).isDetached = true ↔ e.isCall = false) ∧
    (∀ context : Context, context.remove.isDetached = true) ∧
    (∀ context : Context, context.isDetached = true →
      context.args = [] ∧ ∀ index, context.arg? index = none) ∧
    ∀ {invocation : Invocation} {level : Nat} {task next : Task} {slot : Node} {run mid : Run}
      {requests rest : List Request} {changes : Changes} {later : Waiting} {request : Request},
      task.resume (job.facts invocation slot) run.bindings (run.workspace slot) =
        .ok (some (requests, next)) changes →
      changes.isDetached = true →
      job.Pursues invocation ⟨level, changes.slot, requests, next⟩ (run.withChanges changes)
        later mid →
      later.requests = request :: rest → request.place? = none →
      (∀ w, job.fulfil w invocation later.slot request mid =
        .error (.failure (job.goneFailure invocation)) mid) ∧
      job.drive (job.walker level) invocation task slot run =
        .error (.failure (job.goneFailure invocation)) mid := by
  refine ⟨Context.isDetached_replaceWith, fun _ => rfl, fun _ => Context.args_of_isDetached, ?_⟩
  intro invocation level task next slot run mid requests rest changes later request hresume hdetached
    hlater hrequests hargs
  have hgone : later.slot.isCall = false :=
    hlater.isCall_eq_false ((Bool.not_eq_true' _).mp hdetached)
  have hrefused : ∀ w, job.fulfil w invocation later.slot request mid =
      .error (.failure (job.goneFailure invocation)) mid := fulfil_of_replaced hargs hgone
  refine ⟨hrefused, ?_⟩
  have hstage : job.onWorkspace invocation slot task.resume run =
      .ok (some (requests, next), changes.slot) (run.withChanges changes) := by
    rw [onWorkspace, hresume]
  rw [drive_of_asked hstage, hlater.proceed_eq, proceed, hrequests, fulfilAll]
  exact bind_of_error (bind_of_error (hrefused _))

/-- A stage that asks for the arguments of its call. -/
def asking : Task := .stage fun _ _ workspace => .ok (some ([.arguments], .done)) { workspace with }

/-- A task that replaces its call, and asks for its arguments a stage later. -/
def rewriting (e : Node) : Task := .stage fun _ _ workspace =>
  .ok (some ([], asking)) { workspace.toContext.replaceWith e with }

def replacing (e : Node) : Job where
  registry := ⟨[("m", ⟨.macros [⟨"wrap", .task fun _ => rewriting e, "", compatVersion⟩,
    ⟨"inner", .context fun _ => modify Context.remove, "", compatVersion⟩], []⟩)]⟩
  source := Source.ofPath "a.js" ""

def replaced : List Node :=
  [(ImportSpec.named "m" "wrap").toItem, (ImportSpec.named "m" "inner").toItem,
    Node.build .exprStmt [Node.callOf (Node.identifier "wrap") []]]

/-- A list of calls in the place of the call: the task fails when it asks for arguments, and the call in
the list is not expanded. -/
theorem listed_call_is_not_expanded :
    let e := Node.arrayOf [Node.callOf (Node.identifier "inner") []]
    ∃ invocation run mid, (replacing e).drive ((replacing e).walker 1) invocation (rewriting e)
        (Node.callOf (Node.identifier "wrap") []) run =
      .error (.failure ((replacing e).goneFailure invocation)) mid ∧ mid.trace = run.trace := by
  intro e
  obtain ⟨-, -, -, hfails⟩ := gone_call_has_no_arguments (replacing e)
  have hfail := @hfails ⟨default, "m", none⟩ 1 (rewriting e) asking
    (Node.callOf (Node.identifier "wrap") []) ((replacing e).start replaced) _ [] [] { slot := e }
    ⟨0, e, [.arguments], .done⟩ .arguments rfl rfl (.resumed .start rfl rfl) rfl rfl
  exact ⟨_, _, _, hfail.2, rfl⟩

/-- A call in the place of the call: it does not count as gone, and the call among its arguments is
expanded, as the task asks for them. -/
theorem call_for_call_is_not_gone :
    let inner := Node.callOf (Node.identifier "inner") []
    let e := Node.callOf (Node.identifier "f") [inner]
    (∀ context : Context, (context.replaceWith e).isDetached = false ∧
      (context.replaceWith e).arg? 0 = some inner) ∧
    ∃ invocation run run', (replacing e).Begins 4 replaced 1 (.requests invocation e [.arguments]) run ∧
      (replacing e).fulfil ((replacing e).walker 1) invocation e .arguments run =
        .ok (Node.callOf (Node.identifier "f") [Node.undefined]) run' ∧
      run'.pass = run.pass ∧ run'.trace = run.trace ++ [⟨1, "inner", "m", none⟩] := by
  intro inner e
  refine ⟨fun context => ⟨rfl, rfl⟩, ?_⟩
  have hbegins : (replacing e).Begins 4 replaced 1 (.requests _ e [.arguments]) _ :=
    .asked (.resumed (.start (.cooperative (.first (.parts (.detached (.takeUp (.pass .start)
      (by decide +kernel)) rfl) rfl)) rfl rfl rfl) rfl) rfl rfl) rfl
  exact ⟨_, _, _, hbegins, rfl, rfl, rfl⟩

end Job

end CallExpander
