import CallExpander.Proofs.Expansion.Leading

/-!
# The first failure ends a file

Something fails where a name stands for no macro, a handler or a stage of a task says so, or a request
is refused. That piece of work is the last that is done, whatever it is nested in, and what went wrong
there is what becomes of the file; and a file fails for nothing else but its text and the limit on
passes. What a handler says is told with the name and the place of its own call.
-/

namespace CallExpander

open Expansion

namespace Job

/-- A piece of work fails itself, not in a piece inside it, and leaves a state. -/
inductive Fails (job : Job) : Work → Run → Failure → Run → Prop
  | unknown {run : Run} {n : Node} {module name : String}
      (h : resolveCall run.bindings n = some (.unknown module name) ∨
        resolveCall run.bindings n = some (.known module name) ∧
          job.registry.find? module name = none) :
      Fails job (.tree n) run
        (.unknownMacro name module job.source.path (job.source.site? n)) run
  | context {run : Run} {invocation : Invocation} {slot : Node} {cause : String} {context : Context}
      {handler : Call → EStateM String Context Unit}
      (hhandler : invocation.callee.handler = .context handler)
      (h : handler (job.facts invocation slot) (run.context slot) = .error cause context) :
      Fails job (.handler invocation slot) run
        (.handler invocation.callee.name job.source.path invocation.site cause)
        (run.withContext context)
  | toolkit {run : Run} {invocation : Invocation} {slot : Node} {cause : String} {context : Context}
      {handler : Call → Dialect → EStateM String Context Unit}
      (hhandler : invocation.callee.handler = .toolkit handler)
      (h : handler (job.facts invocation slot) job.source.dialect (run.context slot) =
        .error cause context) :
      Fails job (.handler invocation slot) run
        (.handler invocation.callee.name job.source.path invocation.site cause)
        (run.withContext context)
  | helper {run : Run} {invocation : Invocation} {slot : Node} {cause : String} {changes : Changes}
      {handler : Call → Dialect → List Binding → Workspace →
        EStateM.Result String Changes Unit}
      (hhandler : invocation.callee.handler = .helper handler)
      (h : handler (job.facts invocation slot) job.source.dialect run.bindings (run.workspace slot) =
        .error cause changes) :
      Fails job (.handler invocation slot) run
        (.handler invocation.callee.name job.source.path invocation.site cause)
        (run.withChanges changes)
  | stage {run : Run} {invocation : Invocation} {task : Task} {slot : Node} {cause : String}
      {changes : Changes}
      (h : task.resume (job.facts invocation slot) run.bindings (run.workspace slot) =
        .error cause changes) :
      Fails job (.stage invocation task slot) run
        (.handler invocation.callee.name job.source.path invocation.site cause)
        (run.withChanges changes)
  /-- A request is refused, whoever would serve it. -/
  | refused {run : Run} {invocation : Invocation} {slot : Node} {request : Request} {reason : String}
      (h : ∀ w, job.fulfil w invocation slot request run = job.invalidRequest invocation reason run) :
      Fails job (.request invocation slot request) run
        (.invalidRequest invocation.callee.name job.source.path reason invocation.site) run

variable {job : Job} {budget level : Nat} {items : List Node} {work : Work} {run run' : Run}
  {failure : Failure}

theorem onContext_of_error {invocation : Invocation} {slot : Node} {cause : String}
    {context : Context} (handler : Call → EStateM String Context Unit)
    (h : handler (job.facts invocation slot) (run.context slot) = .error cause context) :
    job.onContext invocation slot handler run =
      .error (job.handlerFailure invocation cause) (run.withContext context) := by
  unfold onContext
  rw [h]

theorem onWorkspace_of_error {α : Type} {invocation : Invocation} {slot : Node} {cause : String}
    {changes : Changes} (handler : Call → List Binding → Workspace → EStateM.Result String Changes α)
    (h : handler (job.facts invocation slot) run.bindings (run.workspace slot) =
      .error cause changes) :
    job.onWorkspace invocation slot handler run =
      .error (job.handlerFailure invocation cause) (run.withChanges changes) := by
  unfold onWorkspace
  rw [h]

/-- The failure of a piece of work is how it ends, with nothing behind it. -/
theorem Fails.ending (h : job.Fails work run failure run') (level : Nat) :
    job.ending level work run = ⟨some (.failure failure), run'.history⟩ := by
  cases h with
  | @unknown _ n module name h =>
    obtain ⟨form, origin, parts⟩ := n
    have hidentify : job.identify (.mk form origin parts) run = .error (.failure (.unknownMacro name
        module job.source.path (job.source.site? (.mk form origin parts)))) run := by
      rw [identify, get_bind]
      obtain h | ⟨h, hmissing⟩ := h
      · simp only [h]
        rfl
      · simp only [h, hmissing]
        rfl
    simp only [Job.ending]
    rw [visit]
    exact ending_of_error (bind_of_error hidentify)
  | context hhandler h =>
    simp only [Job.ending, apply, hhandler]
    exact ending_of_error (onContext_of_error _ h)
  | @toolkit _ _ _ _ _ handler hhandler h =>
    simp only [Job.ending, apply, hhandler]
    exact ending_of_error (onContext_of_error (fun call => handler call job.source.dialect) h)
  | @helper _ _ _ _ _ handler hhandler h =>
    simp only [Job.ending, apply, hhandler]
    have hstop := onWorkspace_of_error (fun call => handler call job.source.dialect) h
    exact ending_of_error (bind_of_error hstop)
  | stage h =>
    simp only [Job.ending, drive]
    exact ending_of_error (bind_of_error (onWorkspace_of_error _ h))
  | refused h => exact ending_of_error (h _)

/-! ## A failure stems from something that failed -/

/-- Something that is begun in a pass fails. -/
def Blames (job : Job) (budget : Nat) (items : List Node) (number : Nat) (failure : Failure) : Prop :=
  ∃ level work run run', job.Begins budget items level work run ∧ run.pass = number ∧
    job.Fails work run failure run'

/-- With so much budget, what is begun and halts for a failure does so for something that fails. -/
structure Traces (job : Job) (budget : Nat) (items : List Node) (level : Nat) : Prop where
  tree : ∀ {n run failure run'}, job.Begins budget items level (.tree n) run →
    job.visit (job.walker level) n run = .error (.failure failure) run' →
    job.Blames budget items run.pass failure
  trees : ∀ {parts run failure run'}, job.Begins budget items level (.trees parts) run →
    job.visitParts (job.walker level) parts run = .error (.failure failure) run' →
    job.Blames budget items run.pass failure
  item : ∀ {index run failure run'}, job.Begins budget items level (.item index) run →
    job.expandItem (job.walker level) index run = .error (.failure failure) run' →
    job.Blames budget items run.pass failure
  stage : ∀ {invocation task slot run failure run'},
    job.Begins budget items level (.stage invocation task slot) run →
    job.drive (job.walker level) invocation task slot run = .error (.failure failure) run' →
    job.Blames budget items run.pass failure

theorem blames_handler (below : ∀ lower, level = lower + 1 → job.Traces budget items lower)
    {invocation : Invocation} {slot : Node}
    (h : job.Begins budget items level (.handler invocation slot) run)
    (herror : job.apply (job.walker level) invocation slot run = .error (.failure failure) run') :
    job.Blames budget items run.pass failure := by
  cases hhandler : invocation.callee.handler with
  | context handler =>
    simp only [apply, hhandler, onContext] at herror
    split at herror
    · cases herror
    · next cause context hcause =>
      cases herror
      exact ⟨level, _, run, _, h, rfl, .context hhandler hcause⟩
  | toolkit handler =>
    simp only [apply, hhandler, onContext] at herror
    split at herror
    · cases herror
    · next cause context hcause =>
      cases herror
      exact ⟨level, _, run, _, h, rfl, .toolkit hhandler hcause⟩
  | helper handler =>
    simp only [apply, hhandler] at herror
    have hstop := error_bind_pure herror
    simp only [onWorkspace] at hstop
    split at hstop
    · cases hstop
    · next cause changes hcause =>
      cases hstop
      exact ⟨level, _, run, _, h, rfl, .helper hhandler hcause⟩
  | task start =>
    simp only [apply, hhandler] at herror
    cases level with
    | zero => cases herror
    | succ level => exact (below level rfl).stage (h.start hhandler) herror

mutual

theorem blames_visit (below : ∀ lower, level = lower + 1 → job.Traces budget items lower) :
    ∀ {n run failure run'}, job.Begins budget items level (.tree n) run →
      job.visit (job.walker level) n run = .error (.failure failure) run' →
      job.Blames budget items run.pass failure
  | .mk form origin parts, run, failure, run', h, herror => by
    rw [visit] at herror
    rcases error_bind herror with hidentify | ⟨found, mid, hidentify, rest⟩
    · obtain ⟨-, module, name, hfailure, hmissing⟩ := error_identify hidentify
      cases hfailure
      exact ⟨level, _, run, run, h, rfl, .unknown hmissing⟩
    obtain ⟨rfl, ⟨rfl, -⟩ | ⟨callee, module, name, rfl, hres, -⟩⟩ := ok_identify hidentify
    · exact blames_visitParts below (h.parts hidentify) (error_bind_pure rest)
    obtain rfl : form = .call := Node.form_of_resolveCall hres
    rcases error_bind rest with hbegin | ⟨invocation, mid, hbegin, rest⟩
    · cases hbegin
    obtain ⟨-, hpass⟩ := h.after_begin hidentify hbegin
    split at rest
    · next hcooperative =>
      rw [← hpass]
      exact blames_handler below (h.cooperative hidentify hbegin hcooperative) rest
    · next heager =>
      have heager : callee.handler.isCooperative = false := by
        simpa using heager
      rcases error_bind rest with hparts | ⟨parts', mid', hparts, happly⟩
      · rw [← hpass]
        exact blames_visitCall below (h.arguments hidentify hbegin heager) hparts
      · obtain ⟨-, hpass'⟩ := h.after_arguments hidentify hbegin hparts
        rw [← hpass']
        exact blames_handler below (h.eager hidentify hbegin heager hparts) happly

theorem blames_visitParts (below : ∀ lower, level = lower + 1 → job.Traces budget items lower) :
    ∀ {parts run failure run'}, job.Begins budget items level (.trees parts) run →
      job.visitParts (job.walker level) parts run = .error (.failure failure) run' →
      job.Blames budget items run.pass failure
  | [], run, failure, run', h, herror => by
    rw [visitParts] at herror
    exact (error_pure herror).elim
  | n :: rest, run, failure, run', h, herror => by
    rw [visitParts] at herror
    rcases error_bind herror with hvisit | ⟨n', mid, hvisit, herror⟩
    · exact blames_visit below h.first hvisit
    obtain ⟨-, hpass⟩ := h.after_visit hvisit
    rw [← hpass]
    exact blames_visitParts below (h.rest hvisit) (error_bind_pure herror)

/-- The arguments of a macro call are visited like other trees. -/
theorem blames_visitCall (below : ∀ lower, level = lower + 1 → job.Traces budget items lower) :
    ∀ {parts origin run failure run'},
      job.Begins budget items level (.trees (Node.mk .call origin parts).args) run →
      job.visitCall (job.walker level) parts run = .error (.failure failure) run' →
      job.Blames budget items run.pass failure
  | [callee, .mk form o args, typeArgs], origin, run, failure, run', h, herror => by
    rw [visitCall] at herror
    have hgroup := error_bind_pure herror
    cases form with
    | group =>
      rw [visitGroup, visitArguments_eq] at hgroup
      exact blames_visitParts below h (error_bind_pure (error_bind_pure hgroup))
    | _ => exact (error_pure hgroup).elim
  | [], _, _, _, _, _, herror | [_], _, _, _, _, _, herror | [_, _], _, _, _, _, _, herror
  | _ :: _ :: _ :: _ :: _, _, _, _, _, _, herror => (error_pure herror).elim

end

theorem blames_expandItem (below : ∀ lower, level = lower + 1 → job.Traces budget items lower)
    {index : Nat} (h : job.Begins budget items level (.item index) run)
    (herror : job.expandItem (job.walker level) index run = .error (.failure failure) run') :
    job.Blames budget items run.pass failure := by
  rcases error_expandItem herror with ⟨-, hhalt, -⟩ | ⟨item, body, mid, hdetach, hend⟩
  · cases hhalt
  obtain ⟨hvisit, -⟩ | ⟨hhalt, -⟩ := hend
  · have hblames := blames_visit below (h.detached hdetach) hvisit
    exact hblames
  · cases hhalt

theorem blames_refused {invocation : Invocation} {slot : Node} {request : Request} {reason : String}
    (h : job.Begins budget items level (.request invocation slot request) run)
    (hrefused : ∀ w, job.fulfil w invocation slot request run =
      job.invalidRequest invocation reason run)
    (herror : job.fulfil (job.walker level) invocation slot request run =
      .error (.failure failure) run') : job.Blames budget items run.pass failure := by
  cases (hrefused _).symm.trans herror
  exact ⟨level, _, run, run, h, rfl, .refused hrefused⟩

/-- Arguments cannot be asked for once the call is gone. -/
theorem fulfil_of_replaced {invocation : Invocation} {slot : Node} {request : Request}
    (hargs : request.place? = none) (hcall : slot.isCall = false) (w : Walker) :
    job.fulfil w invocation slot request run = job.invalidRequest invocation
      "arguments were requested after the call site was replaced" run := by
  cases request with
  | argument _ | arguments =>
    simp only [fulfil, hcall]
    rfl
  | item _ | «import» _ => cases hargs

theorem blames_argument (below : ∀ lower, level = lower + 1 → job.Traces budget items lower)
    {invocation : Invocation} {slot : Node} {index : Nat}
    (h : job.Begins budget items level (.request invocation slot (.argument index)) run)
    (herror : job.fulfil (job.walker level) invocation slot (.argument index) run =
      .error (.failure failure) run') : job.Blames budget items run.pass failure := by
  cases hcall : slot.isCall with
  | false => exact blames_refused h (fulfil_of_replaced rfl hcall) herror
  | true =>
    rcases harg : slot.args[index]? with _ | arg
    · have hrefused : ∀ w, job.fulfil w invocation slot (.argument index) run =
          job.invalidRequest invocation ("argument " ++ toString index
            ++ " was requested, but the call has " ++ toString slot.args.length) run := by
        intro w
        simp only [fulfil, hcall, harg]
        rfl
      exact blames_refused h hrefused herror
    simp only [fulfil, hcall, harg, Bool.not_true, Bool.false_eq_true, if_false] at herror
    have hvisit := error_bind_pure (error_bind_pure herror)
    cases level with
    | zero => cases hvisit
    | succ level => exact (below level rfl).tree (h.argument harg) hvisit

theorem blames_arguments (below : ∀ lower, level = lower + 1 → job.Traces budget items lower)
    {invocation : Invocation} {slot : Node}
    (h : job.Begins budget items level (.request invocation slot .arguments) run)
    (herror : job.fulfil (job.walker level) invocation slot .arguments run =
      .error (.failure failure) run') : job.Blames budget items run.pass failure := by
  cases hcall : slot.isCall with
  | false => exact blames_refused h (fulfil_of_replaced rfl hcall) herror
  | true =>
    simp only [fulfil, hcall, Bool.not_true, Bool.false_eq_true, if_false] at herror
    have hargs := error_bind_pure herror
    cases level with
    | zero =>
      cases hslot : slot.args with
      | nil | cons _ _ =>
        rw [hslot] at hargs
        cases hargs
    | succ level =>
      rw [expandArguments_eq] at hargs
      exact (below level rfl).trees h.allArguments (error_bind_pure hargs)

theorem blames_request (below : ∀ lower, level = lower + 1 → job.Traces budget items lower)
    {invocation : Invocation} {slot : Node} {request : Request}
    (h : job.Begins budget items level (.request invocation slot request) run)
    (herror : job.fulfil (job.walker level) invocation slot request run =
      .error (.failure failure) run') : job.Blames budget items run.pass failure := by
  cases request with
  | argument index => exact blames_argument below h herror
  | arguments => exact blames_arguments below h herror
  | item index =>
    rcases error_bind herror with hcheck | ⟨_, mid, hcheck, rest⟩
    · obtain ⟨rfl, reason, hfailure⟩ := error_checkItem hcheck
      rw [hfailure] at hcheck
      exact blames_refused h (fun w => bind_of_error hcheck) herror
    · obtain ⟨rfl, -⟩ := ok_checkItem hcheck
      have hitem := error_bind_pure rest
      cases level with
      | zero => cases hitem
      | succ level => exact (below level rfl).item (h.requested hcheck) hitem
  | «import» index =>
    rcases error_bind herror with hcheck | ⟨_, mid, hcheck, rest⟩
    · obtain ⟨rfl, reason, hfailure⟩ := error_checkItem hcheck
      rw [hfailure] at hcheck
      exact blames_refused h (fun w => bind_of_error hcheck) herror
    · obtain ⟨rfl, hlt, -⟩ := ok_checkItem hcheck
      have hcollect := error_bind_pure rest
      obtain ⟨rfl, reason, hfailure⟩ := error_collectImport hlt hcollect
      rw [hfailure] at hcollect
      exact blames_refused h (fun w => (bind_of_ok hcheck).trans (bind_of_error hcollect)) herror

theorem blames_requests (below : ∀ lower, level = lower + 1 → job.Traces budget items lower)
    {invocation : Invocation} {slot : Node} {requests : List Request}
    (h : job.Begins budget items level (.requests invocation slot requests) run)
    (herror : job.fulfilAll (job.walker level) invocation slot requests run =
      .error (.failure failure) run') : job.Blames budget items run.pass failure := by
  induction requests generalizing slot run with
  | nil => exact (error_pure herror).elim
  | cons request rest ih =>
    rcases error_bind herror with hrequest | ⟨slot', mid, hserved, herror⟩
    · exact blames_request below h.request hrequest
    · obtain ⟨-, hpass⟩ := h.after_request hserved
      rw [← hpass]
      exact ih (h.served hserved) herror

theorem blames_stage (below : ∀ lower, level = lower + 1 → job.Traces budget items lower)
    {invocation : Invocation} {task : Task} {slot : Node}
    (h : job.Begins budget items level (.stage invocation task slot) run)
    (herror : job.drive (job.walker level) invocation task slot run =
      .error (.failure failure) run') : job.Blames budget items run.pass failure := by
  rcases error_bind herror with hstage | ⟨⟨answer, slot'⟩, mid, hstage, rest⟩
  · unfold onWorkspace at hstage
    split at hstage
    · cases hstage
    · next cause changes hcause =>
      cases hstage
      exact ⟨level, _, run, _, h, rfl, .stage hcause⟩
  cases answer with
  | none => exact (error_pure rest).elim
  | some asked =>
    obtain ⟨requests, next⟩ := asked
    rcases error_bind rest with hrequests | ⟨slot'', mid', hserved, hnext⟩
    · obtain ⟨-, hpass⟩ := h.after_stage hstage
      rw [← hpass]
      exact blames_requests below (h.asked hstage) hrequests
    cases level with
    | zero => cases hnext
    | succ level =>
      obtain ⟨-, hpass⟩ := h.after_requests hstage hserved
      rw [← hpass]
      exact (below level rfl).stage (h.resumed hstage hserved) hnext

theorem traces (job : Job) (budget : Nat) (items : List Node) (level : Nat) :
    job.Traces budget items level := by
  -- What a task asks for, and its next stage, have the level below.
  induction level with
  | zero =>
    have below : ∀ lower, 0 = lower + 1 → job.Traces budget items lower :=
      fun lower h => absurd h (Nat.succ_ne_zero lower).symm
    exact ⟨blames_visit below, blames_visitParts below, blames_expandItem below, blames_stage below⟩
  | succ level ih =>
    have below : ∀ lower, level + 1 = lower + 1 → job.Traces budget items lower :=
      fun lower h => Nat.succ.inj h ▸ ih
    exact ⟨blames_visit below, blames_visitParts below, blames_expandItem below, blames_stage below⟩

/-- A pass that fails does so for something that fails in it. -/
theorem blames_walk {index : Nat} (h : job.Begins budget items level (.walk index) run)
    (herror : job.expandFrom level index run = .error (.failure failure) run') :
    job.Blames budget items run.pass failure := by
  induction level generalizing index run with
  | zero =>
    obtain ⟨hhalt, -⟩ := error_expandFrom_zero herror
    cases hhalt
  | succ level ih =>
    obtain ⟨hlt, hitem | ⟨next, mid, hitem, rest⟩⟩ := error_expandFrom_succ herror
    · have hblames := (job.traces budget items level).item (h.takeUp hlt) hitem
      exact hblames
    · obtain ⟨-, hpass⟩ := h.after_item hlt hitem
      rw [← hpass]
      exact ih (h.goOn hlt hitem) rest

/-! ## The file -/

/-- A failure in a pass that is made is what becomes of the file, and nothing happens behind it. -/
theorem Fails.ends (h : job.Fails work run failure run')
    (hbegins : job.Begins budget items level work run)
    (hmade : job.MakesPass budget items run.pass) :
    ∃ last, job.expand budget items = some (.error (.failure failure) last) ∧
      last.history = run'.history := by
  have hleads := hbegins.leads hmade
  rw [h.ending level] at hleads
  have hending := hleads.halts (by simp)
  rw [expand_of_bindings hmade.1]
  cases hres : job.settle budget job.options.effectiveMaxPasses 0 (job.start items) with
  | ok passes last =>
    rw [ending_of_ok hres] at hending
    cases hending
  | error halt last =>
    rw [ending_of_error hres] at hending
    obtain ⟨hhalt, hhistory⟩ := Ending.mk.inj hending
    cases hhalt
    exact ⟨last, rfl, hhistory⟩

/-- Whatever is begun in a pass that is made is over when the expansion ends. -/
theorem Begins.over (h : job.Begins budget items level work run)
    (hmade : job.MakesPass budget items run.pass) {halt : Halt} {last : Run}
    (hexpand : job.expand budget items = some (.error halt last)) :
    (job.ending level work run).history <+: last.history := by
  have hleads := h.leads hmade
  rw [expand_of_bindings hmade.1] at hexpand
  rw [ending_of_error (Option.some.inj hexpand)] at hleads
  exact hleads.history

/-- Between parsing and the limit on passes, files fail for what fails in a pass that is made. -/
theorem blames_expand {last : Run}
    (hexpand : job.expand budget items = some (.error (.failure failure) last)) :
    failure = .passLimit job.source.path job.options.effectiveMaxPasses ∨
      ∃ number, job.MakesPass budget items number ∧ job.Blames budget items number failure := by
  have hbindings := bindings_of_expand hexpand
  rcases rounds_cases job budget items job.options.effectiveMaxPasses with
    ⟨n, first, a, mid, hlt, h, hpass, hquiet⟩ | ⟨n, first, halt, mid, hlt, h, hpass⟩ | ⟨first, h⟩
  · cases (h.expand_of_quiet hbindings hlt hpass hquiet).symm.trans hexpand
  · cases (h.expand_of_error hbindings hlt hpass).symm.trans hexpand
    have hblames := blames_walk (.pass h.reaches) hpass
    exact .inr ⟨_, ⟨hbindings, n, first, congrArg (· + 1) h.pass_eq, hlt, h⟩, hblames⟩
  · cases (h.expand_of_limit hbindings).symm.trans hexpand
    exact .inl rfl

end Job

/-- A piece of work that runs a handler or a stage of a task. Of a task nothing but its stages is run. -/
def Work.Runs : Work → Prop
  | .handler invocation _ => invocation.callee.handler.isCooperative = false
  | .stage _ _ _ => True
  | _ => False

/-- The macro call that a piece of work is done for, if it is done for one. -/
def Work.invocation? : Work → Option Invocation
  | .handler invocation _ | .stage invocation _ _ | .requests invocation _ _
  | .request invocation _ _ => some invocation
  | _ => none

namespace Job

variable {job : Job} {budget level : Nat} {items : List Node} {work : Work} {run : Run}

theorem length_history_onContext (job : Job) (invocation : Invocation) (slot : Node)
    (handler : Call → EStateM String Context Unit) (run : Run) :
    run.history.length < ((job.onContext invocation slot handler).ending run).history.length := by
  unfold Expansion.ending onContext
  cases handler (job.facts invocation slot) (run.context slot) with
  | ok a context => simp [Run.withContext]
  | error cause context => simp [Run.withContext]

theorem length_history_onWorkspace {α : Type} (job : Job) (invocation : Invocation) (slot : Node)
    (handler : Call → List Binding → Workspace → EStateM.Result String Changes α) (run : Run) :
    run.history.length < ((job.onWorkspace invocation slot handler).ending run).history.length := by
  unfold Expansion.ending onWorkspace
  cases handler (job.facts invocation slot) run.bindings (run.workspace slot) with
  | ok a changes =>
    simp only [Run.withChanges, Run.withContext, List.length_append, List.length_singleton]
    exact Nat.lt_succ_of_le (Run.Extends.edits run changes.edits).history.length_le
  | error cause changes =>
    simp only [Run.withChanges, Run.withContext, List.length_append, List.length_singleton]
    exact Nat.lt_succ_of_le (Run.Extends.edits run changes.edits).history.length_le

/-- Whatever runs adds to what happened, whether it fails or not. -/
theorem Begins.runs (h : job.Begins budget items level work run) (hruns : work.Runs) :
    run.history.length < (job.ending level work run).history.length := by
  cases work with
  | handler invocation slot =>
    have hruns : invocation.callee.handler.isCooperative = false := hruns
    cases hhandler : invocation.callee.handler with
    | context handler =>
      simp only [Job.ending, apply, hhandler]
      exact length_history_onContext job invocation slot handler run
    | toolkit handler =>
      simp only [Job.ending, apply, hhandler]
      exact length_history_onContext job invocation slot (fun call => handler call job.source.dialect) run
    | helper handler =>
      simp only [Job.ending, apply, hhandler]
      have hlength := length_history_onWorkspace job invocation slot
        (fun call => handler call job.source.dialect) run
      exact ending_bind_pure.symm ▸ hlength
    | task start =>
      rw [hhandler] at hruns
      cases hruns
  | stage invocation task slot =>
    have hlength := length_history_onWorkspace job invocation slot task.resume run
    exact Nat.lt_of_lt_of_le hlength (leads_stage h).history.length_le
  | _ => exact hruns.elim

/-- A macro call that was begun in a pass, with the macro that its callee names and with its place. -/
def Calls (job : Job) (budget : Nat) (items : List Node) (number : Nat) (invocation : Invocation) :
    Prop :=
  ∃ level call run name, job.Begins budget items level (.tree call) run ∧ run.pass = number ∧
    resolveCall run.bindings call = some (.known invocation.module name) ∧
    job.registry.find? invocation.module name = some invocation.callee ∧
    invocation.site = job.source.site? call

theorem calls_of_begin {mid run' : Run} {n : Node} {callee : Macro} {module : String}
    {invocation : Invocation} (h : job.Begins budget items level (.tree n) run)
    (hcall : job.identify n run = .ok (some (callee, module)) mid)
    (hbegin : job.begin callee module n mid = .ok invocation run') :
    job.Calls budget items run.pass invocation := by
  obtain ⟨rfl, ⟨hnone, -⟩ | ⟨_, _, name, hsome, hres, hfind⟩⟩ := ok_identify hcall
  · cases hnone
  · cases hsome
    cases hbegin
    exact ⟨level, n, run, name, h, rfl, hres, hfind, rfl⟩

/-- What is done for a macro call is done under its name and for its place. -/
theorem Begins.calls (h : job.Begins budget items level work run) :
    ∀ invocation, work.invocation? = some invocation →
      job.Calls budget items run.pass invocation := by
  induction h with
  | eager h hcall hbegin _ hparts _ =>
    intro _ heq
    cases heq
    obtain ⟨-, hpass⟩ := h.after_arguments hcall hbegin hparts
    rw [hpass]
    exact calls_of_begin h hcall hbegin
  | cooperative h hcall hbegin _ _ =>
    intro _ heq
    cases heq
    obtain ⟨-, hpass⟩ := h.after_begin hcall hbegin
    rw [hpass]
    exact calls_of_begin h hcall hbegin
  | start _ _ ih => exact ih
  | asked h hstage ih =>
    obtain ⟨-, hpass⟩ := h.after_stage hstage
    rw [hpass]
    exact ih
  | resumed h hstage hserved ih =>
    obtain ⟨-, hpass⟩ := h.after_requests hstage hserved
    rw [hpass]
    exact ih
  | request _ ih => exact ih
  | served h hserved ih =>
    obtain ⟨-, hpass⟩ := h.after_request hserved
    rw [hpass]
    exact ih
  | _ =>
    intro _ heq
    cases heq

/-- The first failure in a file is the last thing that happens in it, and is told unchanged: no handler
and no stage of a task is run that did not start before. Files fail for nothing else than that, their
text, and the limit on passes. What is done for a macro call is done
under its own name and for its own place, so that is what the failure of a handler tells. -/
theorem first_failure_ends_file {module : Code.Module} (hparse : job.source.parse = .ok module) :
    (∀ {level work run failure run'}, job.Begins budget module.items level work run →
      job.MakesPass budget module.items run.pass → job.Fails work run failure run' →
      (job.run budget).outcome = .error (.failure failure) ∧
      (∃ last, job.expand budget module.items = some (.error (.failure failure) last) ∧
        last.history = run'.history) ∧
      ∀ {level work run}, job.Begins budget module.items level work run →
        job.MakesPass budget module.items run.pass →
        (job.ending level work run).history <+: run'.history ∧
        (work.Runs → run.history.length < run'.history.length)) ∧
    (∀ failure, (job.run budget).outcome = .error (.failure failure) →
      failure = .passLimit job.source.path job.options.effectiveMaxPasses ∨
      ∃ number, job.MakesPass budget module.items number ∧
        job.Blames budget module.items number failure) ∧
    ∀ {level work run invocation}, job.Begins budget module.items level work run →
      work.invocation? = some invocation → job.Calls budget module.items run.pass invocation := by
  refine ⟨fun h hmade hfails => ?_, fun failure houtcome => ?_, fun h heq => h.calls _ heq⟩
  · obtain ⟨last, hexpand, hhistory⟩ := hfails.ends h hmade
    refine ⟨?_, ⟨last, hexpand, hhistory⟩, fun h' hmade' => ?_⟩
    · exact outcome_eq_error.mpr (.inr ⟨module, last, hparse, hexpand⟩)
    · rw [← hhistory]
      have hover := h'.over hmade' hexpand
      exact ⟨hover, fun hruns => Nat.lt_of_lt_of_le (h'.runs hruns) hover.length_le⟩
  · rcases outcome_eq_error.mp houtcome with ⟨_, hfailure, -⟩ | ⟨module', last, hparse', hexpand⟩
    · cases hparse.symm.trans hfailure
    · cases hparse.symm.trans hparse'
      exact blames_expand hexpand

/-- A file with a task that asks for the item behind it, in which a macro fails inside the argument of
another one. -/
def wrapping : Job where
  registry := ⟨[("m", ⟨.macros
    [⟨"ask", .task fun _ => .stage fun _ _ workspace =>
      .ok (some ([.item 1], .stage fun _ _ workspace =>
        .ok none { workspace.toContext.remove with })) { workspace with }, "", compatVersion⟩,
    ⟨"wrap", .context fun _ => modify Context.remove, "", compatVersion⟩,
    ⟨"fail", .context fun _ context => .error "no" context, "", compatVersion⟩], []⟩)]⟩
  source := Source.ofPath "a.js"
    "import \x7b ask, wrap, fail \x7d from 'm';\nask();\nwrap(1, fail());\n"

/-- What `fail` said, at its own place. -/
def wrapped : Failure := .handler "fail" "a.js" (some ⟨"a.js", ⟨3, 9⟩, 52, 6⟩) "no"

theorem wrapping_first_failure : ∃ module level work run run' last,
    wrapping.source.parse = .ok module ∧
    (wrapping.run 4).outcome = .error (.failure wrapped) ∧
    wrapping.Begins 4 module.items level work run ∧ wrapping.MakesPass 4 module.items run.pass ∧
    wrapping.Fails work run wrapped run' ∧
    wrapping.expand 4 module.items = some (.error (.failure wrapped) last) ∧
    last.history = run'.history ∧
    ∀ {level work run}, wrapping.Begins 4 module.items level work run →
      wrapping.MakesPass 4 module.items run.pass →
      (wrapping.ending level work run).history <+: run'.history ∧
      (work.Runs → run.history.length < run'.history.length) := by
  have houtcome : (wrapping.run 4).outcome = .error (.failure wrapped) := by
    decide +kernel
  have hparses : wrapping.source.parse.isOk = true := by
    decide +kernel
  cases hparse : wrapping.source.parse with
  | error failure =>
    rw [hparse] at hparses
    cases hparses
  | ok module =>
    obtain ⟨hfirst, hsource, -⟩ := first_failure_ends_file hparse
    rcases hsource wrapped houtcome with hlimit | ⟨_, hmade, level, work, run, run', h, rfl, hfails⟩
    · cases hlimit
    · obtain ⟨-, ⟨last, hexpand, hhistory⟩, hover⟩ := hfirst h hmade hfails
      exact ⟨module, level, work, run, run', last, rfl, houtcome, h, hmade, hfails, hexpand, hhistory,
        hover⟩

end Job

end CallExpander
