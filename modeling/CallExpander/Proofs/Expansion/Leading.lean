import CallExpander.Proofs.Expansion.Pending
import CallExpander.Proofs.Expansion.Rounds

/-!
# A halt ends everything around it

A halt travels outwards through arguments, items, requests and stages, back to the pass and the
expansion. On its way nothing else is begun and it is not changed: how a piece of work ends leads to
how everything ends that it is a part of.
-/

namespace CallExpander

open Expansion

/-- How a part of an expansion ends: why it halts, if it does, and what happened until then. -/
structure Ending where
  halt? : Option Halt
  history : List Event

/-- How a part of an expansion ends that starts in a state. -/
def Expansion.ending {α : Type} (x : Expansion α) (run : Run) : Ending :=
  match x run with
  | .ok _ run => ⟨none, run.history⟩
  | .error halt run => ⟨some halt, run.history⟩

/-- How a part ends leads to how another one does: all that happened in it happened in the other, and
where it halts the other does, with nothing in between. -/
structure Ending.Leads (inner outer : Ending) : Prop where
  halts : inner.halt? ≠ none → outer = inner
  history : inner.history <+: outer.history

theorem Ending.Leads.refl (e : Ending) : e.Leads e := ⟨fun _ => rfl, List.prefix_rfl⟩

theorem Ending.Leads.trans {a b c : Ending} (hab : a.Leads b) (hbc : b.Leads c) : a.Leads c where
  halts h := by
    obtain rfl := hab.halts h
    exact hbc.halts h
  history := hab.history.trans hbc.history

/-- A part that ends well leads to everything that goes on from there. -/
theorem Ending.Leads.ofHistory {history : List Event} {e : Ending} (h : history <+: e.history) :
    Ending.Leads ⟨none, history⟩ e :=
  ⟨fun h => absurd rfl h, h⟩

namespace Expansion

variable {α β : Type} {x : Expansion α} {f : α → Expansion β} {run mid : Run}

theorem ending_of_ok {a : α} (h : x run = .ok a mid) : x.ending run = ⟨none, mid.history⟩ := by
  unfold ending
  rw [h]

theorem ending_of_error {halt : Halt} (h : x run = .error halt mid) :
    x.ending run = ⟨some halt, mid.history⟩ := by
  unfold ending
  rw [h]

theorem history_ending (x : Expansion α) (run : Run) :
    (x.ending run).history = (final (x run)).history := by
  unfold ending
  cases x run <;> rfl

theorem ending_bind_of_ok {a : α} (h : x run = .ok a mid) :
    (x >>= f).ending run = (f a).ending mid := by
  unfold ending
  rw [bind_of_ok h]

theorem ending_bind_of_error {halt : Halt} (h : x run = .error halt mid) :
    (x >>= f).ending run = x.ending run := by
  rw [ending_of_error h, ending_of_error (bind_of_error h)]

/-- The first part of a sequence leads to the whole if the second only adds to what happened. -/
theorem leads_bind (h : ∀ {a mid}, x run = .ok a mid → mid.history <+: ((f a).ending mid).history) :
    (x.ending run).Leads ((x >>= f).ending run) := by
  cases hres : x run with
  | ok a mid =>
    rw [ending_of_ok hres, ending_bind_of_ok hres]
    exact .ofHistory (h hres)
  | error halt mid =>
    rw [ending_bind_of_error hres]
    exact .refl _

theorem ending_bind_pure {g : α → β} :
    (x >>= fun a => pure (g a)).ending run = x.ending run := by
  cases hres : x run with
  | ok a mid =>
    rw [ending_bind_of_ok hres, ending_of_ok hres]
    rfl
  | error halt mid => exact ending_bind_of_error hres

end Expansion

/-- What happened before a part is not forgotten in it. -/
theorem Discipline.Keeps.history {job : Job} {α : Type} {pre : Run → Prop} {x : Expansion α}
    {post : Run → α → Prop} (h : (growth job).Keeps pre x post) {run : Run} (hs : run.body.Sound)
    (hpre : pre run) : run.history <+: (x.ending run).history := by
  cases hres : x run with
  | ok a mid =>
    obtain ⟨-, hr, -⟩ := h.ok hs hpre hres
    rw [ending_of_ok hres]
    exact hr.1.history
  | error halt mid =>
    obtain ⟨-, -, hext, -⟩ := h.error hs hpre hres
    rw [ending_of_error hres]
    exact hext.history

/-- What ends well does so in the same pass, with sound places. -/
theorem Discipline.Keeps.same {job : Job} {α : Type} {pre : Run → Prop} {x : Expansion α}
    {post : Run → α → Prop} (h : (growth job).Keeps pre x post) {run run' : Run} {a : α}
    (hs : run.body.Sound) (hpre : pre run) (hx : x run = .ok a run') :
    run'.body.Sound ∧ run'.pass = run.pass := by
  obtain ⟨hs', ⟨hext, -⟩, -⟩ := h.ok hs hpre hx
  exact ⟨hs', hext.pass⟩

theorem Node.isCall_of_args {n : Node} (h : n.args ≠ []) : n.isCall = true := by
  unfold Node.args at h
  split at h
  · rfl
  · exact absurd rfl h

namespace Job

variable {job : Job} {budget level : Nat} {items : List Node} {work : Work} {run : Run}

/-- How a piece of work ends. Edits never halt. -/
def ending (job : Job) (level : Nat) : Work → Run → Ending
  | .walk index, run => (job.expandFrom level index).ending run
  | .item index, run => (job.expandItem (job.walker level) index).ending run
  | .tree n, run => (job.visit (job.walker level) n).ending run
  | .trees parts, run => (job.visitParts (job.walker level) parts).ending run
  | .handler invocation slot, run => (job.apply (job.walker level) invocation slot).ending run
  | .stage invocation task slot, run => (job.drive (job.walker level) invocation task slot).ending run
  | .edits edits, run => ⟨none, (edits.foldl Run.edit run).history⟩
  | .requests invocation slot requests, run =>
    (job.fulfilAll (job.walker level) invocation slot requests).ending run
  | .request invocation slot request, run =>
    (job.fulfil (job.walker level) invocation slot request).ending run

/-- Arguments are visited like other parts, but for what comes out. -/
theorem visitArguments_eq (w : Walker) (args : List Node) :
    job.visitArguments w args = job.visitParts w args >>= fun args => pure (args.map Node.sweep) := by
  induction args with
  | nil =>
    rw [visitArguments, visitParts]
    simp
  | cons n rest ih =>
    rw [visitArguments, visitParts, ih]
    simp

theorem expandArguments_eq (job : Job) (level : Nat) (args : List Node) :
    expandArguments (job.walker (level + 1)) args =
      job.visitParts (job.walker level) args >>= fun args => pure (args.map Node.sweep) := by
  have hexpression : ∀ n, (job.walker (level + 1)).expression n = job.visit (job.walker level) n :=
    fun _ => rfl
  induction args with
  | nil =>
    rw [expandArguments, visitParts]
    simp
  | cons n rest ih =>
    rw [expandArguments, visitParts, ih]
    simp [expandArgument, hexpression]

/-- Visiting the arguments of a call leads to visiting the call. -/
theorem leads_visitCall (w : Walker) (origin : Origin) (parts : List Node) (run : Run) :
    ((job.visitParts w (Node.mk .call origin parts).args).ending run).Leads
      ((job.visitCall w parts).ending run) := by
  unfold Node.args
  split
  · next callee o args typeArgs heq =>
    cases heq
    have hgroup : job.visitGroup w (.mk .group o args) =
        job.visitArguments w args >>= fun args => pure (.mk .group o args) := rfl
    rw [visitCall, hgroup, visitArguments_eq, ending_bind_pure, ending_bind_pure, ending_bind_pure]
    exact .refl _
  · next hother =>
    rw [visitParts]
    refine .ofHistory ?_
    rcases parts with _ | ⟨callee, _ | ⟨⟨form, o, args⟩, _ | ⟨typeArgs, _ | _⟩⟩⟩ <;>
      try exact List.prefix_rfl
    rw [visitCall, ending_bind_pure]
    cases form <;> first | exact List.prefix_rfl | exact (hother _ _ _ _ _ rfl).elim

/-- Visiting an item leads to expanding it: the item has a place to go back to. -/
theorem leads_expandItem {index : Nat} {item : Node} {body : Body} (hs : run.body.Sound)
    (hfree : index ∉ run.body.pending) (hdetach : run.body.detach? index = some (item, body)) :
    ((job.visit (job.walker level) item).ending { run with body }).Leads
      ((job.expandItem (job.walker level) index).ending run) := by
  obtain ⟨hlt, -⟩ := Body.size_detach? hdetach
  cases hres : job.expandItem (job.walker level) index run with
  | ok next run' =>
    obtain ⟨_, _, item', mid, hdetach', hvisit, hend⟩ := ok_expandItem hres
    cases hdetach.symm.trans hdetach'
    rw [ending_of_ok hvisit, ending_of_ok hres]
    refine .ofHistory ?_
    obtain ⟨-, body', -, rfl⟩ | ⟨-, place, body', -, -, rfl⟩ := hend
    · exact List.prefix_append _ _
    · exact List.prefix_rfl
  | error halt run' =>
    -- No item is lost, so what halts is the visit and not the way back.
    have hkeeps := Discipline.keeps_expandItem ((growth job).serves_walker level) index
    obtain ⟨hhalt, -⟩ := hkeeps.error hs ⟨hlt, hfree⟩ hres
    rcases error_expandItem hres with ⟨-, rfl, -⟩ | ⟨_, _, mid, hdetach', hend⟩
    · exact absurd rfl hhalt
    cases hdetach.symm.trans hdetach'
    obtain ⟨hvisit, place, body', -, rfl⟩ | ⟨rfl, -⟩ := hend
    · rw [ending_of_error hvisit, ending_of_error hres]
      exact .refl _
    · exact absurd rfl hhalt

theorem grows_onWorkspace {α : Type} (job : Job) (invocation : Invocation) (slot : Node)
    (handler : Call → List Binding → Workspace → EStateM.Result String Changes α) :
    (growth job).Keeps (fun _ => True) (job.onWorkspace invocation slot handler) fun _ _ => True :=
  (Discipline.keeps_onWorkspace invocation slot fun _ _ _ _ _ => trivial).mono (fun _ _ => trivial)
    fun _ _ _ => trivial

theorem grows_task (job : Job) (level : Nat) (invocation : Invocation) (task : Task) (slot : Node) :
    (growth job).Keeps (fun _ => True) ((job.walker level).task invocation task slot) fun _ _ => True :=
  ((growth job).serves_walker level).task invocation task slot
    (Task.makes_of_forall (fun _ => trivial) task)

/-- The edits of a handler lead to what it does, whether it fails or not. -/
theorem leads_onWorkspace {α : Type} (job : Job) (invocation : Invocation) (slot : Node)
    (handler : Call → List Binding → Workspace → EStateM.Result String Changes α) (run : Run) :
    Ending.Leads ⟨none, ((Changes.ofResult (handler (job.facts invocation slot) run.bindings
        (run.workspace slot))).edits.foldl Run.edit run).history⟩
      ((job.onWorkspace invocation slot handler).ending run) := by
  refine .ofHistory ?_
  unfold Expansion.ending onWorkspace
  cases handler (job.facts invocation slot) run.bindings (run.workspace slot) with
  | ok a changes => exact List.prefix_append _ _
  | error cause changes => exact List.prefix_append _ _

/-! ## What is done behind a begun piece of work -/

theorem Begins.growing (h : job.Begins budget items level work run) :
    run.body.Sound ∧ (growth job).Ready work run :=
  (growth job).begins (fun h => h.fresh.idle.sound)
    (fun _ hi => ⟨hi, .ofEvents rfl rfl rfl (List.prefix_append _ _), rfl⟩) h

namespace Begins

variable {mid run' : Run} {index next : Nat} {n n' : Node} {parts parts' : List Node}
  {origin : Origin} {callee : Macro} {module : String} {invocation : Invocation} {task : Task}
  {slot slot' slot'' : Node} {answer : Option (List Request × Task)} {request : Request} {requests : List Request}

theorem after_item (h : job.Begins budget items (level + 1) (.walk index) run)
    (hlt : index < run.body.size)
    (hitem : job.expandItem (job.walker level) index (run.record (.walked index)) = .ok next run') :
    run'.Idle ∧ run'.pass = run.pass := by
  have hidle : (run.record (.walked index)).Idle := h.growing.2
  have hkeeps := Discipline.keeps_expandItem ((growth job).serves_walker level) index
  obtain ⟨-, hpass⟩ := hkeeps.same hidle.sound ⟨hlt, hidle.free index⟩ hitem
  exact ⟨idle_expandItem hidle hitem, hpass⟩

theorem after_visit (h : job.Begins budget items level (.trees (n :: parts)) run)
    (hvisit : job.visit (job.walker level) n run = .ok n' run') :
    run'.body.Sound ∧ run'.pass = run.pass :=
  (Discipline.keeps_visit ((growth job).serves_walker level) n).same h.growing.1 trivial hvisit

/-- Counting a macro call touches no items. -/
theorem after_begin (h : job.Begins budget items level (.tree n) run)
    (hcall : job.identify n run = .ok (some (callee, module)) mid)
    (hbegin : job.begin callee module n mid = .ok invocation run') :
    run'.body.Sound ∧ run'.pass = run.pass := by
  obtain ⟨rfl, -⟩ := ok_identify hcall
  cases hbegin
  exact ⟨h.growing.1, rfl⟩

theorem after_arguments {mid' : Run} (h : job.Begins budget items level (.tree n) run)
    (hcall : job.identify n run = .ok (some (callee, module)) mid)
    (hbegin : job.begin callee module n mid = .ok invocation mid')
    (hparts : job.visitCall (job.walker level) parts mid' = .ok parts' run') :
    run'.body.Sound ∧ run'.pass = run.pass := by
  obtain ⟨hs, hpass⟩ := h.after_begin hcall hbegin
  have hkeeps := Discipline.keeps_visitCall ((growth job).serves_walker level) parts
  obtain ⟨hs', hpass'⟩ := hkeeps.same hs (fun _ _ => trivial) hparts
  exact ⟨hs', hpass'.trans hpass⟩

theorem after_stage (h : job.Begins budget items level (.stage invocation task slot) run)
    (hstage : job.onWorkspace invocation slot task.resume run = .ok (answer, slot') run') :
    run'.body.Sound ∧ run'.pass = run.pass :=
  (job.grows_onWorkspace invocation slot task.resume).same h.growing.1 trivial hstage

theorem after_requests (h : job.Begins budget items level (.stage invocation task slot) run)
    (hstage : job.onWorkspace invocation slot task.resume run = .ok (answer, slot') mid)
    (hserved : job.fulfilAll (job.walker level) invocation slot' requests mid = .ok slot'' run') :
    run'.body.Sound ∧ run'.pass = run.pass := by
  obtain ⟨hs, hpass⟩ := h.after_stage hstage
  have hkeeps := Discipline.keeps_fulfilAll ((growth job).serves_walker level) invocation requests slot'
  obtain ⟨hs', hpass'⟩ := hkeeps.same hs trivial hserved
  exact ⟨hs', hpass'.trans hpass⟩

theorem after_request
    (h : job.Begins budget items level (.requests invocation slot (request :: requests)) run)
    (hserved : job.fulfil (job.walker level) invocation slot request run = .ok slot' run') :
    run'.body.Sound ∧ run'.pass = run.pass :=
  (Discipline.keeps_fulfil ((growth job).serves_walker level) invocation slot request).same
    h.growing.1 trivial hserved

end Begins

/-! ## Every piece of work leads to its pass -/

section Parts

variable {run' : Run} {index : Nat} {n : Node} {callee : Macro} {module : String}
  {invocation : Invocation} {task : Task} {slot arg : Node} {request : Request}
  {requests : List Request}

theorem ending_walk (hlt : index < run.body.size) :
    job.ending (level + 1) (.walk index) run =
      (job.expandItem (job.walker level) index >>= job.expandFrom level).ending
        (run.record (.walked index)) := by
  simp only [Job.ending, Expansion.ending, expandFrom_of_lt hlt]

/-- Behind the count of its application, a macro call is its arguments and its handler. -/
theorem ending_call {mid : Run} {form : Form} {origin : Origin} {parts : List Node}
    (hcall : job.identify (.mk form origin parts) run = .ok (some (callee, module)) mid)
    (hbegin : job.begin callee module (.mk form origin parts) mid = .ok invocation run') :
    job.ending level (.tree (.mk form origin parts)) run =
      (if callee.handler.isCooperative then
        job.apply (job.walker level) invocation (.mk form origin parts)
      else job.visitCall (job.walker level) parts >>= fun parts =>
        job.apply (job.walker level) invocation (.mk form origin parts)).ending run' := by
  simp only [Job.ending]
  rw [visit, ending_bind_of_ok hcall]
  exact ending_bind_of_ok hbegin

theorem ending_eager {mid : Run} {form : Form} {origin : Origin} {parts : List Node}
    (hcall : job.identify (.mk form origin parts) run = .ok (some (callee, module)) mid)
    (hbegin : job.begin callee module (.mk form origin parts) mid = .ok invocation run')
    (heager : callee.handler.isCooperative = false) :
    job.ending level (.tree (.mk form origin parts)) run =
      (job.visitCall (job.walker level) parts >>= fun parts =>
        job.apply (job.walker level) invocation (.mk form origin parts)).ending run' := by
  rw [ending_call hcall hbegin, heager]
  rfl

/-- The arguments of a macro call lead to it. -/
theorem leads_arguments {mid : Run} (h : job.Begins budget items level (.tree n) run)
    (hcall : job.identify n run = .ok (some (callee, module)) mid)
    (hbegin : job.begin callee module n mid = .ok invocation run')
    (heager : callee.handler.isCooperative = false) :
    (job.ending level (.trees n.args) run').Leads (job.ending level (.tree n) run) := by
  obtain ⟨-, ⟨hnone, -⟩ | ⟨_, _, name, -, hres, -⟩⟩ := ok_identify hcall
  · cases hnone
  have hform := Node.form_of_resolveCall hres
  obtain ⟨form, origin, parts⟩ := n
  subst hform
  rw [ending_eager hcall hbegin heager]
  refine (leads_visitCall _ origin parts run').trans (leads_bind fun hparts => ?_)
  obtain ⟨hs, -⟩ := h.after_arguments hcall hbegin hparts
  have hmakes := growth_makes job invocation.callee.handler
  exact (Discipline.keeps_apply ((growth job).serves_walker level) hmakes _).history hs trivial

theorem leads_trees {rest : List Node} (h : job.Begins budget items level (.trees (n :: rest)) run) :
    (job.ending level (.tree n) run).Leads (job.ending level (.trees (n :: rest)) run) := by
  simp only [Job.ending]
  rw [visitParts]
  refine leads_bind fun hvisit => ?_
  obtain ⟨hs, -⟩ := h.after_visit hvisit
  rw [ending_bind_pure]
  exact (Discipline.keeps_visitParts ((growth job).serves_walker level) rest).history hs
    fun _ _ => trivial

/-- A stage leads to all that its task still does. -/
theorem leads_stage (h : job.Begins budget items level (.stage invocation task slot) run) :
    ((job.onWorkspace invocation slot task.resume).ending run).Leads
      (job.ending level (.stage invocation task slot) run) := by
  simp only [Job.ending, drive]
  refine leads_bind fun {answer mid} hstage => ?_
  obtain ⟨hs, -⟩ := h.after_stage hstage
  obtain ⟨_ | ⟨requests, next⟩, slot'⟩ := answer
  · exact List.prefix_rfl
  · have hfulfil := Discipline.keeps_fulfilAll ((growth job).serves_walker level) invocation requests
      slot'
    exact (hfulfil.bind fun _ => job.grows_task level invocation next _).history hs trivial

/-- So does what a stage asked for. -/
theorem leads_asked {next : Task} {slot' : Node}
    (h : job.Begins budget items level (.stage invocation task slot) run)
    (hstage : job.onWorkspace invocation slot task.resume run =
      .ok (some (requests, next), slot') run') :
    (job.ending level (.requests invocation slot' requests) run').Leads
      (job.ending level (.stage invocation task slot) run) := by
  simp only [Job.ending, drive]
  rw [ending_bind_of_ok hstage]
  refine leads_bind fun {slot'' mid} hserved => ?_
  obtain ⟨hs, -⟩ := h.after_requests hstage hserved
  exact (job.grows_task level invocation next slot'').history hs trivial

theorem leads_request
    (h : job.Begins budget items level (.requests invocation slot (request :: requests)) run) :
    (job.ending level (.request invocation slot request) run).Leads
      (job.ending level (.requests invocation slot (request :: requests)) run) := by
  refine leads_bind fun {slot' mid} hserved => ?_
  obtain ⟨hs, -⟩ := h.after_request hserved
  exact (Discipline.keeps_fulfilAll ((growth job).serves_walker level) invocation requests
    slot').history hs trivial

theorem ending_argument (harg : slot.args[index]? = some arg) :
    job.ending (level + 1) (.request invocation slot (.argument index)) run =
      job.ending level (.tree arg) run := by
  have hmem : arg ∈ slot.args := List.mem_of_getElem? harg
  have hcall : slot.isCall = true := Node.isCall_of_args (List.ne_nil_of_mem hmem)
  simp only [Job.ending, fulfil, hcall, harg, Bool.not_true, Bool.false_eq_true, if_false,
    expandArgument, bind_assoc, pure_bind]
  exact ending_bind_pure

/-- Where there are no arguments, asking for all of them may be refused. -/
theorem leads_allArguments
    (h : job.Begins budget items (level + 1) (.request invocation slot .arguments) run) :
    (job.ending level (.trees slot.args) run).Leads
      (job.ending (level + 1) (.request invocation slot .arguments) run) := by
  cases hcall : slot.isCall with
  | true =>
    simp only [Job.ending, fulfil, hcall, Bool.not_true, Bool.false_eq_true, if_false,
      expandArguments_eq, bind_assoc, pure_bind]
    exact ending_bind_pure.symm ▸ .refl _
  | false =>
    have hnone : slot.args = [] := by
      by_contra hsome
      rw [Node.isCall_of_args hsome] at hcall
      cases hcall
    simp only [Job.ending, hnone, visitParts]
    have hfulfil := Discipline.keeps_fulfil ((growth job).serves_walker (level + 1)) invocation slot
      .arguments
    exact .ofHistory (hfulfil.history h.growing.1 trivial)

end Parts

/-- A piece of work is a part of a pass over a program that is reached, and how it ends leads to how
the pass does. -/
def PartOf (job : Job) (budget : Nat) (items : List Node) (level : Nat) (work : Work) (run : Run) :
    Prop :=
  ∃ first, job.Reaches budget items first ∧ run.pass = first.pass + 1 ∧
    (job.ending level work run).Leads ((job.runPass budget).ending first)

theorem PartOf.step {run' : Run} {level' : Nat} {work' : Work}
    (h : job.PartOf budget items level work run) (hpass : run'.pass = run.pass)
    (hleads : (job.ending level' work' run').Leads (job.ending level work run)) :
    job.PartOf budget items level' work' run' := by
  obtain ⟨first, hfirst, hnumber, hpart⟩ := h
  exact ⟨first, hfirst, hpass.trans hnumber, hleads.trans hpart⟩

/-- A piece of work that is all that is left of another one. -/
theorem PartOf.tail {run' : Run} {level' : Nat} {work' : Work}
    (h : job.PartOf budget items level work run) (hpass : run'.pass = run.pass)
    (hending : job.ending level work run = job.ending level' work' run') :
    job.PartOf budget items level' work' run' :=
  h.step hpass (hending ▸ .refl _)

/-- Whatever is begun is a part of a pass. -/
theorem Begins.partOf (h : job.Begins budget items level work run) :
    job.PartOf budget items level work run := by
  induction h with
  | @pass run h => exact ⟨run, h, rfl, .refl _⟩
  | @takeUp level index run h hlt ih =>
    refine ih.step rfl ?_
    rw [ending_walk hlt]
    refine leads_bind fun hitem => ?_
    obtain ⟨hidle, -⟩ := h.after_item hlt hitem
    exact (job.grows_expandFrom level _).history hidle.sound hidle
  | goOn h hlt hitem ih =>
    obtain ⟨-, hpass⟩ := h.after_item hlt hitem
    refine ih.tail hpass ?_
    rw [ending_walk hlt, ending_bind_of_ok hitem]
    rfl
  | detached h hdetach ih =>
    obtain ⟨hs, -, hfree⟩ := h.growing
    exact ih.step rfl (leads_expandItem hs hfree hdetach)
  | parts h hordinary ih =>
    obtain ⟨rfl, -⟩ := ok_identify hordinary
    refine ih.tail rfl ?_
    simp only [Job.ending]
    rw [visit, ending_bind_of_ok hordinary]
    exact ending_bind_pure
  | first h ih => exact ih.step rfl (leads_trees h)
  | rest h hvisit ih =>
    obtain ⟨-, hpass⟩ := h.after_visit hvisit
    refine ih.tail hpass ?_
    simp only [Job.ending]
    rw [visitParts, ending_bind_of_ok hvisit, ending_bind_pure]
  | arguments h hcall hbegin heager ih =>
    obtain ⟨-, hpass⟩ := h.after_begin hcall hbegin
    exact ih.step hpass (leads_arguments h hcall hbegin heager)
  | eager h hcall hbegin heager hparts ih =>
    obtain ⟨-, hpass⟩ := h.after_arguments hcall hbegin hparts
    refine ih.tail hpass ?_
    rw [ending_eager hcall hbegin heager, ending_bind_of_ok hparts]
    rfl
  | @cooperative level run mid run' n callee module invocation h hcall hbegin hcooperative ih =>
    obtain ⟨-, hpass⟩ := h.after_begin hcall hbegin
    obtain ⟨form, origin, parts⟩ := n
    refine ih.tail hpass ?_
    rw [ending_call hcall hbegin, if_pos hcooperative]
    rfl
  | @helperEdits level run invocation slot helper h hhandler ih =>
    refine ih.step rfl ?_
    simp only [Job.ending, apply, hhandler]
    have hedits := job.leads_onWorkspace invocation slot (fun call => helper call job.source.dialect)
    exact ending_bind_pure.symm ▸ hedits run
  | start h hhandler ih =>
    refine ih.tail rfl ?_
    simp only [Job.ending, apply, hhandler]
    rfl
  | stageEdits h ih => exact ih.step rfl ((leads_onWorkspace ..).trans (leads_stage h))
  | edited h ih => exact ih.tail rfl rfl
  | asked h hstage ih =>
    obtain ⟨-, hpass⟩ := h.after_stage hstage
    exact ih.step hpass (leads_asked h hstage)
  | resumed h hstage hserved ih =>
    obtain ⟨-, hpass⟩ := h.after_requests hstage hserved
    refine ih.tail hpass ?_
    simp only [Job.ending, drive]
    rw [ending_bind_of_ok hstage]
    exact ending_bind_of_ok hserved
  | request h ih => exact ih.step rfl (leads_request h)
  | served h hserved ih =>
    obtain ⟨-, hpass⟩ := h.after_request hserved
    refine ih.tail hpass ?_
    simp only [Job.ending]
    rw [fulfilAll, ending_bind_of_ok hserved]
  | argument h harg ih => exact ih.tail rfl (ending_argument harg)
  | allArguments h ih => exact ih.step rfl (leads_allArguments h)
  | requested h hcheck ih =>
    obtain ⟨rfl, -⟩ := ok_checkItem hcheck
    refine ih.tail rfl ?_
    simp only [Job.ending]
    rw [fulfil, ending_bind_of_ok hcheck]
    exact ending_bind_pure

/-- How a pass that is made ends leads to how the expansion does. -/
theorem Rounds.leads {n : Nat} {first : Run} (h : job.Rounds budget items n first)
    (hlt : n < job.options.effectiveMaxPasses) : ((job.runPass budget).ending first).Leads
      ((job.settle budget job.options.effectiveMaxPasses 0).ending (job.start items)) := by
  obtain ⟨remaining, hremaining⟩ := Nat.exists_eq_add_of_lt hlt
  have hlimit : job.options.effectiveMaxPasses = remaining + 1 + n := by omega
  have heq : (job.settle budget job.options.effectiveMaxPasses 0).ending (job.start items) =
      (job.settle budget (remaining + 1) n).ending first := by
    unfold Expansion.ending
    rw [hlimit, h.settle_eq]
  rw [heq, settle_succ]
  refine leads_bind fun {a mid} hpass => ?_
  have hmid : (job.refresh mid).Idle := idle_refresh h.reaches.fresh.idle hpass
  have hrefresh : mid.history <+: (job.refresh mid).history := List.prefix_append _ _
  obtain ⟨-, hsettle⟩ := @kept_settle job _ hmid budget remaining (n + 1)
  rw [history_ending, afterPass]
  split
  · exact hrefresh
  · exact hrefresh.trans hsettle

/-- How a piece of work of a pass that is made ends leads to how the expansion does. -/
theorem Begins.leads (h : job.Begins budget items level work run)
    (hmade : job.MakesPass budget items run.pass) : (job.ending level work run).Leads
      ((job.settle budget job.options.effectiveMaxPasses 0).ending (job.start items)) := by
  obtain ⟨-, n, first, hnumber, hlt, hrounds⟩ := hmade
  -- Passes with the same number are the same pass.
  obtain ⟨first', hfirst', hnext, hpart⟩ := h.partOf
  have hpass : first'.pass = first.pass := by
    rw [hnumber, ← hrounds.pass_eq] at hnext
    exact (Nat.succ.inj hnext).symm
  obtain rfl := hfirst'.eq_of_pass hrounds.reaches hpass
  exact hpart.trans (hrounds.leads hlt)

end Job

end CallExpander
