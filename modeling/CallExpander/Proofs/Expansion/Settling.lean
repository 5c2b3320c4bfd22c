import CallExpander.Proofs.Expansion.Budget

/-!
# Parts of an expansion that end

Whether a part of an expansion ends is a question about all budgets at once: from some budget on it
has to end in the same way, and not for lack of budget. Trees are finite and tasks have finitely many
stages, so between two applications of macros everything ends; that expanding a tree ends is
therefore shown for states in which so many macros were applied before from the same for states in
which there was one more.
-/

namespace CallExpander

namespace Expansion

variable {α β : Type} {R : Run → Prop} {run : Run}

/-- The state that a part leaves, whether it ends well or halts. -/
def final : EStateM.Result Halt Run α → Run
  | .ok _ run | .error _ run => run

/-- From some budget on a part ends in the same way, and not for lack of budget. -/
def Ends (x : Nat → Expansion α) (run : Run) : Prop :=
  ∃ budget result, (∀ run', result ≠ .error .outOfBudget run') ∧
    ∀ more, budget ≤ more → x more run = result

/-- From some budget on a part leaves a state within a limit. -/
def Within (R : Run → Prop) (x : Nat → Expansion α) (run : Run) : Prop :=
  ∃ budget, ∀ more, budget ≤ more → R (final (x more run))

theorem Ends.const {y : Expansion α} (h : ∀ run', y run ≠ .error .outOfBudget run') :
    Ends (fun _ => y) run :=
  ⟨0, y run, h, fun _ _ => rfl⟩

theorem Ends.shift {x y : Nat → Expansion α} {run' : Run}
    (hs : ∀ budget, x (budget + 1) run = y budget run') (h : Ends y run') : Ends x run := by
  obtain ⟨budget, result, hresult, heq⟩ := h
  refine ⟨budget + 1, result, hresult, fun more hmore => ?_⟩
  obtain ⟨less, rfl⟩ := Nat.exists_eq_add_of_le' (Nat.le_trans (Nat.le_add_left 1 budget) hmore)
  rw [hs]
  exact heq less (Nat.le_of_succ_le_succ hmore)

theorem Ends.congr {x y : Nat → Expansion α} {run' : Run}
    (hs : ∀ budget, x budget run = y budget run') (h : Ends y run') : Ends x run := by
  obtain ⟨budget, result, hresult, heq⟩ := h
  exact ⟨budget, result, hresult, fun more hmore => (hs more).trans (heq more hmore)⟩

theorem Within.congr {x y : Nat → Expansion α} {run' : Run}
    (hs : ∀ budget, x budget run = y budget run') (h : Within R x run) : Within R y run' := by
  obtain ⟨budget, hR⟩ := h
  exact ⟨budget, fun more hmore => hs more ▸ hR more hmore⟩

theorem Within.shift {x y : Nat → Expansion α} {run' : Run}
    (hs : ∀ budget, x (budget + 1) run = y budget run') (h : Within R x run) : Within R y run' := by
  obtain ⟨budget, hR⟩ := h
  refine ⟨budget, fun more hmore => ?_⟩
  have hfinal := hR (more + 1) (Nat.le_succ_of_le hmore)
  rw [hs] at hfinal
  exact hfinal

/-- A sequence ends if its first part does and then its second, each as far as the limit for the
whole is one for it. -/
theorem Ends.bind {x : Nat → Expansion α} {f : Nat → α → Expansion β}
    (hback : ∀ {budget a mid}, x budget run = .ok a mid → R (final (f budget a mid)) → R mid)
    (hx : Within R x run → Ends x run)
    (hf : ∀ {budget a mid}, x budget run = .ok a mid →
      Within R (fun budget => f budget a) mid → Ends (fun budget => f budget a) mid)
    (h : Within R (fun budget => x budget >>= f budget) run) :
    Ends (fun budget => x budget >>= f budget) run := by
  obtain ⟨limit, hlimit⟩ := h
  change ∀ more, limit ≤ more → R (final ((x more >>= f more) run)) at hlimit
  have hfirst : Within R x run := by
    refine ⟨limit, fun more hmore => ?_⟩
    have hfinal := hlimit more hmore
    cases hres : x more run with
    | ok a mid =>
      rw [bind_of_ok hres] at hfinal
      exact hback hres hfinal
    | error halt mid =>
      rw [bind_of_error hres] at hfinal
      exact hfinal
  obtain ⟨budget, result, hresult, heq⟩ := hx hfirst
  cases result with
  | error halt mid =>
    refine ⟨budget, .error halt mid, fun run' h => ?_, fun more hmore => bind_of_error (heq more hmore)⟩
    cases h
    exact hresult mid rfl
  | ok a mid =>
    have hsecond : Within R (fun budget => f budget a) mid := by
      refine ⟨max limit budget, fun more hmore => ?_⟩
      have hfinal := hlimit more (Nat.le_trans (Nat.le_max_left _ _) hmore)
      rw [bind_of_ok (heq more (Nat.le_trans (Nat.le_max_right _ _) hmore))] at hfinal
      exact hfinal
    obtain ⟨budget', result', hresult', heq'⟩ := hf (heq budget (Nat.le_refl _)) hsecond
    refine ⟨max budget budget', result', hresult', fun more hmore => ?_⟩
    change (x more >>= f more) run = result'
    rw [bind_of_ok (heq more (Nat.le_trans (Nat.le_max_left _ _) hmore))]
    exact heq' more (Nat.le_trans (Nat.le_max_right _ _) hmore)

end Expansion

open Expansion

/-- A limit for the macros that are applied holds of a state if it holds of a later one. -/
def Backward (R : Run → Prop) : Prop := ∀ ⦃a b : Run⦄, a.trace <+: b.trace → R b → R a

/-- A part that, started in a sound state that meets a condition, ends as far as its end is within a
limit. -/
structure Settles (job : Job) (R : Run → Prop) {α : Type} (pre : Run → Prop) (x : Nat → Expansion α)
    (post : Run → α → Prop) : Prop where
  grows : ∀ budget, (growth job).Keeps pre (x budget) post
  ends : ∀ {run}, run.body.Sound → pre run → Within R x run → Ends x run

namespace Settles

variable {job : Job} {R : Run → Prop} {α β : Type} {pre : Run → Prop} {x : Nat → Expansion α}
  {post : Run → α → Prop}

/-- A part that does not depend on the budget. -/
theorem const {y : Expansion α} (hy : (growth job).Keeps pre y post)
    (hout : ∀ {run run'}, pre run → y run ≠ .error .outOfBudget run') :
    Settles job R pre (fun _ => y) post :=
  ⟨fun _ => hy, fun _ hp _ => Ends.const fun _ => hout hp⟩

theorem pure {a : α} (h : ∀ run, pre run → post run a) :
    Settles job R pre (fun _ => Pure.pure a) post :=
  const (.pure h) fun _ h => by cases h

theorem mono {pre' : Run → Prop} {post' : Run → α → Prop} (h : Settles job R pre x post)
    (hpre : ∀ run, pre' run → pre run) (hpost : ∀ run a, post run a → post' run a) :
    Settles job R pre' x post' :=
  ⟨fun budget => (h.grows budget).mono hpre hpost, fun hs hp => h.ends hs (hpre _ hp)⟩

theorem weaken {pre' : Run → Prop} (h : Settles job R pre x post)
    (hpre : ∀ run, pre' run → pre run) : Settles job R pre' x post :=
  h.mono hpre fun _ _ h => h

theorem fact {p : Prop} (h : p → Settles job R pre x post) :
    Settles job R (fun run => pre run ∧ p) x post :=
  ⟨fun budget => .fact fun hp => (h hp).grows budget, fun hs hp => (h hp.2).ends hs hp.1⟩

theorem bind {f : Nat → α → Expansion β} {after : Run → β → Prop} (hR : Backward R)
    (hx : Settles job R pre x post)
    (hf : ∀ a, Settles job R (post · a) (fun budget => f budget a) after) :
    Settles job R pre (fun budget => x budget >>= f budget) after where
  grows budget := (hx.grows budget).bind fun a => (hf a).grows budget
  ends {run} hs hp := by
    refine Ends.bind (fun {budget a mid} hres hfinal => ?_) (hx.ends hs hp) ?_
    · obtain ⟨hs', -, hpost⟩ := (hx.grows budget).ok hs hp hres
      cases hend : f budget a mid with
      | ok b run' =>
        obtain ⟨-, hr, -⟩ := ((hf a).grows budget).ok hs' hpost hend
        rw [hend] at hfinal
        exact hR hr.1.trace hfinal
      | error halt run' =>
        obtain ⟨-, -, hext, -⟩ := ((hf a).grows budget).error hs' hpost hend
        rw [hend] at hfinal
        exact hR hext.trace hfinal
    · intro budget a mid hres
      obtain ⟨hs', -, hpost⟩ := (hx.grows budget).ok hs hp hres
      exact (hf a).ends hs' hpost

/-- A part that has one step less for its work. -/
theorem shift {y : Nat → Expansion α} (hgrows : (growth job).Keeps pre (x 0) post)
    (hs : ∀ budget, x (budget + 1) = y budget) (h : Settles job R pre y post) :
    Settles job R pre x post where
  grows
    | 0 => hgrows
    | budget + 1 => hs budget ▸ h.grows budget
  ends {run} hs' hp hw := by
    have hrun := fun budget => congrFun (hs budget) run
    exact Ends.shift hrun (h.ends hs' hp (hw.shift hrun))

theorem frame {q : Run → Prop} (hq : ∀ {a b : Run}, a.Extends b → q a → q b)
    (h : Settles job R pre x post) :
    Settles job R (fun run => pre run ∧ q run) x (fun run a => post run a ∧ q run) :=
  ⟨fun budget => (h.grows budget).frame fun hr => hq hr.1, fun hs hp => h.ends hs hp.1⟩

end Settles

/-- So many macros were applied already. -/
def Late (low : Nat) (run : Run) : Prop := low ≤ run.trace.length

theorem Late.mono {low : Nat} {a b : Run} (h : a.Extends b) (hlow : Late low a) : Late low b :=
  Nat.le_trans hlow h.trace.length_le

/-- A part that does not depend on the budget, among others. -/
theorem Settles.plain {job : Job} {R : Run → Prop} {α : Type} {pre : Run → Prop} {y : Expansion α}
    {post : Run → α → Prop} (low : Nat) (hy : (growth job).Keeps pre y post)
    (hout : ∀ {run run'}, pre run → y run ≠ .error .outOfBudget run') :
    Settles job R (fun run => pre run ∧ Late low run) (fun _ => y)
      fun run a => post run a ∧ Late low run := by
  have hlate : ∀ {a b : Run}, (growth job).rel a b → Late low a → Late low b :=
    fun hr => Late.mono hr.1
  exact .const (hy.frame hlate) fun hp => hout hp.1

/-- The tasks of the registry end, if so many macros were applied before. -/
def TasksSettle (job : Job) (R : Run → Prop) (low : Nat) : Prop :=
  ∀ ⦃module name callee start⦄, job.registry.find? module name = some callee →
    callee.handler = .task start → ∀ invocation slot,
      Settles job R (Late low)
        (fun budget => (job.walker budget).task invocation (start job.source.dialect) slot)
        fun run _ => Late low run

namespace Job

variable {job : Job} {R : Run → Prop} {low : Nat}

theorem onContext_ne_out {invocation : Invocation} {slot : Node}
    {handler : Call → EStateM String Context Unit} {run run' : Run} :
    job.onContext invocation slot handler run ≠ .error .outOfBudget run' := by
  intro h
  unfold onContext at h
  split at h <;> cases h

theorem onWorkspace_ne_out {α : Type} {invocation : Invocation} {slot : Node}
    {handler : Call → List Binding → Workspace → EStateM.Result String Changes α} {run run' : Run} :
    job.onWorkspace invocation slot handler run ≠ .error .outOfBudget run' := by
  intro h
  unfold onWorkspace at h
  split at h <;> cases h

theorem settles_identify (n : Node) :
    Settles job R (Late low) (fun _ => job.identify n)
      fun run found => Late low run ∧ ∀ callee module, found = some (callee, module) →
        ∃ name, job.registry.find? module name = some callee := by
  have hout : ∀ {run run'}, job.identify n run ≠ .error .outOfBudget run' := by
    intro run run' h
    obtain ⟨-, _, _, hfailure, -⟩ := error_identify h
    cases hfailure
  have hplain := Settles.plain (R := R) low (Discipline.keeps_identify (d := growth job) n)
    fun _ => hout
  refine hplain.mono (fun _ h => ⟨trivial, h⟩) fun run found h => ⟨h.2, fun callee module hfound => ?_⟩
  obtain ⟨name, -, hfind⟩ := h.1.2 callee module hfound
  exact ⟨name, hfind⟩

/-- Applying a macro uses up one of the applications that there can be. -/
theorem settles_begin (callee : Macro) (module : String) (n : Node) :
    Settles job R (Late low) (fun _ => job.begin callee module n)
      fun run invocation => Late (low + 1) run ∧ invocation.callee = callee := by
  refine .const ⟨fun {run _ _} hi hlow h => ?_, fun _ _ h => by cases h⟩ fun _ h => by cases h
  cases h
  refine ⟨hi, ⟨.applying run _ n, rfl⟩, ?_, rfl⟩
  simp only [Late, Run.applying, List.length_append, List.length_singleton]
  exact Nat.succ_le_succ hlow

theorem settles_apply (hR : Backward R) (htasks : TasksSettle job R low) {invocation : Invocation}
    {module name : String} (hfind : job.registry.find? module name = some invocation.callee)
    (slot : Node) :
    Settles job R (Late low) (fun budget => job.apply (job.walker budget) invocation slot)
      fun run _ => Late low run := by
  unfold apply
  cases hhandler : invocation.callee.handler with
  | context run =>
    exact (Settles.plain low (Discipline.keeps_onContext invocation slot _)
      fun _ => onContext_ne_out).mono (fun _ h => ⟨trivial, h⟩) fun _ _ h => h.2
  | toolkit run =>
    exact (Settles.plain low (Discipline.keeps_onContext invocation slot _)
      fun _ => onContext_ne_out).mono (fun _ h => ⟨trivial, h⟩) fun _ _ h => h.2
  | helper run =>
    have hrun := Discipline.keeps_onWorkspace (d := growth job) invocation slot
      (fun call => growth_makes job (.helper run) call job.source.dialect)
    have hplain := Settles.plain (R := R) low hrun fun _ => onWorkspace_ne_out
    refine Settles.bind hR (hplain.weaken fun _ h => ⟨trivial, h⟩) fun answer => ?_
    exact .pure fun _ h => h.2
  | task start => exact htasks hfind hhandler invocation slot

mutual

/-- Expanding a tree ends if the tasks do that it leads to. -/
theorem settles_visit (hR : Backward R) (htasks : TasksSettle job R (low + 1)) : ∀ n : Node,
    Settles job R (Late low) (fun budget => job.visit (job.walker budget) n) fun run _ => Late low run
  | .mk form origin parts => by
    simp only [visit]
    refine Settles.bind hR (settles_identify (.mk form origin parts)) ?_
    rintro (_ | ⟨callee, module⟩)
    · refine Settles.bind hR ((settles_visitParts hR htasks parts).weaken fun _ h => h.1) fun _ => ?_
      exact .pure fun _ h => h
    refine .fact fun hknown => ?_
    obtain ⟨name, hfind⟩ := hknown callee module rfl
    -- From the application on, one less is left.
    refine Settles.bind hR (settles_begin callee module _) fun invocation => .fact fun hcallee => ?_
    rw [← hcallee] at hfind
    have happly := fun slot => (settles_apply hR htasks hfind slot).mono (fun _ h => h)
      fun run _ h => Nat.le_of_succ_le h
    cases callee.handler.isCooperative with
    | true => exact happly _
    | false =>
      have hargs := (settles_visitCall hR htasks parts).frame (q := Late (low + 1)) Late.mono
      refine Settles.bind hR (hargs.weaken fun run h => ⟨Nat.le_of_succ_le h, h⟩) fun parts' => ?_
      exact (happly _).weaken fun _ h => h.2

theorem settles_visitParts (hR : Backward R) (htasks : TasksSettle job R (low + 1)) :
    ∀ parts : List Node,
      Settles job R (Late low) (fun budget => job.visitParts (job.walker budget) parts)
        fun run _ => Late low run
  | [] => by
    simp only [visitParts]
    exact .pure fun _ h => h
  | n :: rest => by
    simp only [visitParts]
    refine Settles.bind hR (settles_visit hR htasks n) fun n' => ?_
    refine Settles.bind hR (settles_visitParts hR htasks rest) fun rest' => ?_
    exact .pure fun _ h => h

theorem settles_visitCall (hR : Backward R) (htasks : TasksSettle job R (low + 1)) :
    ∀ parts : List Node,
      Settles job R (Late low) (fun budget => job.visitCall (job.walker budget) parts)
        fun run _ => Late low run
  | [callee, group, typeArgs] => by
    simp only [visitCall]
    refine Settles.bind hR (settles_visitGroup hR htasks group) fun group' => ?_
    exact .pure fun _ h => h
  | [] | [_] | [_, _] | _ :: _ :: _ :: _ :: _ => .pure fun _ h => h

theorem settles_visitGroup (hR : Backward R) (htasks : TasksSettle job R (low + 1)) : ∀ n : Node,
    Settles job R (Late low) (fun budget => job.visitGroup (job.walker budget) n)
      fun run _ => Late low run
  | .mk form origin args => by
    unfold visitGroup
    split
    · next heq =>
      cases heq
      refine Settles.bind hR (settles_visitArguments hR htasks args) fun args' => ?_
      exact .pure fun _ h => h
    · exact .pure fun _ h => h

theorem settles_visitArguments (hR : Backward R) (htasks : TasksSettle job R (low + 1)) :
    ∀ args : List Node,
      Settles job R (Late low) (fun budget => job.visitArguments (job.walker budget) args)
        fun run _ => Late low run
  | [] => by
    simp only [visitArguments]
    exact .pure fun _ h => h
  | n :: rest => by
    simp only [visitArguments]
    refine Settles.bind hR (settles_visit hR htasks n) fun n' => ?_
    refine Settles.bind hR (settles_visitArguments hR htasks rest) fun rest' => ?_
    exact .pure fun _ h => h

end

/-- Expanding an item leaves the state that visiting it does, but for the items. -/
theorem final_expandItem {w : Walker} {run : Run} {index : Nat} {item : Node} {body : Body}
    (hdetach : run.body.detach? index = some (item, body)) :
    (final (job.visit w item { run with body })).Extends (final (job.expandItem w index run)) := by
  unfold expandItem
  simp only [hdetach]
  cases job.visit w item { run with body } with
  | error halt mid =>
    simp only [reattach]
    rcases mid.body.reattach? item with _ | ⟨place, body'⟩
    · exact .refl mid
    · exact .ofEvents rfl rfl rfl List.prefix_rfl
  | ok item' mid =>
    simp only
    split
    · rcases mid.body.discard? with _ | ⟨place, body'⟩
      · exact .refl mid
      · exact .dropping mid place body'
    · simp only [reattach]
      rcases mid.body.reattach? item'.sweep with _ | ⟨place, body'⟩
      · exact .refl mid
      · exact .ofEvents rfl rfl rfl List.prefix_rfl

/-- Expanding trees ends, if so many macros were applied before. -/
def VisitsSettle (job : Job) (R : Run → Prop) (low : Nat) : Prop := ∀ n : Node,
  Settles job R (Late low) (fun budget => job.visit (job.walker budget) n) fun run _ => Late low run

theorem settles_expandItem (hR : Backward R) (hvisits : VisitsSettle job R low) (index : Nat) :
    Settles job R (fun run => (index < run.body.size ∧ index ∉ run.body.pending) ∧ Late low run)
      (fun budget => job.expandItem (job.walker budget) index) fun run _ => Late low run where
  grows budget := by
    have hlate : ∀ {a b : Run}, (growth job).rel a b → Late low a → Late low b :=
      fun hr => Late.mono hr.1
    have hkeeps := Discipline.keeps_expandItem ((growth job).serves_walker budget) index
    exact (hkeeps.frame hlate).mono (fun _ h => h) fun _ _ h => h.2
  ends {run} hs hp hwithin := by
    obtain ⟨⟨hlt, hfree⟩, hlow⟩ := hp
    obtain ⟨item, body, hdetach⟩ : ∃ item body, run.body.detach? index = some (item, body) :=
      ⟨_, _, by rw [Body.detach?, List.getElem?_eq_getElem hlt]; rfl⟩
    have hvisit : Within R (fun budget => job.visit (job.walker budget) item) { run with body } := by
      obtain ⟨budget, hwithin⟩ := hwithin
      exact ⟨budget, fun more hmore => hR (final_expandItem hdetach).trace (hwithin more hmore)⟩
    have hsound : Body.Sound { run with body }.body := hs.detach hfree hdetach
    obtain ⟨budget, result, hresult, heq⟩ := (hvisits item).ends hsound hlow hvisit
    refine ⟨budget, job.expandItem (job.walker budget) index run, fun run' h => ?_, fun more hmore => ?_⟩
    · rcases error_expandItem h with ⟨hge, -, -⟩ | ⟨item', body', mid, hdetach', hend⟩
      · exact absurd hlt (Nat.not_lt.mpr hge)
      · rw [hdetach] at hdetach'
        cases hdetach'
        obtain ⟨hhalt, -⟩ | ⟨hhalt, -⟩ := hend
        · exact hresult mid ((heq budget (Nat.le_refl _)).symm.trans hhalt)
        · cases hhalt
    · have hsame : job.visit (job.walker more) item { run with body } =
          job.visit (job.walker budget) item { run with body } :=
        (heq more hmore).trans (heq budget (Nat.le_refl _)).symm
      unfold expandItem
      simp only [hdetach, hsame]

theorem settles_expandArgument (hR : Backward R) (hvisits : VisitsSettle job R low) (arg : Node) :
    Settles job R (Late low) (fun budget => expandArgument (job.walker budget) arg)
      fun run _ => Late low run := by
  have hexpression : Settles job R (Late low) (fun budget => (job.walker budget).expression arg)
      fun run _ => Late low run :=
    (hvisits arg).shift (.throw fun h => by cases h) fun _ => rfl
  exact hexpression.bind hR fun arg' => .pure fun _ h => h

theorem settles_item (hR : Backward R) (hvisits : VisitsSettle job R low) (index : Nat) :
    Settles job R (fun run => (index < run.body.size ∧ index ∉ run.body.pending) ∧ Late low run)
      (fun budget => (job.walker budget).item index) fun run _ => Late low run :=
  (settles_expandItem hR hvisits index).shift (.throw fun h => by cases h) fun _ => rfl

theorem settles_expandArguments (hR : Backward R) (hvisits : VisitsSettle job R low) :
    ∀ args : List Node,
      Settles job R (Late low) (fun budget => expandArguments (job.walker budget) args)
        fun run _ => Late low run
  | [] => .pure fun _ h => h
  | arg :: rest => by
    simp only [expandArguments]
    refine Settles.bind hR (settles_expandArgument hR hvisits arg) fun arg' => ?_
    refine Settles.bind hR (settles_expandArguments hR hvisits rest) fun rest' => ?_
    exact .pure fun _ h => h

theorem settles_checkItem (invocation : Invocation) (index : Nat) :
    Settles job R (Late low) (fun _ => job.checkItem invocation index)
      fun run _ => (index < run.body.size ∧ index ∉ run.body.pending) ∧ Late low run := by
  refine .const ((Discipline.keeps_checkItem (Late low) invocation index).mono (fun _ h => h)
    fun _ _ h => ⟨h.2, h.1⟩) fun _ h => ?_
  obtain ⟨-, reason, hfailure⟩ := error_checkItem h
  cases hfailure

theorem settles_invalidRequest {α : Type} {post : Run → α → Prop} (invocation : Invocation)
    (reason : String) :
    Settles job R (Late low) (fun _ => (job.invalidRequest invocation reason : Expansion α)) post :=
  .const (Discipline.keeps_invalidRequest invocation reason) fun _ h => by cases h

theorem settles_fulfil (hR : Backward R) (hvisits : VisitsSettle job R low) (invocation : Invocation)
    (slot : Node) : ∀ request,
      Settles job R (Late low) (fun budget => job.fulfil (job.walker budget) invocation slot request)
        fun run _ => Late low run
  | .argument index => by
    simp only [fulfil]
    split
    · exact settles_invalidRequest invocation _
    rcases slot.args[index]? with _ | arg
    · exact settles_invalidRequest invocation _
    refine Settles.bind hR (settles_expandArgument hR hvisits arg) fun arg' => ?_
    exact .pure fun _ h => h
  | .arguments => by
    simp only [fulfil]
    split
    · exact settles_invalidRequest invocation _
    refine Settles.bind hR (settles_expandArguments hR hvisits slot.args) fun args' => ?_
    exact .pure fun _ h => h
  | .item index => by
    refine Settles.bind hR (settles_checkItem invocation index) fun _ => ?_
    refine Settles.bind hR (settles_item hR hvisits index) fun _ => ?_
    exact .pure fun _ h => h
  | .import index => by
    refine Settles.bind hR (settles_checkItem invocation index) fun _ => ?_
    have himport := Settles.plain (R := R) low
      (Discipline.keeps_collectImport (d := growth job) invocation index) fun hp h => by
        obtain ⟨-, reason, hfailure⟩ := error_collectImport hp.1 h
        cases hfailure
    refine Settles.bind hR himport fun _ => ?_
    exact .pure fun _ h => h.2

theorem settles_fulfilAll (hR : Backward R) (hvisits : VisitsSettle job R low)
    (invocation : Invocation) : ∀ (requests : List Request) (slot : Node),
      Settles job R (Late low)
        (fun budget => job.fulfilAll (job.walker budget) invocation slot requests)
        fun run _ => Late low run
  | [], _ => .pure fun _ h => h
  | request :: rest, slot =>
    Settles.bind hR (settles_fulfil hR hvisits invocation slot request)
      (settles_fulfilAll hR hvisits invocation rest)

/-- A task ends if expanding trees does: it goes through its stages, each with its requests. -/
theorem settles_task (hR : Backward R) (hvisits : VisitsSettle job R low) (invocation : Invocation)
    (task : Task) (slot : Node) :
    Settles job R (Late low) (fun budget => (job.walker budget).task invocation task slot)
      fun run _ => Late low run := by
  -- The stages of a task are a tree: behind a stage comes one of the tasks that it can go on with.
  induction task using Task.induction generalizing slot with
  | stage task ih =>
    refine Settles.shift (.throw fun h => by cases h) (fun _ => rfl) ?_
    have hkeeps : (growth job).Keeps (fun _ => True) (job.onWorkspace invocation slot task.resume) _ :=
      Discipline.keeps_onWorkspace invocation slot fun _ _ _ _ _ => trivial
    have hplain := Settles.plain (R := R) low hkeeps fun _ => onWorkspace_ne_out
    refine Settles.bind hR (hplain.weaken fun _ h => ⟨trivial, h⟩) ?_
    rintro ⟨_ | ⟨requests, next⟩, slot'⟩
    · exact .pure fun _ h => h.2
    · refine (Settles.fact ?_).weaken fun run h => ⟨h.2, h.1.2⟩
      rintro ⟨call, bindings, workspace, changes, heq⟩
      refine Settles.bind hR (settles_fulfilAll hR hvisits invocation requests slot') fun slot'' => ?_
      exact ih call bindings workspace requests next changes heq slot''

end Job

end CallExpander
