import CallExpander.Proofs.Expansion.Dependency
import CallExpander.Proofs.Registry.Registration
import CallExpander.Proofs.Tree.Remarked

/-!
# Modules that no program imports

An expansion asks the registry for the macros of a module where it retires an import of the module, and for
one macro of it where a name that was bound from such an import is called. So whatever else is registered,
a file becomes the same as long as no program that the expansion works on imports it.
-/

namespace CallExpander

open Node

/-! ## Registries with more modules -/

namespace Registry

variable {registry larger : Registry} {module name : String}

/-- Another registry has the same modules, and may have more. -/
def GrowsTo (registry larger : Registry) : Prop :=
  ∀ module entry, registry.get? module = some entry → larger.get? module = some entry

/-- Another registry has a module in addition. -/
def Gains (registry larger : Registry) (module : String) : Prop :=
  registry.get? module = none ∧ larger.get? module ≠ none

theorem GrowsTo.macros?_eq (h : registry.GrowsTo larger) (hnot : ¬ registry.Gains larger module) :
    larger.macros? module = registry.macros? module := by
  unfold macros?
  cases hget : registry.get? module with
  | some entry => rw [h module entry hget]
  | none =>
    have hnone : larger.get? module = none := by
      by_contra hsome
      exact hnot ⟨hget, hsome⟩
    rw [hnone]

theorem GrowsTo.exports_eq (h : registry.GrowsTo larger) (hnot : ¬ registry.Gains larger module) :
    larger.exports module = registry.exports module := by
  unfold exports
  rw [h.macros?_eq hnot]

/-- A macro that was there is found again. -/
theorem GrowsTo.find?_eq (h : registry.GrowsTo larger) (hlists : registry.Lists module name) :
    larger.find? module name = registry.find? module name := by
  obtain ⟨macros, hmacros, -⟩ := hlists
  have hnot : ¬ registry.Gains larger module := by
    rintro ⟨hnone, -⟩
    simp [macros?, hnone] at hmacros
  unfold find?
  rw [h.macros?_eq hnot]

end Registry

variable {exports exports' : Exports} {keepImports : Bool} {item : Node} {items : List Node}
  {module : String}

theorem retireImport_congr (h : ∀ module, item.ImportsFrom module → exports' module = exports module) :
    retireImport exports' keepImports item = retireImport exports keepImports item := by
  unfold retireImport
  split
  · rfl
  · next decl hdecl =>
    by_cases htype : decl.typeOnly = true
    · simp only [htype, if_true]
    · rw [h decl.source.value ⟨decl, hdecl, by simpa using htype, rfl⟩]

theorem collectBindings_congr (h : ∀ module, DependsOn items module → exports' module = exports module) :
    collectBindings exports' keepImports items = collectBindings exports keepImports items := by
  induction items with
  | nil => rfl
  | cons first rest ih =>
    have hfirst : retireImport exports' keepImports first = retireImport exports keepImports first := by
      refine retireImport_congr ?_
      intro module himports
      exact h module ⟨first, List.mem_cons_self, himports⟩
    have hrest : collectBindings exports' keepImports rest = collectBindings exports keepImports rest := by
      refine ih ?_
      rintro module ⟨item, hitem, himports⟩
      exact h module ⟨item, List.mem_cons_of_mem _ hitem, himports⟩
    simp only [collectBindings, hfirst, hrest]

/-! ## The programs of an expansion -/

namespace Job

variable {job : Job} {larger : Registry} {budget level : Nat} {run run' : Run}

/-- The programs that an expansion works on: what it is given, what it has before it where it begins a
piece of work in a pass that is made, and what is left behind such a pass. -/
inductive Shows (job : Job) (budget : Nat) (items : List Node) : List Node → Prop
  | source : Shows job budget items items
  | moment {level : Nat} {work : Work} {run : Run} (h : job.Begins budget items level work run)
      (hmade : job.MakesPass budget items run.pass) : Shows job budget items run.body.items
  | behind {run run' : Run} {a : Unit} (h : job.Reaches budget items run)
      (hpass : job.runPass budget run = .ok a run') (hmade : job.MakesPass budget items run'.pass) :
      Shows job budget items run'.body.items

def withRegistry (job : Job) (registry : Registry) : Job := { job with registry }

/-- No program of an expansion imports from a module that another registry has in addition. -/
def Avoids (job : Job) (larger : Registry) (budget : Nat) (items : List Node) : Prop :=
  ∀ program, job.Shows budget items program →
    ∀ module, DependsOn program module → ¬ job.registry.Gains larger module

end Job

/-! ## What programs import -/

/-- An item that is no call and imports from certain modules only. -/
def Node.ImportsOnly (P : String → Prop) (item : Node) : Prop :=
  item.isCall = false ∧ ∀ module, item.ImportsFrom module → P module

variable {P : String → Prop}

theorem isCall_mark (env : Env) (n : Node) : (mark env n).1.isCall = n.isCall := by
  have hsame : Remarked n (mark env n).1 := Remarked.mark rfl env
  refine hsame.congr ?_
  rintro ⟨form, origin, parts⟩
  rw [freed_mk]
  cases form <;> rfl

theorem isCall_sweep {n : Node} (h : n.isCall = false) : n.sweep.isCall = false := by
  obtain ⟨form, origin, parts⟩ := n
  rcases sweep_cases form origin parts with
    ⟨-, hsweep, -⟩ | ⟨-, hsweep, -⟩ | ⟨-, -, -, hsweep, -⟩ | ⟨-, -, -, hsweep, -⟩ <;> rw [hsweep]
  · rfl
  · rfl
  · exact h
  · exact h

namespace Node.ImportsOnly

/-- An item of the same kind that makes the same import, if any. -/
theorem congr {other : Node} (h : item.ImportsOnly P) (hcall : other.isCall = false)
    (hdecl : item.importDecl? = other.importDecl?) : other.ImportsOnly P :=
  ⟨hcall, fun module himports => h.2 module (himports.congr hdecl)⟩

theorem emptyStatement : Node.emptyStatement.ImportsOnly P :=
  ⟨rfl, fun _ himports => (ImportsFrom.not_emptyStatement himports).elim⟩

theorem markAll (h : ∀ item ∈ items, item.ImportsOnly P) (env : Env) :
    ∀ item ∈ (Node.markAll env items).1, item.ImportsOnly P := by
  induction items generalizing env with
  | nil => intro item hitem; cases hitem
  | cons first rest ih =>
    obtain ⟨hfirst, hrest⟩ := List.forall_mem_cons.mp h
    have hmarked := hfirst.congr ((isCall_mark env first).trans hfirst.1) (importDecl?_mark env first).symm
    exact List.forall_mem_cons.mpr ⟨hmarked, ih hrest _⟩

/-- What remains of an import imports from nowhere else. -/
theorem remains {retired : Retired} {rest : Node} (h : item.ImportsOnly P)
    (hretire : retireImport exports keepImports item = some retired)
    (hrest : retired.remains = some rest) : rest.ImportsOnly P := by
  obtain ⟨decl, macros, hdecl, htype, -, -, hremains⟩ := retireImport_eq_some hretire
  rw [hremains] at hrest
  split at hrest <;> cases hrest
  refine ⟨rfl, ?_⟩
  rintro module ⟨other, hother, -, hmodule⟩
  cases hother
  exact h.2 module ⟨decl, hdecl, htype, hmodule⟩

theorem collect (h : ∀ item ∈ items, item.ImportsOnly P) :
    ∀ item ∈ resolve (collectBindings exports keepImports items).2, item.ImportsOnly P := by
  refine markAll (forall_collectBindings (fun item hitem _ => h item hitem) ?_) _
  intro item retired rest hitem hretire hrest
  exact (h item hitem).remains hretire hrest

end Node.ImportsOnly

/-- Every item of the program is no call and imports from certain modules only. -/
def Run.ImportsOnly (P : String → Prop) (run : Run) : Prop :=
  ∀ item ∈ run.body.items, item.ImportsOnly P

/-- Where handlers bring in nothing else, programs import from certain modules only. -/
def confining (job : Job) (P : String → Prop)
    (hbrings : job.registry.All (·.handler.Makes fun edit => ∀ tree ∈ edit.trees, tree.ImportsOnly P)) :
    Discipline job where
  inv run := run.ImportsOnly P
  rel _ _ := True
  fails _ _ _ := True
  tree _ _ := True
  allows edit := ∀ tree ∈ edit.trees, tree.ImportsOnly P
  handlers := hbrings.of_find?
  rel_refl _ := trivial
  rel_trans _ _ := trivial
  fails_refl _ _ := trivial
  fails_trans _ _ := trivial
  tree_mono _ _ := trivial
  tree_parts _ _ _ := trivial
  tree_mk _ _ := trivial
  tree_sweep _ := trivial
  applying hi _ _ _ _ := ⟨hi, trivial⟩
  withContext _ hi := ⟨hi, trivial, trivial⟩
  edit edit hedit hi := ⟨fun item hitem => (Body.mem_edit hitem).elim (hi item) (hedit item), trivial⟩
  retiring hi _ hitem hretire h := by
    refine ⟨?_, trivial⟩
    obtain ⟨rest, hrest, rfl⟩ | ⟨body, -, hremove, rfl⟩ := Run.retiring?_cases h
    · intro other hother
      rcases List.mem_or_eq_of_mem_set hother with hother | rfl
      · exact hi other hother
      · exact (hi _ (List.mem_of_getElem? hitem)).remains hretire hrest
    · obtain ⟨-, hitems, -, -⟩ := Body.remove?_places hremove
      intro other hother
      change other ∈ body.items at hother
      rw [hitems] at hother
      exact hi other (List.mem_of_mem_eraseIdx hother)
  detach hi _ hdetach := by
    obtain ⟨-, hitems, -⟩ := Body.detach?_places hdetach
    refine ⟨?_, trivial⟩
    intro other hother
    change other ∈ _ at hother
    rw [hitems] at hother
    rcases List.mem_or_eq_of_mem_set hother with hother | rfl
    · exact hi other hother
    · exact ImportsOnly.emptyStatement
  reattach {_ _ item _ _ _ _ _} hi _ hdetach _ hmid _ hform hreattach := by
    obtain ⟨hitem, -, -⟩ := Body.detach?_places hdetach
    obtain ⟨-, hitems, -⟩ := Body.reattach?_places hreattach
    have hout := hi item (List.mem_of_getElem? hitem)
    refine ⟨?_, trivial⟩
    intro other hother
    change other ∈ _ at hother
    rw [hitems] at hother
    rcases List.mem_or_eq_of_mem_set hother with hother | rfl
    · exact hmid other hother
    · rcases hform with hcall | ⟨n, hsame, rfl⟩
      · have hiscall : item.isCall = true := by simp only [Node.isCall, hcall]
        cases hiscall.symm.trans hout.1
      · have hcall : n.isCall = false := by
          simp only [Node.isCall, hsame]
          exact hout.1
        exact hout.congr (isCall_sweep hcall)
          ((importDecl?_congr hsame.symm).trans (importDecl?_sweep n).symm)
  discard {_ _ _ _ _ _ body'} _ _ _ _ hmid _ hdiscard := by
    obtain ⟨rest, -, hremove⟩ := Body.discard?_places hdiscard
    obtain ⟨-, hitems, -, -⟩ := Body.remove?_places hremove
    refine ⟨?_, trivial⟩
    intro other hother
    change other ∈ body'.items at hother
    rw [hitems] at hother
    exact hmid other (List.mem_of_mem_eraseIdx hother)
  restore _ _ _ _ _ := trivial
  lost _ _ _ _ _ := trivial

namespace Job

variable {job : Job} {larger : Registry} {budget level : Nat} {run run' : Run}

section Confined

variable (hbrings :
  job.registry.All (·.handler.Makes fun edit => ∀ tree ∈ edit.trees, tree.ImportsOnly P))

include hbrings

theorem runPass_importsOnly {a : Unit} (hidle : run.Idle) (hrun : run.ImportsOnly P)
    (hpass : job.runPass budget run = .ok a run') : run'.ImportsOnly P := by
  have hwalk := Discipline.keeps_expandFrom (d := confining job P hbrings)
    (fun _ hi => ⟨hi, trivial⟩) budget 0
  have hbegin : (beginPass run).Idle := hidle
  have hready : (beginPass run).ImportsOnly P := hrun
  obtain ⟨hrun', -, -⟩ := hwalk.ok hready hbegin hpass
  exact hrun'

theorem Reaches.importsOnly (hitems : ∀ item ∈ items, item.ImportsOnly P)
    (h : job.Reaches budget items run) : run.ImportsOnly P := by
  induction h with
  | start => exact ImportsOnly.collect hitems
  | pass h hpass ih => exact ImportsOnly.collect (runPass_importsOnly hbrings h.fresh.idle ih hpass)

/-- The programs of an expansion have imports of no modules but those that its items and the edits of
handlers import from. -/
theorem Shows.importsOnly (hitems : ∀ item ∈ items, item.ImportsOnly P) {program : List Node}
    (h : job.Shows budget items program) : ∀ item ∈ program, item.ImportsOnly P := by
  cases h with
  | source => exact hitems
  | moment h _ =>
    have hstart : ∀ {run}, job.Reaches budget items run → (beginPass run).ImportsOnly P := by
      intro run hreach
      have hrun : run.ImportsOnly P := hreach.importsOnly hbrings hitems
      exact hrun
    have hready := Discipline.begins (d := confining job P hbrings) hstart
      (fun _ hi => ⟨hi, trivial⟩) h
    exact hready.1
  | behind h hpass _ => exact runPass_importsOnly hbrings h.fresh.idle (h.importsOnly hbrings hitems) hpass

end Confined

/-- A part of an expansion does the same with another registry. -/
def Ignores {α : Type} (job : Job) (larger : Registry) (part : Job → Expansion α) (run : Run) : Prop :=
  part (job.withRegistry larger) run = part job run

/-! ## Parts of an expansion -/

theorem ignores_identify (hgrows : job.registry.GrowsTo larger) (hrun : run.Truthful job.registry)
    (n : Node) : job.Ignores larger (·.identify n) run := by
  simp only [Ignores]
  rw [identify, identify, Expansion.get_bind, Expansion.get_bind]
  cases hcall : resolveCall run.bindings n with
  | none => rfl
  | some found =>
    cases found with
    | unknown module name => rfl
    | known module name =>
      have hlists : job.registry.Lists module name := truthful_resolveCall hrun.bindings hcall
      have hfind : (job.withRegistry larger).registry.find? module name =
          job.registry.find? module name := hgrows.find?_eq hlists
      simp only [hfind]
      rfl

theorem ignores_collectImport (hgrows : job.registry.GrowsTo larger)
    (havoids : job.Avoids larger budget items) {work : Work}
    (h : job.Begins budget items level work run) (hmade : job.MakesPass budget items run.pass)
    (invocation : Invocation) (index : Nat) :
    job.Ignores larger (·.collectImport invocation index) run := by
  simp only [Ignores]
  rw [collectImport, collectImport, Expansion.get_bind, Expansion.get_bind]
  cases hitem : run.body.items[index]? with
  | none => rfl
  | some item =>
    have hretire : retireImport (job.withRegistry larger).registry.exports job.options.keepImports item =
        retireImport job.registry.exports job.options.keepImports item := by
      refine retireImport_congr ?_
      intro module himports
      refine hgrows.exports_eq (havoids _ (.moment h hmade) module ?_)
      exact ⟨item, List.mem_of_getElem? hitem, himports⟩
    have hoptions : (job.withRegistry larger).options = job.options := rfl
    simp only [hoptions, hretire]
    rfl

/-- With so much budget, what is begun does the same with another registry. -/
structure Coincides (job : Job) (larger : Registry) (budget : Nat) (items : List Node) (level : Nat) :
    Prop where
  tree : ∀ {n run}, job.Begins budget items level (.tree n) run →
    job.MakesPass budget items run.pass →
    job.Ignores larger (fun job => job.visit (job.walker level) n) run
  trees : ∀ {parts run}, job.Begins budget items level (.trees parts) run →
    job.MakesPass budget items run.pass →
    job.Ignores larger (fun job => job.visitParts (job.walker level) parts) run
  item : ∀ {index run}, job.Begins budget items level (.item index) run →
    job.MakesPass budget items run.pass →
    job.Ignores larger (fun job => job.expandItem (job.walker level) index) run
  stage : ∀ {invocation task slot run}, job.Begins budget items level (.stage invocation task slot) run →
    job.MakesPass budget items run.pass →
    job.Ignores larger (fun job => job.drive (job.walker level) invocation task slot) run

theorem ignores_handler (below : ∀ lower, level = lower + 1 → job.Coincides larger budget items lower)
    {invocation : Invocation} {slot : Node}
    (h : job.Begins budget items level (.handler invocation slot) run)
    (hmade : job.MakesPass budget items run.pass) :
    job.Ignores larger (fun job => job.apply (job.walker level) invocation slot) run := by
  simp only [Ignores, apply]
  cases hhandler : invocation.callee.handler with
  | context handler => rfl
  | toolkit handler => rfl
  | helper handler => rfl
  | task start =>
    cases level with
    | zero => rfl
    | succ level => exact (below level rfl).stage (h.start hhandler) hmade

mutual

theorem ignores_visit (hgrows : job.registry.GrowsTo larger)
    (below : ∀ lower, level = lower + 1 → job.Coincides larger budget items lower) :
    ∀ {n run}, job.Begins budget items level (.tree n) run → job.MakesPass budget items run.pass →
      job.Ignores larger (fun job => job.visit (job.walker level) n) run
  | .mk form origin parts, run, h, hmade => by
    simp only [Ignores]
    rw [visit, visit]
    refine Expansion.bind_congr (ignores_identify hgrows h.truthful _) ?_
    intro found mid hidentify
    obtain ⟨rfl, ⟨rfl, -⟩ | ⟨callee, module, name, rfl, hres, -⟩⟩ := ok_identify hidentify
    · exact Expansion.bind_congr (ignores_visitParts hgrows below (h.parts hidentify) hmade) fun _ => rfl
    obtain rfl : form = .call := Node.form_of_resolveCall hres
    refine Expansion.bind_congr rfl ?_
    intro invocation mid hbegin
    obtain ⟨-, hpass⟩ := h.after_begin hidentify hbegin
    rw [← hpass] at hmade
    by_cases hcooperative : callee.handler.isCooperative = true
    · simp only [hcooperative, if_true]
      exact ignores_handler below (h.cooperative hidentify hbegin hcooperative) hmade
    · have heager : callee.handler.isCooperative = false := by simpa using hcooperative
      simp only [heager, Bool.false_eq_true, if_false]
      have harguments := h.arguments hidentify hbegin heager
      refine Expansion.bind_congr (ignores_visitCall hgrows below harguments hmade) ?_
      intro parts' mid' hparts
      obtain ⟨-, hpass'⟩ := h.after_arguments hidentify hbegin hparts
      rw [hpass, ← hpass'] at hmade
      exact ignores_handler below (h.eager hidentify hbegin heager hparts) hmade

theorem ignores_visitParts (hgrows : job.registry.GrowsTo larger)
    (below : ∀ lower, level = lower + 1 → job.Coincides larger budget items lower) :
    ∀ {parts run}, job.Begins budget items level (.trees parts) run →
      job.MakesPass budget items run.pass →
      job.Ignores larger (fun job => job.visitParts (job.walker level) parts) run
  | [], run, h, hmade => by
    simp only [Ignores]
    rw [visitParts, visitParts]
  | n :: rest, run, h, hmade => by
    simp only [Ignores]
    rw [visitParts, visitParts]
    refine Expansion.bind_congr (ignores_visit hgrows below h.first hmade) ?_
    intro n' mid hvisit
    obtain ⟨-, hpass⟩ := h.after_visit hvisit
    rw [← hpass] at hmade
    exact Expansion.bind_congr (ignores_visitParts hgrows below (h.rest hvisit) hmade) fun _ => rfl

theorem ignores_visitCall (hgrows : job.registry.GrowsTo larger)
    (below : ∀ lower, level = lower + 1 → job.Coincides larger budget items lower) :
    ∀ {parts origin run}, job.Begins budget items level (.trees (Node.mk .call origin parts).args) run →
      job.MakesPass budget items run.pass →
      job.Ignores larger (fun job => job.visitCall (job.walker level) parts) run
  | [callee, .mk form o args, typeArgs], origin, run, h, hmade => by
    simp only [Ignores]
    rw [visitCall, visitCall]
    refine Expansion.bind_congr ?_ fun _ => rfl
    by_cases hgroup : form = .group
    · subst hgroup
      rw [visitGroup, visitGroup]
      refine Expansion.bind_congr ?_ fun _ => rfl
      rw [visitArguments_eq, visitArguments_eq]
      exact Expansion.bind_congr (ignores_visitParts hgrows below h hmade) fun _ => rfl
    · have hother : ∀ (job : Job) w, job.visitGroup w (.mk form o args) = Pure.pure (.mk form o args) :=
        fun job w => visitGroup.eq_2 job w _ fun _ _ heq => hgroup (Node.mk.inj heq).1
      rw [hother, hother]
  | [], _, _, _, _ | [_], _, _, _, _ | [_, _], _, _, _, _ | _ :: _ :: _ :: _ :: _, _, _, _, _ => rfl

end

theorem ignores_expandItem (hgrows : job.registry.GrowsTo larger)
    (below : ∀ lower, level = lower + 1 → job.Coincides larger budget items lower) {index : Nat}
    (h : job.Begins budget items level (.item index) run)
    (hmade : job.MakesPass budget items run.pass) :
    job.Ignores larger (fun job => job.expandItem (job.walker level) index) run := by
  simp only [Ignores, expandItem]
  cases hdetach : run.body.detach? index with
  | none => rfl
  | some out =>
    obtain ⟨item, body⟩ := out
    have hvisit := ignores_visit hgrows below (h.detached hdetach) hmade
    simp only [Ignores] at hvisit
    simp only [hvisit]

section Requests

variable (hgrows : job.registry.GrowsTo larger) (havoids : job.Avoids larger budget items)
  (below : ∀ lower, level = lower + 1 → job.Coincides larger budget items lower)

include below

theorem ignores_argument {invocation : Invocation} {slot : Node} {index : Nat}
    (h : job.Begins budget items level (.request invocation slot (.argument index)) run)
    (hmade : job.MakesPass budget items run.pass) :
    job.Ignores larger (fun job => job.fulfil (job.walker level) invocation slot (.argument index))
      run := by
  simp only [Ignores, fulfil]
  by_cases hcall : slot.isCall = true
  · simp only [hcall, Bool.not_true, Bool.false_eq_true, if_false]
    cases harg : slot.args[index]? with
    | none => rfl
    | some arg =>
      refine Expansion.bind_congr (Expansion.bind_congr ?_ fun _ => rfl) fun _ => rfl
      cases level with
      | zero => rfl
      | succ level => exact (below level rfl).tree (h.argument harg) hmade
  · simp only [hcall, Bool.not_false, if_true]
    rfl

theorem ignores_arguments {invocation : Invocation} {slot : Node}
    (h : job.Begins budget items level (.request invocation slot .arguments) run)
    (hmade : job.MakesPass budget items run.pass) :
    job.Ignores larger (fun job => job.fulfil (job.walker level) invocation slot .arguments) run := by
  simp only [Ignores, fulfil]
  by_cases hcall : slot.isCall = true
  · simp only [hcall, Bool.not_true, Bool.false_eq_true, if_false]
    refine Expansion.bind_congr ?_ fun _ => rfl
    cases level with
    | zero => rfl
    | succ level =>
      rw [expandArguments_eq, expandArguments_eq]
      exact Expansion.bind_congr ((below level rfl).trees h.allArguments hmade) fun _ => rfl
  · simp only [hcall, Bool.not_false, if_true]
    rfl

include hgrows havoids

theorem ignores_request {invocation : Invocation} {slot : Node} {request : Request}
    (h : job.Begins budget items level (.request invocation slot request) run)
    (hmade : job.MakesPass budget items run.pass) :
    job.Ignores larger (fun job => job.fulfil (job.walker level) invocation slot request) run := by
  cases request with
  | argument index => exact ignores_argument below h hmade
  | arguments => exact ignores_arguments below h hmade
  | item index =>
    refine Expansion.bind_congr rfl ?_
    intro _ mid hcheck
    refine Expansion.bind_congr ?_ fun _ => rfl
    have hrequested := fun {lower} (h : job.Begins budget items (lower + 1)
      (.request invocation slot (.item index)) run) => h.requested hcheck
    obtain ⟨rfl, -⟩ := ok_checkItem hcheck
    cases level with
    | zero => rfl
    | succ level => exact (below level rfl).item (hrequested h) hmade
  | «import» index =>
    refine Expansion.bind_congr rfl ?_
    intro _ mid hcheck
    obtain ⟨rfl, -⟩ := ok_checkItem hcheck
    exact Expansion.bind_congr (ignores_collectImport hgrows havoids h hmade invocation index)
      fun _ => rfl

theorem ignores_requests {invocation : Invocation} {slot : Node} {requests : List Request}
    (h : job.Begins budget items level (.requests invocation slot requests) run)
    (hmade : job.MakesPass budget items run.pass) :
    job.Ignores larger (fun job => job.fulfilAll (job.walker level) invocation slot requests) run := by
  induction requests generalizing slot run with
  | nil => rfl
  | cons request rest ih =>
    refine Expansion.bind_congr (ignores_request hgrows havoids below h.request hmade) ?_
    intro slot' mid hserved
    obtain ⟨-, hpass⟩ := h.after_request hserved
    rw [← hpass] at hmade
    exact ih (h.served hserved) hmade

theorem ignores_stage {invocation : Invocation} {task : Task} {slot : Node}
    (h : job.Begins budget items level (.stage invocation task slot) run)
    (hmade : job.MakesPass budget items run.pass) :
    job.Ignores larger (fun job => job.drive (job.walker level) invocation task slot) run := by
  refine Expansion.bind_congr rfl ?_
  rintro ⟨answer, slot'⟩ mid hstage
  obtain ⟨-, hpass⟩ := h.after_stage hstage
  cases answer with
  | none => rfl
  | some asked =>
    obtain ⟨requests, next⟩ := asked
    have hmade' := hmade
    rw [← hpass] at hmade'
    refine Expansion.bind_congr (ignores_requests hgrows havoids below (h.asked hstage) hmade') ?_
    intro slot'' mid' hserved
    cases level with
    | zero => rfl
    | succ level =>
      obtain ⟨-, hpass'⟩ := h.after_requests hstage hserved
      rw [← hpass'] at hmade
      exact (below level rfl).stage (h.resumed hstage hserved) hmade

end Requests

theorem coincides (hgrows : job.registry.GrowsTo larger) (havoids : job.Avoids larger budget items)
    (level : Nat) : job.Coincides larger budget items level := by
  -- What a task asks for, and its next stage, have the level below.
  induction level with
  | zero =>
    have below : ∀ lower, 0 = lower + 1 → job.Coincides larger budget items lower :=
      fun lower h => absurd h (Nat.succ_ne_zero lower).symm
    exact ⟨ignores_visit hgrows below, ignores_visitParts hgrows below, ignores_expandItem hgrows below,
      ignores_stage hgrows havoids below⟩
  | succ level ih =>
    have below : ∀ lower, level + 1 = lower + 1 → job.Coincides larger budget items lower :=
      fun lower h => Nat.succ.inj h ▸ ih
    exact ⟨ignores_visit hgrows below, ignores_visitParts hgrows below, ignores_expandItem hgrows below,
      ignores_stage hgrows havoids below⟩

/-! ## Passes -/

theorem ignores_walk (hgrows : job.registry.GrowsTo larger) (havoids : job.Avoids larger budget items)
    {index : Nat} (h : job.Begins budget items level (.walk index) run)
    (hmade : job.MakesPass budget items run.pass) :
    job.Ignores larger (·.expandFrom level index) run := by
  induction level generalizing index run with
  | zero => rfl
  | succ level ih =>
    by_cases hlt : index < run.body.size
    · simp only [Ignores]
      rw [expandFrom_of_lt hlt, expandFrom_of_lt hlt]
      refine Expansion.bind_congr ((coincides hgrows havoids level).item (h.takeUp hlt) hmade) ?_
      intro next mid hitem
      obtain ⟨-, hpass⟩ := h.after_item hlt hitem
      rw [← hpass] at hmade
      exact ih (h.goOn hlt hitem) hmade
    · simp only [Ignores]
      rw [expandFrom_of_le (Nat.le_of_not_lt hlt), expandFrom_of_le (Nat.le_of_not_lt hlt)]

theorem Rounds.makesPass {n : Nat} (h : job.Rounds budget items n run)
    (hbindings : (job.start items).bindings ≠ []) (hlt : n < job.options.effectiveMaxPasses) :
    job.MakesPass budget items (run.pass + 1) :=
  ⟨hbindings, n, run, congrArg (· + 1) h.pass_eq, hlt, h⟩

theorem ignores_runPass (hgrows : job.registry.GrowsTo larger)
    (havoids : job.Avoids larger budget items) (h : job.Reaches budget items run)
    (hmade : job.MakesPass budget items (run.pass + 1)) : job.Ignores larger (·.runPass budget) run :=
  Expansion.bind_congr rfl fun hbegin => by
    cases hbegin
    exact ignores_walk hgrows havoids (.pass h) hmade

theorem collectBindings_withRegistry (hgrows : job.registry.GrowsTo larger)
    (havoids : job.Avoids larger budget items) {program : List Node}
    (h : job.Shows budget items program) :
    collectBindings (job.withRegistry larger).registry.exports job.options.keepImports program =
      collectBindings job.registry.exports job.options.keepImports program := by
  refine collectBindings_congr ?_
  intro module hdepends
  exact hgrows.exports_eq (havoids program h module hdepends)

theorem refresh_withRegistry (hgrows : job.registry.GrowsTo larger)
    (havoids : job.Avoids larger budget items) (h : job.Shows budget items run.body.items) :
    (job.withRegistry larger).refresh run = job.refresh run := by
  have hoptions : (job.withRegistry larger).options = job.options := rfl
  simp only [refresh, hoptions, collectBindings_withRegistry hgrows havoids h]

theorem start_withRegistry (hgrows : job.registry.GrowsTo larger)
    (havoids : job.Avoids larger budget items) :
    (job.withRegistry larger).start items = job.start items := by
  have hoptions : (job.withRegistry larger).options = job.options := rfl
  simp only [start, hoptions, collectBindings_withRegistry hgrows havoids .source]

/-- Pass by pass, an expansion does the same with another registry. -/
theorem ignores_settle (hgrows : job.registry.GrowsTo larger) (havoids : job.Avoids larger budget items)
    (hbindings : (job.start items).bindings ≠ []) {remaining n : Nat}
    (h : job.Rounds budget items n run) (hle : n + remaining ≤ job.options.effectiveMaxPasses) :
    job.Ignores larger (·.settle budget remaining n) run := by
  induction remaining generalizing n run with
  | zero => rfl
  | succ remaining ih =>
    have hmade := h.makesPass hbindings (by omega)
    simp only [Ignores]
    rw [settle_succ, settle_succ]
    refine Expansion.bind_congr (ignores_runPass hgrows havoids h.reaches hmade) ?_
    intro a mid hpass
    have hmade' : job.MakesPass budget items mid.pass := by
      rw [pass_runPass h.reaches.fresh.idle hpass]
      exact hmade
    have hrefresh := refresh_withRegistry hgrows havoids (.behind h.reaches hpass hmade')
    unfold afterPass
    rw [hrefresh]
    by_cases hquiet : (job.refresh mid).applied = 0
    · rw [if_pos hquiet, if_pos hquiet]
    · rw [if_neg hquiet, if_neg hquiet]
      exact ih (h.pass hpass hquiet) (by omega)

theorem expand_withRegistry (hgrows : job.registry.GrowsTo larger)
    (havoids : job.Avoids larger budget items) :
    (job.withRegistry larger).expand budget items = job.expand budget items := by
  have hstart := start_withRegistry hgrows havoids
  by_cases hbindings : (job.start items).bindings = []
  · simp only [expand, hstart, hbindings, List.isEmpty_nil, if_true]
  · have hbindings' : ((job.withRegistry larger).start items).bindings ≠ [] := by
      rw [hstart]
      exact hbindings
    rw [expand_of_bindings hbindings, expand_of_bindings hbindings', hstart]
    exact congrArg some (ignores_settle hgrows havoids hbindings .start (Nat.le_of_eq (Nat.zero_add _)))

/-- If no program of an expansion imports from a module that another registry has in addition, the file
becomes the same with either registry, or fails in the same way, and handlers note down the same. -/
theorem run_withRegistry (job : Job) (larger : Registry) (hgrows : job.registry.GrowsTo larger)
    (budget : Nat)
    (havoids : ∀ module, job.source.parse = .ok module →
      ∀ program, job.Shows budget module.items program →
        ∀ name, DependsOn program name → ¬ job.registry.Gains larger name) :
    (job.withRegistry larger).run budget = job.run budget := by
  have hparse : (job.withRegistry larger).source.parse = job.source.parse := rfl
  unfold Job.run
  rw [hparse]
  cases hmodule : job.source.parse with
  | error failure => rfl
  | ok module =>
    have havoided : job.Avoids larger budget module.items := havoids module hmodule
    simp only [expand_withRegistry hgrows havoided]

/-- What is registered for the file that imports another macro while it runs, and a module that it does
not import, with a macro of the same name. -/
def enlarged : Registry :=
  fetching.registry.insert "extra" ⟨.macros
    [⟨"drop", .context fun _ => modify (·.replaceWith (identifier "x")), "", compatVersion⟩], []⟩

def importsFromM (items : List Node) : Bool :=
  items.all fun item => !item.isCall && item.importDecl?.all fun decl => decl.source.value == "m"

theorem gains_enlarged {name : String} : fetching.registry.Gains enlarged name ↔ name = "extra" := by
  constructor
  · rintro ⟨hnone, hsome⟩
    by_contra hne
    exact hsome ((Registry.get?_insert_of_ne (Ne.symm hne)).trans hnone)
  · rintro rfl
    exact ⟨rfl, fun h => by cases Registry.get?_insert_self.symm.trans h⟩

theorem fetching_brings : fetching.registry.All
    (·.handler.Makes fun edit => ∀ tree ∈ edit.trees, tree.ImportsOnly (· ≠ "extra")) := by
  intro entry hentry callee hcallee
  rcases List.mem_pair.mp hentry with rfl | rfl
  · rw [List.mem_singleton.mp hcallee]
    intro dialect
    refine .stage ?_ ?_
    · intro call bindings workspace edit hedit tree htree
      rw [List.mem_singleton.mp hedit] at htree
      rw [List.mem_singleton.mp htree]
      refine ⟨rfl, ?_⟩
      rintro module ⟨decl, hdecl, -, rfl⟩
      cases hdecl
      decide
    · intro call bindings workspace requests next changes hresume
      cases hresume
      refine .stage (fun _ _ _ edit hedit => by cases hedit) ?_
      intro call bindings workspace requests next changes hresume
      cases hresume
  · rw [List.mem_singleton.mp hcallee]
    trivial

theorem fetching_run_enlarged : fetching.registry.GrowsTo enlarged ∧
    fetching.registry.Gains enlarged "extra" ∧
    (∀ module, fetching.source.parse = .ok module →
      ∀ program, fetching.Shows 6 module.items program →
        ∀ name, DependsOn program name → ¬ fetching.registry.Gains enlarged name) ∧
    ((fetching.withRegistry enlarged).run 6).outcome = .ok (.transformed fetched) := by
  have hgrows : fetching.registry.GrowsTo enlarged := by
    intro module entry hget
    have hne : "extra" ≠ module := by
      rintro rfl
      cases hget
    exact (Registry.get?_insert_of_ne hne).trans hget
  have hsource : (match fetching.source.parse with
      | .ok module => importsFromM module.items
      | .error _ => false) = true := by
    decide +kernel
  have havoids : ∀ module, fetching.source.parse = .ok module →
      ∀ program, fetching.Shows 6 module.items program →
        ∀ name, DependsOn program name → ¬ fetching.registry.Gains enlarged name := by
    rintro module hparse program hshows name ⟨item, hitem, himports⟩ hgains
    rw [hparse] at hsource
    have hitems : ∀ item ∈ module.items, item.ImportsOnly (· ≠ "extra") := by
      intro item hitem
      have hcheck := List.all_eq_true.mp hsource item hitem
      simp only [Bool.and_eq_true, Bool.not_eq_true', Option.all_eq_true, beq_iff_eq] at hcheck
      refine ⟨hcheck.1, ?_⟩
      rintro name ⟨decl, hdecl, -, rfl⟩
      rw [hcheck.2 decl hdecl]
      decide
    exact (hshows.importsOnly fetching_brings hitems item hitem).2 name himports (gains_enlarged.mp hgains)
  have houtcome : (fetching.run 6).outcome = .ok (.transformed fetched) := by decide +kernel
  refine ⟨hgrows, gains_enlarged.mpr rfl, havoids, ?_⟩
  rw [run_withRegistry fetching enlarged hgrows 6 havoids]
  exact houtcome

end Job

end CallExpander
