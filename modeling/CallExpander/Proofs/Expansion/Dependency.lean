import CallExpander.Proofs.Expansion.Truthful
import CallExpander.Proofs.Registry

/-!
# Kept imports

A macro module comes into an expansion by an import: one of the source, one that a handler inserts, or one
that a task asks for. Where imports are kept, what remains of it still imports from the module. From then on
the program depends on that module, whatever is taken out, put back, dropped, retired or inserted, as long
as no handler overwrites an item. So the result depends on every module of which a macro was applied.
-/

namespace CallExpander

open Node

/-- An item imports from a module, and not only types. -/
def Node.ImportsFrom (item : Node) (module : String) : Prop :=
  ∃ decl, item.importDecl? = some decl ∧ decl.typeOnly = false ∧ decl.source.value = module

/-- A program imports from a module, and not only types. -/
def DependsOn (items : List Node) (module : String) : Prop :=
  ∃ item ∈ items, item.ImportsFrom module

/-- An edit that leaves the items that are there alone. -/
def Edit.Inserts : Edit → Prop
  | .overwrite _ _ => False
  | _ => True

variable {module : String} {item : Node} {items : List Node} {exports : Exports}

namespace Node.ImportsFrom

theorem congr {other : Node} (hdecl : other.importDecl? = item.importDecl?)
    (h : item.ImportsFrom module) : other.ImportsFrom module := by
  obtain ⟨decl, himport, hvalue⟩ := h
  exact ⟨decl, hdecl.trans himport, hvalue⟩

theorem importDecl?_ne_none (h : item.ImportsFrom module) : item.importDecl? ≠ none := by
  obtain ⟨decl, himport, -⟩ := h
  simp [himport]

theorem not_emptyStatement : ¬ emptyStatement.ImportsFrom module :=
  fun h => h.importDecl?_ne_none rfl

/-- What remains of a kept import imports from the same module, and the names that it binds come from
there. -/
theorem of_retired {retired : Retired} (h : retireImport exports true item = some retired) :
    ∃ rest, retired.remains = some rest ∧ (∀ module, item.ImportsFrom module → rest.ImportsFrom module) ∧
      ∀ b ∈ retired.bindings, rest.ImportsFrom b.module := by
  obtain ⟨decl, macros, hdecl, htype, -, hbindings, hremains⟩ := retireImport_eq_some h
  refine ⟨_, hremains, ?_, ?_⟩
  · rintro module ⟨other, hother, -, hmodule⟩
    cases hdecl.symm.trans hother
    exact ⟨_, rfl, htype, hmodule⟩
  · intro b hb
    rw [hbindings] at hb
    obtain ⟨s, -, rfl⟩ := List.mem_map.mp hb
    refine ⟨_, rfl, htype, ?_⟩
    cases s <;> rfl

end Node.ImportsFrom

/-! ## Programs under changes -/

namespace DependsOn

/-- An item can be replaced by one that imports what it imports. -/
theorem set {index : Nat} {other : Node} (h : DependsOn items module)
    (hindex : items[index]? = some item) (hother : item.ImportsFrom module → other.ImportsFrom module) :
    DependsOn (items.set index other) module := by
  obtain ⟨found, hfound, himports⟩ := h
  obtain ⟨place, hplace⟩ := List.mem_iff_getElem?.mp hfound
  by_cases heq : index = place
  · subst heq
    cases hindex.symm.trans hplace
    have hlt := (List.getElem?_eq_some_iff.mp hindex).1
    exact ⟨other, List.mem_of_getElem? (List.getElem?_set_self hlt), hother himports⟩
  · exact ⟨found, List.mem_of_getElem? ((List.getElem?_set_ne heq).trans hplace), himports⟩

/-- An item that imports nothing from a module can be dropped. -/
theorem eraseIdx {index : Nat} (h : DependsOn items module) (hindex : items[index]? = some item)
    (hitem : ¬ item.ImportsFrom module) : DependsOn (items.eraseIdx index) module := by
  obtain ⟨found, hfound, himports⟩ := h
  obtain ⟨place, hplace⟩ := List.mem_iff_getElem?.mp hfound
  have hne : place ≠ index := by
    rintro rfl
    cases hindex.symm.trans hplace
    exact hitem himports
  exact ⟨found, List.mem_of_getElem? ((Body.getElem?_unshift hne).trans hplace), himports⟩

theorem insert (h : DependsOn items module) (index : Nat) (new : List Node) :
    DependsOn (items.take index ++ new ++ items.drop index) module := by
  obtain ⟨found, hfound, himports⟩ := h
  rw [← List.take_append_drop index items] at hfound
  refine ⟨found, ?_, himports⟩
  rcases List.mem_append.mp hfound with hfound | hfound
  · exact List.mem_append_left _ (List.mem_append_left _ hfound)
  · exact List.mem_append_right _ hfound

theorem edit {body : Body} {edit : Edit} (hedit : edit.Inserts) (h : DependsOn body.items module) :
    DependsOn (body.edit edit).2.items module := by
  cases edit with
  | prepend new => exact h.insert 0 new
  | append new => exact h.insert body.size new
  | prependImports specs => exact h.insert 0 _
  | appendImports specs => exact h.insert (Body.behindImports body.items) _
  | overwrite index item => cases hedit

/-- Retiring all imports keeps them, and the names that are bound come from them. -/
theorem collect (exports : Exports) (items : List Node) :
    (∀ module, DependsOn items module → DependsOn (collectBindings exports true items).2 module) ∧
      ∀ b ∈ (collectBindings exports true items).1,
        DependsOn (collectBindings exports true items).2 b.module := by
  induction items with
  | nil => exact ⟨fun _ h => h, fun b hb => nomatch hb⟩
  | cons first rest ih =>
    obtain ⟨hkept, hbound⟩ := ih
    have hbehind : ∀ (front : Node) {module : String},
        DependsOn (collectBindings exports true rest).2 module →
          DependsOn (front :: (collectBindings exports true rest).2) module := by
      rintro front module ⟨item, hitem, himports⟩
      exact ⟨item, List.mem_cons_of_mem _ hitem, himports⟩
    simp only [collectBindings]
    split
    · refine ⟨?_, fun b hb => hbehind first (hbound b hb)⟩
      rintro module ⟨item, hitem, himports⟩
      rcases List.mem_cons.mp hitem with rfl | hitem
      · exact ⟨item, List.mem_cons_self, himports⟩
      · exact hbehind first (hkept module ⟨item, hitem, himports⟩)
    · next retired hretired =>
      obtain ⟨remaining, hremains, hsame, hfound⟩ := ImportsFrom.of_retired hretired
      simp only [hremains, Option.toList_some]
      constructor
      · rintro module ⟨item, hitem, himports⟩
        rcases List.mem_cons.mp hitem with rfl | hitem
        · exact ⟨remaining, List.mem_cons_self, hsame module himports⟩
        · exact hbehind remaining (hkept module ⟨item, hitem, himports⟩)
      · intro b hb
        rcases List.mem_append.mp hb with hb | hb
        · exact ⟨remaining, List.mem_cons_self, hfound b hb⟩
        · exact hbehind remaining (hbound b hb)

theorem markAll (h : DependsOn items module) (env : Env) :
    DependsOn (Node.markAll env items).1 module := by
  induction items generalizing env with
  | nil => exact h
  | cons first rest ih =>
    obtain ⟨item, hitem, himports⟩ := h
    rcases List.mem_cons.mp hitem with rfl | hitem
    · exact ⟨_, List.mem_cons_self, himports.congr (importDecl?_mark env item)⟩
    · obtain ⟨other, hother, himports⟩ := ih ⟨item, hitem, himports⟩ (mark env first).2
      exact ⟨other, List.mem_cons_of_mem _ hother, himports⟩

theorem resolve (h : DependsOn items module) : DependsOn (Node.resolve items) module :=
  h.markAll _

end DependsOn

/-! ## States -/

/-- What a call is taken for comes from the module of a binding. -/
theorem binding_of_resolveCall {bindings : List Binding} {n : Node} {name : String}
    (h : resolveCall bindings n = some (.known module name)) : ∃ b ∈ bindings, b.module = module := by
  obtain ⟨callee, -, hcallee⟩ := Option.bind_eq_some_iff.mp h
  unfold resolveCallee at hcallee
  split at hcallee
  · split at hcallee
    · next hlookup _ =>
      refine ⟨_, mem_of_lookup hlookup, ?_⟩
      simp only [resolveName] at hcallee
      split at hcallee <;> cases hcallee
      rfl
    · cases hcallee
  · split at hcallee
    · next hlookup =>
      cases hcallee
      exact ⟨_, mem_of_lookup hlookup, rfl⟩
    · cases hcallee
    · cases hcallee

/-- A module that a name was bound from, or of which a macro was applied. -/
def Run.Names (run : Run) (module : String) : Prop :=
  (∃ b ∈ run.bindings, b.module = module) ∨ ∃ step ∈ run.trace, step.module = module

/-- Every pending place of the run's program is held by an empty statement. -/
def Run.Held (run : Run) : Prop :=
  run.body.Held

/-- Between two states the program lost no dependency, and depends on every module that is new. -/
structure Run.Retains (a b : Run) : Prop where
  kept : ∀ {module}, DependsOn a.body.items module → DependsOn b.body.items module
  named : ∀ {module}, b.Names module → a.Names module ∨ DependsOn b.body.items module

namespace Run.Retains

variable {a b c run mid run' : Run} {index index' : Nat} {item' : Node} {body body' : Body}

theorem refl (run : Run) : run.Retains run := ⟨fun h => h, .inl⟩

theorem trans (hab : a.Retains b) (hbc : b.Retains c) : a.Retains c where
  kept h := hbc.kept (hab.kept h)
  named h := by
    rcases hbc.named h with h | h
    · exact (hab.named h).imp_right hbc.kept
    · exact .inr h

/-- A change that names no module. -/
theorem frame (hbindings : b.bindings = a.bindings) (htrace : b.trace = a.trace)
    (hkept : ∀ {module}, DependsOn a.body.items module → DependsOn b.body.items module) :
    a.Retains b where
  kept := hkept
  named h := by
    unfold Run.Names at h
    rw [hbindings, htrace] at h
    exact .inl h

theorem applying {step : Step} (call : Node) (hstep : ∃ b ∈ run.bindings, b.module = step.module) :
    run.Retains (run.applying step call) where
  kept h := h
  named h := by
    rcases h with h | ⟨other, hother, hmodule⟩
    · exact .inl (.inl h)
    · rcases List.mem_append.mp hother with hother | hother
      · exact .inl (.inr ⟨other, hother, hmodule⟩)
      · rw [List.mem_singleton.mp hother] at hmodule
        exact .inl (.inl (hmodule ▸ hstep))

theorem retiring {retired : Retired} (hitem : run.body.items[index]? = some item)
    (hretire : retireImport exports true item = some retired)
    (h : run.retiring? index retired = some run') : run.Retains run' := by
  obtain ⟨rest, hremains, hsame, hfound⟩ := ImportsFrom.of_retired hretire
  obtain ⟨rest', hremains', rfl⟩ | ⟨body, hnone, -⟩ := Run.retiring?_cases h
  · cases hremains.symm.trans hremains'
    have hlt := (List.getElem?_eq_some_iff.mp hitem).1
    have hmem : rest ∈ run.body.items.set index rest :=
      List.mem_of_getElem? (List.getElem?_set_self hlt)
    refine ⟨fun {module} hdepends => hdepends.set hitem (hsame module), ?_⟩
    rintro module (⟨b, hb, rfl⟩ | htrace)
    · rcases List.mem_append.mp hb with hb | hb
      · exact .inl (.inl ⟨b, hb, rfl⟩)
      · exact .inr ⟨rest, hmem, hfound b hb⟩
    · exact .inl (.inr htrace)
  · cases hremains.symm.trans hnone

/-- An import that was taken out is there again once it is back. -/
theorem reattach (hdetach : run.body.detach? index = some (item, body))
    (h : Run.Retains { run with body } mid) (hmid : mid.Held)
    (hform : item.form = .call ∨ ∃ n : Node, n.form = item.form ∧ item' = n.sweep)
    (hreattach : mid.body.reattach? item' = some (index', body')) :
    run.Retains { mid with body := body' } := by
  obtain ⟨hitem, hitems, -⟩ := Body.detach?_places hdetach
  obtain ⟨hpending, hback, hlt⟩ := Body.reattach?_places hreattach
  have hempty : mid.body.items[index']? = some emptyStatement :=
    hmid.empty index' (hpending ▸ List.mem_cons_self)
  have hkept : ∀ {module}, DependsOn mid.body.items module → DependsOn body'.items module := by
    intro module hdepends
    rw [hback]
    exact hdepends.set hempty fun himports => (ImportsFrom.not_emptyStatement himports).elim
  refine ⟨?_, fun hnames => (h.named hnames).imp_right hkept⟩
  intro module hdepends
  by_cases himports : item.ImportsFrom module
  · have hitem' : item'.ImportsFrom module := by
      rcases hform with hcall | ⟨n, hsame, rfl⟩
      · exact absurd (by simp only [importDecl?, hcall]) himports.importDecl?_ne_none
      · exact himports.congr ((importDecl?_sweep n).trans (importDecl?_congr hsame))
    refine ⟨item', ?_, hitem'⟩
    change item' ∈ body'.items
    rw [hback]
    exact List.mem_of_getElem? (List.getElem?_set_self hlt)
  · refine hkept (h.kept ?_)
    change DependsOn body.items module
    rw [hitems]
    exact hdepends.set hitem fun himports' => absurd himports' himports

theorem discard (hdetach : run.body.detach? index = some (item, body))
    (h : Run.Retains { run with body } mid) (hmid : mid.Held) (hother : item.importDecl? = none)
    (hdiscard : mid.body.discard? = some (index', body')) : run.Retains (mid.dropping index' body') := by
  obtain ⟨hitem, hitems, -⟩ := Body.detach?_places hdetach
  obtain ⟨rest, hpending, hremove⟩ := Body.discard?_places hdiscard
  obtain ⟨-, hdrop, -, -⟩ := Body.remove?_places hremove
  have hempty : mid.body.items[index']? = some emptyStatement :=
    hmid.empty index' (hpending ▸ List.mem_cons_self)
  have hkept : ∀ {module}, DependsOn mid.body.items module → DependsOn body'.items module := by
    intro module hdepends
    rw [hdrop]
    exact hdepends.eraseIdx hempty ImportsFrom.not_emptyStatement
  refine ⟨?_, fun hnames => (h.named hnames).imp_right hkept⟩
  intro module hdepends
  refine hkept (h.kept ?_)
  change DependsOn body.items module
  rw [hitems]
  exact hdepends.set hitem fun himports => absurd hother himports.importDecl?_ne_none

end Run.Retains

/-- Where imports are kept and no item is overwritten, dependencies are. -/
def retaining (job : Job) (hkeep : job.options.keepImports = true)
    (hinserts : job.registry.All (·.handler.Makes Edit.Inserts)) : Discipline job where
  inv := Run.Held
  rel a b := a.Retains b
  fails _ _ _ := True
  tree _ _ := True
  allows := Edit.Inserts
  handlers := hinserts.of_find?
  rel_refl := .refl
  rel_trans := .trans
  fails_refl _ _ := trivial
  fails_trans _ _ := trivial
  tree_mono _ _ := trivial
  tree_parts _ _ _ := trivial
  tree_mk _ _ := trivial
  tree_sweep _ := trivial
  applying hi _ hcall _ hstep := by
    subst hstep
    exact ⟨hi, .applying _ (binding_of_resolveCall hcall)⟩
  withContext _ hi := ⟨hi, .frame rfl rfl (fun h => h), trivial⟩
  edit edit hedit hi := ⟨hi.edit edit, .frame rfl rfl (.edit hedit)⟩
  retiring hi hfree hitem hretire h := by
    rw [hkeep] at hretire
    have hretains := Run.Retains.retiring hitem hretire h
    obtain ⟨rest, -, rfl⟩ | ⟨body, -, hremove, rfl⟩ := Run.retiring?_cases h
    · exact ⟨hi.set hfree rest, hretains⟩
    · exact ⟨hi.remove hfree hremove, hretains⟩
  detach hi hfree hdetach := ⟨hi.detach hfree hdetach, trivial⟩
  reattach _ _ hdetach hr hmid _ hform hreattach :=
    ⟨hmid.reattach hreattach, hr.reattach hdetach hmid hform hreattach⟩
  discard _ _ hdetach hr hmid hother hdiscard :=
    ⟨hmid.discard hdiscard, hr.discard hdetach hmid hother hdiscard⟩
  restore _ _ _ _ _ := trivial
  lost _ _ _ _ _ := trivial

namespace Job

variable {job : Job} {budget : Nat} {run run' : Run}

theorem dependsOn_start (hkeep : job.options.keepImports = true) (items : List Node)
    (h : (job.start items).Names module) : DependsOn (job.start items).body.items module := by
  obtain ⟨-, hbound⟩ := DependsOn.collect job.registry.exports items
  rw [← hkeep] at hbound
  rcases h with ⟨b, hb, rfl⟩ | ⟨step, hstep, -⟩
  · exact (hbound b hb).resolve
  · cases hstep

theorem retains_refresh (hkeep : job.options.keepImports = true) (run : Run) :
    run.Retains (job.refresh run) := by
  obtain ⟨hkept, hbound⟩ := DependsOn.collect job.registry.exports run.body.items
  rw [← hkeep] at hkept hbound
  refine ⟨fun {module} h => (hkept module h).resolve, ?_⟩
  rintro module (⟨b, hb, rfl⟩ | htrace)
  · rcases List.mem_append.mp hb with hb | hb
    · exact .inl (.inl ⟨b, hb, rfl⟩)
    · exact .inr (hbound b hb).resolve
  · exact .inl (.inr htrace)

theorem retains_runPass (hkeep : job.options.keepImports = true)
    (hinserts : job.registry.All (·.handler.Makes Edit.Inserts)) {a : Unit} (hidle : run.Idle)
    (h : job.runPass budget run = .ok a run') : run.Retains run' := by
  have hwalk := Discipline.keeps_expandFrom (d := retaining job hkeep hinserts)
    (fun _ hi => ⟨hi, .frame rfl rfl (fun h => h)⟩) budget 0
  have hbegin : (beginPass run).Idle := hidle
  obtain ⟨-, hretains, -⟩ := hwalk.ok (Body.held_of_idle hbegin) hbegin h
  have hfirst : run.Retains (beginPass run) := .frame rfl rfl (fun h => h)
  exact hfirst.trans hretains

/-- Where passes start, the program depends on every module that was named so far. -/
theorem Reaches.dependsOn (hkeep : job.options.keepImports = true)
    (hinserts : job.registry.All (·.handler.Makes Edit.Inserts)) {items : List Node}
    (h : job.Reaches budget items run) (hnames : run.Names module) :
    DependsOn run.body.items module := by
  induction h with
  | start => exact dependsOn_start hkeep items hnames
  | @pass run run' a h hpass ih =>
    have hretains := (retains_runPass hkeep hinserts h.fresh.idle hpass).trans
      (retains_refresh hkeep run')
    rcases hretains.named hnames with hbefore | hdepends
    · exact hretains.kept (ih hbefore)
    · exact hdepends

/-- If imports are kept and no handler overwrites an item, the result of an expansion still imports from
every module of which a macro was applied. -/
theorem kept_imports_remain (job : Job) (hkeep : job.options.keepImports = true)
    (hinserts : job.registry.All (·.handler.Makes Edit.Inserts)) (budget : Nat) (output : Output)
    (h : (job.run budget).outcome = .ok (.transformed output)) :
    ∃ module run, job.source.parse = .ok module ∧
      job.expand budget module.items = some (.ok output.passes run) ∧
      output.code = Code.printModule { module with items := run.body.items } ∧
      ∀ step ∈ output.trace, ∃ item ∈ run.body.items, ∃ decl, item.importDecl? = some decl ∧
        decl.typeOnly = false ∧ decl.source.value = step.module := by
  obtain ⟨module, run, hparse, hexpand, hcode, htrace⟩ := outcome_eq_transformed.mp h
  refine ⟨module, run, hparse, hexpand, hcode, ?_⟩
  intro step hstep
  rw [htrace] at hstep
  exact (reaches_of_expand hexpand).dependsOn hkeep hinserts (.inr ⟨step, hstep, rfl⟩)

/-- A file with a task that imports another macro while it runs, and leaves a call of it. -/
def fetching : Job where
  registry := ⟨[("m", ⟨.macros
    [⟨"fetch", .task fun _ => .stage fun _ _ workspace =>
      .ok (some ([.import 0], .stage fun _ _ workspace =>
        .ok none { workspace.toContext.replaceWith (callOf (identifier "drop") []) with }))
        { workspace with edits := [.prependImports [.named "n" "drop"]] }, "", compatVersion⟩], []⟩),
    ("n", ⟨.macros [⟨"drop", .context fun _ => modify Context.remove, "", compatVersion⟩], []⟩)]⟩
  source := Source.ofPath "a.js" "import \x7b fetch \x7d from 'm';\nfetch();\n"
  options := { keepImports := true }

def fetched : Output where
  code := "import \"n\";\nimport 'm';\n"
  passes := 2
  trace := [⟨1, "fetch", "m", some ⟨2, 1⟩⟩, ⟨2, "drop", "n", none⟩]

theorem fetching_imports_remain : fetching.options.keepImports = true ∧
    fetching.registry.All (·.handler.Makes Edit.Inserts) ∧
    (fetching.run 6).outcome = .ok (.transformed fetched) ∧
    ∃ module run, fetching.source.parse = .ok module ∧
      fetching.expand 6 module.items = some (.ok 2 run) ∧
      fetched.code = Code.printModule { module with items := run.body.items } ∧
      ∀ step ∈ fetched.trace, ∃ item ∈ run.body.items, ∃ decl, item.importDecl? = some decl ∧
        decl.typeOnly = false ∧ decl.source.value = step.module := by
  have hinserts : fetching.registry.All (·.handler.Makes Edit.Inserts) := by
    intro entry hentry callee hcallee
    rcases List.mem_pair.mp hentry with rfl | rfl
    · rw [List.mem_singleton.mp hcallee]
      intro dialect
      refine .stage ?_ ?_
      · intro call bindings workspace edit hedit
        rw [List.mem_singleton.mp hedit]
        trivial
      · intro call bindings workspace requests next changes hresume
        cases hresume
        refine .stage (fun _ _ _ edit hedit => by cases hedit) ?_
        intro call bindings workspace requests next changes hresume
        cases hresume
    · rw [List.mem_singleton.mp hcallee]
      trivial
  have houtcome : (fetching.run 6).outcome = .ok (.transformed fetched) := by decide +kernel
  exact ⟨rfl, hinserts, houtcome, kept_imports_remain fetching rfl hinserts 6 fetched houtcome⟩

end Job

end CallExpander
