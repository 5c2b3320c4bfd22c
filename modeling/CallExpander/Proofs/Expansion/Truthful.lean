import CallExpander.Proofs.Expansion.Failing

/-!
# Names stand for what is registered

Local names are bound before the first pass, behind every pass, and where a task asks for an import.
Each time the binding is made from what the registry says of the module then, and nothing changes it
afterwards. So at every moment of an expansion a name stands for macros that are registered, or for an
export that the module it comes from does not have; no other macro is applied, and no macro that exists
is called unknown.
-/

namespace CallExpander

namespace Registry

variable {registry : Registry} {module name : String}

/-- A module is a macro module and has a macro of that name. -/
def Lists (registry : Registry) (module name : String) : Prop :=
  ∃ macros, registry.macros? module = some macros ∧ ∃ m ∈ macros, m.name = name

/-- A module is a macro module, but has no macro of that name. -/
def Lacks (registry : Registry) (module name : String) : Prop :=
  ∃ macros, registry.macros? module = some macros ∧ ∀ m ∈ macros, m.name ≠ name

theorem lists_of_find? {callee : Macro} (h : registry.find? module name = some callee) :
    registry.Lists module callee.name := by
  obtain ⟨macros, hmacros, hcallee⟩ := Option.bind_eq_some_iff.mp h
  exact ⟨macros, hmacros, callee, List.mem_of_find?_eq_some hcallee, rfl⟩

/-- A macro that is listed is found. -/
theorem Lists.find?_ne_none (h : registry.Lists module name) : registry.find? module name ≠ none := by
  obtain ⟨macros, hmacros, m, hm, hname⟩ := h
  intro hnone
  have hfind : (macros.find? fun m => m.name == name) = none := by
    simpa [find?, hmacros] using hnone
  have hother := List.find?_eq_none.mp hfind m hm
  simp [hname] at hother

theorem macros?_of_exports {names : List String} (h : registry.exports module = some names) :
    ∃ macros, registry.macros? module = some macros ∧ names = macros.map (·.name) := by
  obtain ⟨macros, hmacros, hnames⟩ := Option.map_eq_some_iff.mp h
  exact ⟨macros, hmacros, hnames.symm⟩

end Registry

/-- A binding says of its module what the registry does: a name for the whole module carries all macros
of it, and a name for one export stands for the macro of that name exactly if there is one. -/
inductive Binding.Truthful (registry : Registry) : Binding → Prop
  | namespace {localName module : String} {macros : List Macro}
      (hmodule : registry.macros? module = some macros) :
      Truthful registry (.namespace localName module (macros.map (·.name)))
  | present {localName module : String} {macros : List Macro} {m : Macro}
      (hmodule : registry.macros? module = some macros) (hm : m ∈ macros) :
      Truthful registry (.named localName module m.name (some m.name))
  | absent {localName module exportName : String} {macros : List Macro}
      (hmodule : registry.macros? module = some macros) (hnone : ∀ m ∈ macros, m.name ≠ exportName) :
      Truthful registry (.named localName module exportName none)

/-- What a callee is taken for is what the registry says of it. -/
def Resolution.Truthful (registry : Registry) : Resolution → Prop
  | .known module name => registry.Lists module name
  | .unknown module name => registry.Lacks module name

variable {registry : Registry}

/-! ## Bindings -/

theorem Binding.truthful_ofSpecifier {module : String} {macros : List Macro}
    (hmodule : registry.macros? module = some macros) (s : ImportSpecifier) :
    (Binding.ofSpecifier module (macros.map (·.name)) s).Truthful registry := by
  cases s with
  | default name => exact .namespace hmodule
  | «namespace» name => exact .namespace hmodule
  | named name imported typeOnly origin =>
    have hofSpecifier : ∀ exportName,
        (Binding.named name.text module exportName
          ((macros.map (·.name)).find? (· == exportName))).Truthful registry := by
      intro exportName
      cases hfind : (macros.map (·.name)).find? (· == exportName) with
      | none =>
        refine .absent hmodule fun m hm => ?_
        have hother := List.find?_eq_none.mp hfind m.name (List.mem_map_of_mem hm)
        simpa using hother
      | some target =>
        obtain ⟨m, hm, rfl⟩ := List.mem_map.mp (List.mem_of_find?_eq_some hfind)
        have hname : m.name = exportName := by
          simpa using List.find?_some hfind
        subst hname
        exact .present hmodule hm
    exact hofSpecifier _

theorem Retired.truthful {keepImports : Bool} {item : Node} {retired : Retired}
    (h : retireImport registry.exports keepImports item = some retired) :
    ∀ b ∈ retired.bindings, b.Truthful registry := by
  obtain ⟨decl, names, -, -, hnames, hbindings, -⟩ := retireImport_eq_some h
  obtain ⟨macros, hmodule, rfl⟩ := Registry.macros?_of_exports hnames
  intro b hb
  rw [hbindings] at hb
  obtain ⟨s, -, rfl⟩ := List.mem_map.mp hb
  exact Binding.truthful_ofSpecifier hmodule s

theorem truthful_collectBindings (keepImports : Bool) (items : List Node) :
    ∀ b ∈ (collectBindings registry.exports keepImports items).1, b.Truthful registry := by
  induction items with
  | nil => intro b hb; cases hb
  | cons item rest ih =>
    intro b hb
    simp only [collectBindings] at hb
    split at hb
    · exact ih b hb
    · next retired hretired =>
      rcases List.mem_append.mp hb with hb | hb
      · exact Retired.truthful hretired b hb
      · exact ih b hb

/-! ## Callees -/

theorem mem_of_lookup {bindings : List Binding} {n : Node} {b : Binding}
    (h : lookup bindings n = some b) : b ∈ bindings := by
  unfold lookup at h
  split at h
  · exact List.mem_reverse.mp (List.mem_of_find?_eq_some h)
  · cases h

theorem truthful_resolveName {module : String} {macros : List Macro}
    (hmodule : registry.macros? module = some macros) (name : String) :
    (resolveName module name (macros.map (·.name))).Truthful registry := by
  unfold resolveName
  by_cases hmem : name ∈ macros.map (·.name)
  · rw [if_pos (List.contains_iff_mem.mpr hmem)]
    obtain ⟨m, hm, hname⟩ := List.mem_map.mp hmem
    exact ⟨macros, hmodule, m, hm, hname⟩
  · rw [if_neg (fun h => hmem (List.contains_iff_mem.mp h))]
    exact ⟨macros, hmodule, fun m hm hname => hmem (List.mem_map.mpr ⟨m, hm, hname⟩)⟩

/-- Where all bindings are truthful, no callee is taken for anything that is not registered. -/
theorem truthful_resolveCallee {bindings : List Binding} {callee : Node} {found : Resolution}
    (hbindings : ∀ b ∈ bindings, b.Truthful registry)
    (h : resolveCallee bindings callee = some found) : found.Truthful registry := by
  unfold resolveCallee at h
  split at h
  · split at h
    · next hlookup _ =>
      cases h
      have htruthful := hbindings _ (mem_of_lookup hlookup)
      cases htruthful with
      | «namespace» hmodule => exact truthful_resolveName hmodule _
    · cases h
  · split at h
    · next hlookup =>
      cases h
      have htruthful := hbindings _ (mem_of_lookup hlookup)
      cases htruthful with
      | present hmodule hm => exact ⟨_, hmodule, _, hm, rfl⟩
    · next hlookup =>
      cases h
      have htruthful := hbindings _ (mem_of_lookup hlookup)
      cases htruthful with
      | absent hmodule hnone => exact ⟨_, hmodule, hnone⟩
    · cases h

theorem truthful_resolveCall {bindings : List Binding} {n : Node} {found : Resolution}
    (hbindings : ∀ b ∈ bindings, b.Truthful registry) (h : resolveCall bindings n = some found) :
    found.Truthful registry := by
  obtain ⟨callee, -, hcallee⟩ := Option.bind_eq_some_iff.mp h
  exact truthful_resolveCallee hbindings hcallee

/-! ## States -/

/-- All names that were bound stand for what is registered, and so does all that was applied. -/
structure Run.Truthful (registry : Registry) (run : Run) : Prop where
  bindings : ∀ b ∈ run.bindings, b.Truthful registry
  trace : ∀ step ∈ run.trace, registry.Lists step.module step.macroName

namespace Run.Truthful

variable {run run' : Run}

/-- A change that neither binds nor applies anything. -/
theorem frame (h : run.Truthful registry) (hbindings : run'.bindings = run.bindings)
    (htrace : run'.trace = run.trace) : run'.Truthful registry :=
  ⟨hbindings ▸ h.bindings, htrace ▸ h.trace⟩

theorem binding (h : run.Truthful registry) {found : List Binding}
    (hfound : ∀ b ∈ found, b.Truthful registry) (hbindings : run'.bindings = run.bindings ++ found)
    (htrace : run'.trace = run.trace) : run'.Truthful registry where
  bindings b hb := by
    rw [hbindings] at hb
    rcases List.mem_append.mp hb with hb | hb
    · exact h.bindings b hb
    · exact hfound b hb
  trace := htrace ▸ h.trace

theorem applying (h : run.Truthful registry) {step : Step} (call : Node)
    (hstep : registry.Lists step.module step.macroName) :
    (run.applying step call).Truthful registry where
  bindings := h.bindings
  trace other hother := by
    rcases List.mem_append.mp hother with hother | hother
    · exact h.trace other hother
    · rw [List.mem_singleton.mp hother]
      exact hstep

end Run.Truthful

/-- Whatever handlers do, names stand for what is registered. -/
def telling (job : Job) : Discipline job where
  inv run := run.Truthful job.registry
  rel _ _ := True
  fails _ _ run := run.Truthful job.registry
  tree _ _ := True
  allows _ := True
  handlers := @Job.makes_anything job
  rel_refl _ := trivial
  rel_trans _ _ := trivial
  fails_refl _ hi := hi
  fails_trans _ h := h
  tree_mono _ _ := trivial
  tree_parts _ _ _ := trivial
  tree_mk _ _ := trivial
  tree_sweep _ := trivial
  applying hi _ _ hfind hstep := by
    subst hstep
    exact ⟨hi.applying _ (Registry.lists_of_find? hfind), trivial⟩
  withContext _ hi := ⟨hi.frame rfl rfl, trivial, trivial⟩
  edit _ _ hi := ⟨hi.frame rfl rfl, trivial⟩
  retiring hi _ _ hretire h := by
    have hfound := Retired.truthful hretire
    obtain ⟨_, _, rfl⟩ | ⟨_, _, _, rfl⟩ := Run.retiring?_cases h
    · exact ⟨hi.binding hfound rfl rfl, trivial⟩
    · exact ⟨hi.binding hfound rfl rfl, trivial⟩
  detach hi _ _ := ⟨hi.frame rfl rfl, trivial⟩
  reattach _ _ _ _ hmid _ _ _ := ⟨hmid.frame rfl rfl, trivial⟩
  discard _ _ _ _ hmid _ _ := ⟨hmid.frame rfl rfl, trivial⟩
  restore _ _ _ hf _ := hf.frame rfl rfl
  lost _ _ _ hf _ := hf

namespace Job

variable {job : Job} {budget : Nat} {items : List Node} {run run' : Run}

theorem truthful_start (job : Job) (items : List Node) : (job.start items).Truthful job.registry where
  bindings := truthful_collectBindings _ items
  trace := by intro step hstep; cases hstep

theorem truthful_refresh (h : run.Truthful job.registry) : (job.refresh run).Truthful job.registry :=
  h.binding (truthful_collectBindings _ run.body.items) rfl rfl

theorem keeps_truthful (job : Job) (budget index : Nat) :
    (telling job).Keeps Run.Idle (job.expandFrom budget index) fun run _ => run.Idle :=
  Discipline.keeps_expandFrom (d := telling job) (fun _ hi => ⟨hi.frame rfl rfl, trivial⟩) budget index

theorem truthful_runPass {a : Unit} (h : run.Truthful job.registry) (hidle : run.Idle)
    (hpass : job.runPass budget run = .ok a run') : run'.Truthful job.registry := by
  have hbegin : (beginPass run).Truthful job.registry := h.frame rfl rfl
  exact ((job.keeps_truthful budget 0).ok hbegin hidle hpass).1

theorem Reaches.truthful (h : job.Reaches budget items run) : run.Truthful job.registry := by
  induction h with
  | start => exact job.truthful_start items
  | pass h hpass ih => exact truthful_refresh (truthful_runPass ih h.fresh.idle hpass)

theorem Begins.truthful {level : Nat} {work : Work} (h : job.Begins budget items level work run) :
    run.Truthful job.registry := by
  have hstart : ∀ {run}, job.Reaches budget items run → (beginPass run).Truthful job.registry :=
    fun hreach => hreach.truthful.frame rfl rfl
  have hready := Discipline.begins (d := telling job) hstart
    (fun _ hi => ⟨hi.frame rfl rfl, trivial⟩) h
  exact hready.1

/-- The state that an expansion leaves is one behind a pass, or one in which a pass halts. -/
theorem Leaves.truthful (h : job.Leaves budget items run) : run.Truthful job.registry := by
  rcases h with ⟨passes, h⟩ | ⟨halt, h⟩
  · exact (reaches_of_expand h).truthful
  · rw [expand_of_bindings (bindings_of_expand h)] at h
    have step : ∀ {run a run'}, job.Reaches budget items run →
        job.runPass budget run = .ok a run' → job.Reaches budget items (job.refresh run') :=
      fun hreach hpass => hreach.pass hpass
    refine error_settle (E := fun _ run => run.Truthful job.registry) step ?_
      (fun _ hreach => hreach.truthful) .start (Option.some.inj h)
    intro run halt run' hreach hpass
    have hbegin : (beginPass run).Truthful job.registry := hreach.truthful.frame rfl rfl
    exact (job.keeps_truthful budget 0).error hbegin hreach.fresh.idle hpass

/-- A macro that a file is told not to have is one that its module does not have. -/
theorem Fails.truthful {work : Work} {name module file : String} {site : Option Site}
    (hrun : run.Truthful job.registry)
    (h : job.Fails work run (.unknownMacro name module file site) run') :
    job.registry.Lacks module name := by
  cases h with
  | unknown h =>
    obtain h | ⟨h, hmissing⟩ := h
    · exact truthful_resolveCall hrun.bindings h
    · have hlists : job.registry.Lists module name := truthful_resolveCall hrun.bindings h
      exact absurd hmissing hlists.find?_ne_none

/-- At every moment of an expansion, and in the state that it leaves, whether it ends well or halts,
every name that was bound stands for what is registered of its module. So what the trace of a file
names is registered, and a macro that is reported as unknown is one that a registered macro module does
not have. -/
theorem names_stand_for_registered (job : Job) (budget : Nat) (items : List Node) :
    (∀ {level work run}, job.Begins budget items level work run → run.Truthful job.registry) ∧
    (∀ {run}, job.Reaches budget items run → run.Truthful job.registry) ∧
    (∀ {run}, job.Leaves budget items run → run.Truthful job.registry) ∧
    (∀ output, (job.run budget).outcome = .ok (.transformed output) →
      ∀ step ∈ output.trace, job.registry.Lists step.module step.macroName) ∧
    ∀ name module file site,
      (job.run budget).outcome = .error (.failure (.unknownMacro name module file site)) →
      job.registry.Lacks module name := by
  refine ⟨Begins.truthful, Reaches.truthful, Leaves.truthful, fun output houtput => ?_, ?_⟩
  · obtain ⟨parsed, run, -, hexpand, -, htrace⟩ := outcome_eq_transformed.mp houtput
    have hleaves : job.Leaves budget parsed.items run := .inl ⟨output.passes, hexpand⟩
    rw [htrace]
    exact hleaves.truthful.trace
  · intro name module file site houtcome
    rcases outcome_eq_error.mp houtcome with ⟨failure, hparse, hfailure⟩ | ⟨parsed, run, -, hexpand⟩
    · obtain ⟨message, place, rfl⟩ := Source.error_parse hparse
      cases hfailure
    · rcases blames_expand hexpand with hlimit | ⟨number, -, level, work, run, run', h, -, hfails⟩
      · cases hlimit
      · exact hfails.truthful h.truthful

/-- A file with a task that imports another macro while it runs, under a name that its module does not
have, and with a call of a member that is no macro. -/
def naming : Job where
  registry := ⟨[("m", ⟨.macros
    [⟨"ask", .task fun _ => .stage fun _ _ workspace =>
      .ok (some ([.import 0], .stage fun _ _ workspace =>
        .ok none { workspace.toContext.remove with }))
        { workspace with edits := [.prependImports [.named "n" "gone"]] }, "", compatVersion⟩], []⟩),
    ("n", ⟨.macros [⟨"drop", .context fun _ => modify Context.remove, "", compatVersion⟩], []⟩)]⟩
  source := Source.ofPath "a.js"
    "import \x7b ask, lost \x7d from 'm';\nimport * as n from 'n';\nask();\nn.drop();\nn.keep();\n"

/-- Whether an expansion fails for an unknown macro of a name and a module, with some names bound. -/
def failsUnknown (name module : String) (bindings : List Binding) :
    Option (EStateM.Result Halt Run Nat) → Bool
  | some (.error (.failure (.unknownMacro name' module' _ _)) run) =>
    name' == name && module' == module && run.bindings == bindings
  | _ => false

theorem naming_stands_for_registered :
    (∃ module run, naming.source.parse = .ok module ∧ naming.Leaves 5 module.items run ∧
      run.bindings = [.named "ask" "m" "ask" (some "ask"), .named "lost" "m" "lost" none,
        .namespace "n" "n" ["drop"], .named "gone" "n" "gone" none] ∧
      run.Truthful naming.registry ∧ ∃ file site,
        (naming.run 5).outcome = .error (.failure (.unknownMacro "keep" "n" file site)) ∧
        naming.registry.Lacks "n" "keep") ∧
    (removing.run 3).outcome =
      .ok (.transformed ⟨"keep();\n", 1, [⟨1, "drop", "m", some ⟨2, 1⟩⟩]⟩) ∧
    removing.registry.Lists "m" "drop" := by
  have hends : (match naming.source.parse with
      | .ok module => failsUnknown "keep" "n"
          [.named "ask" "m" "ask" (some "ask"), .named "lost" "m" "lost" none,
            .namespace "n" "n" ["drop"], .named "gone" "n" "gone" none]
          (naming.expand 5 module.items)
      | .error _ => false) = true := by
    decide +kernel
  have hremoved : (removing.run 3).outcome =
      .ok (.transformed ⟨"keep();\n", 1, [⟨1, "drop", "m", some ⟨2, 1⟩⟩]⟩) := by
    decide +kernel
  obtain ⟨-, -, -, htrace, -⟩ := names_stand_for_registered removing 3 []
  refine ⟨?_, hremoved, htrace _ hremoved _ (List.mem_singleton_self _)⟩
  cases hparse : naming.source.parse with
  | error failure =>
    rw [hparse] at hends
    cases hends
  | ok module =>
    rw [hparse] at hends
    simp only at hends
    unfold failsUnknown at hends
    split at hends
    · next name module' file site run hexpand =>
      simp only [Bool.and_eq_true, beq_iff_eq] at hends
      obtain ⟨⟨rfl, rfl⟩, hbindings⟩ := hends
      obtain ⟨-, -, hleft, -, hunknown⟩ := names_stand_for_registered naming 5 module.items
      have hleaves : naming.Leaves 5 module.items run := .inr ⟨_, hexpand⟩
      have houtcome : (naming.run 5).outcome =
          .error (.failure (.unknownMacro "keep" "n" file site)) :=
        outcome_eq_error.mpr (.inr ⟨module, run, hparse, hexpand⟩)
      exact ⟨module, run, rfl, hleaves, hbindings, hleft hleaves, file, site, houtcome,
        hunknown _ _ _ _ houtcome⟩
    · cases hends

end Job

end CallExpander
