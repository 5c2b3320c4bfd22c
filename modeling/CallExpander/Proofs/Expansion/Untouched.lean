import CallExpander.Proofs.Expansion.Rounds

/-!
# Files that are left alone

A file is left alone exactly if it imports no value from a macro module. An expansion that ends well has
retired every macro import behind its last pass, also those that handlers brought in, and what remains of
a retired import imports types or nothing. So its result is a file that is left alone.
-/

namespace CallExpander

open Node

/-- An item imports a value from a macro module. -/
def Node.ImportsValue (registry : Registry) (item : Node) : Prop :=
  ∃ decl, item.importDecl? = some decl ∧ decl.typeOnly = false ∧
    (registry.macros? decl.source.value).isSome = true ∧
    ∃ s ∈ decl.specifiers, Binding.isTypeOnly s = false

variable {registry : Registry} {keepImports : Bool} {item : Node} {items : List Node}

theorem ofDecl_eq_nil {decl : ImportDecl} {macros : List String} :
    Binding.ofDecl decl macros = [] ↔ ∀ s ∈ decl.specifiers, Binding.isTypeOnly s = true := by
  simp [Binding.ofDecl, List.filter_eq_nil_iff]

/-- Retiring an item binds names exactly if it imports a value. -/
theorem importsValue_iff_retired : item.ImportsValue registry ↔
    ∃ retired, retireImport registry.exports keepImports item = some retired ∧
      retired.bindings ≠ [] := by
  unfold retireImport
  constructor
  · rintro ⟨decl, hdecl, htype, hmodule, s, hs, hvalue⟩
    obtain ⟨macros, hmacros⟩ := Option.isSome_iff_exists.mp hmodule
    have hexports : registry.exports decl.source.value = some (macros.map (·.name)) := by
      simp [Registry.exports, hmacros]
    simp only [hdecl, htype, hexports, Bool.false_eq_true, if_false]
    refine ⟨_, rfl, fun hnil => ?_⟩
    have hall := ofDecl_eq_nil.mp hnil s hs
    rw [hvalue] at hall
    cases hall
  · rintro ⟨retired, hretired, hbindings⟩
    split at hretired
    · cases hretired
    next decl hdecl =>
    split at hretired
    · cases hretired
    next htype =>
    split at hretired
    · cases hretired
    next names hexports =>
    cases hretired
    obtain ⟨macros, hmacros, -⟩ := Option.map_eq_some_iff.mp hexports
    have hvalue : ∃ s ∈ decl.specifiers, Binding.isTypeOnly s = false := by
      by_contra hnone
      refine hbindings (ofDecl_eq_nil.mpr fun s hs => ?_)
      cases htypeOnly : Binding.isTypeOnly s with
      | true => rfl
      | false => exact absurd ⟨s, hs, htypeOnly⟩ hnone
    exact ⟨decl, hdecl, by simpa using htype, by simp [hmacros], hvalue⟩

/-- What has nothing left to retire imports no value, and neither does it where imports are kept. -/
theorem not_importsValue_of_spent (h : Retired.Spent registry.exports keepImports item) :
    ¬ item.ImportsValue registry := by
  intro hvalue
  obtain ⟨retired, hretired, hbindings⟩ := importsValue_iff_retired.mp hvalue
  rcases h with h | h
  · cases h.symm.trans hretired
  · cases h.symm.trans hretired
    exact hbindings rfl

theorem collectBindings_eq_nil : (collectBindings registry.exports keepImports items).1 = [] ↔
    ∀ item ∈ items, ¬ item.ImportsValue registry := by
  induction items with
  | nil => simp [collectBindings]
  | cons item rest ih =>
    rw [List.forall_mem_cons, ← ih]
    have hitem : item.ImportsValue registry ↔
        ∃ retired, retireImport registry.exports keepImports item = some retired ∧
          retired.bindings ≠ [] := importsValue_iff_retired
    cases hretired : retireImport registry.exports keepImports item with
    | none => simp [collectBindings, hitem, hretired]
    | some retired => simp [collectBindings, hitem, hretired]

namespace Job

variable {job : Job} {budget passes : Nat} {run : Run}

/-- A program is left alone exactly if it imports no value from a macro module. -/
theorem expand_eq_none : job.expand budget items = none ↔
    ∀ item ∈ items, ¬ item.ImportsValue job.registry := by
  have hstart : (job.start items).bindings = [] ↔ ∀ item ∈ items, ¬ item.ImportsValue job.registry :=
    collectBindings_eq_nil
  rw [← hstart]
  constructor
  · intro h
    by_contra hbindings
    cases (expand_of_bindings hbindings).symm.trans h
  · intro h
    unfold expand
    simp [h]

/-- Exactly the files that import no value from a macro module are left alone, and what an expansion
ends with is left alone by every other with the same macros, whatever its settings are. -/
theorem untouched_iff_imports_no_value (job : Job) (budget : Nat) :
    (∀ items, job.expand budget items = none ↔ ∀ item ∈ items, ¬ item.ImportsValue job.registry) ∧
    ((job.run budget).outcome = .ok .untouched ↔ ∃ module, job.source.parse = .ok module ∧
      ∀ item ∈ module.items, ¬ item.ImportsValue job.registry) ∧
    (∀ items passes run, job.expand budget items = some (.ok passes run) →
      ∀ again : Job, again.registry = job.registry → ∀ budget',
        again.expand budget' run.body.items = none) ∧
    ∀ output, (job.run budget).outcome = .ok (.transformed output) →
      ∃ module run, job.source.parse = .ok module ∧
        job.expand budget module.items = some (.ok output.passes run) ∧
        output.code = Code.printModule { module with items := run.body.items } ∧
        ∀ again : Job, again.registry = job.registry → ∀ budget',
          again.expand budget' run.body.items = none := by
  have hagain : ∀ items passes run, job.expand budget items = some (.ok passes run) →
      ∀ again : Job, again.registry = job.registry → ∀ budget',
        again.expand budget' run.body.items = none := by
    intro items passes run h again hregistry budget'
    rw [expand_eq_none, hregistry]
    intro item hitem
    exact not_importsValue_of_spent ((reaches_of_expand h).fresh.spent item hitem)
  refine ⟨fun items => expand_eq_none, ?_, hagain, fun output houtput => ?_⟩
  · unfold Job.run
    cases hparse : job.source.parse with
    | error failure => simp
    | ok module =>
      have hnone : job.expand budget module.items = none ↔ _ := expand_eq_none
      simp only [Except.ok.injEq, exists_eq_left', ← hnone]
      cases hexpand : job.expand budget module.items with
      | none => simp
      | some result => cases result <;> simp
  · obtain ⟨module, run, hparse, hexpand, hcode, -⟩ := outcome_eq_transformed.mp houtput
    exact ⟨module, run, hparse, hexpand, hcode, hagain _ _ _ hexpand⟩

/-- A file that keeps its imports, with a macro that brings in another import of its own module and one
that is bare. -/
def resting : Job where
  registry := ⟨[("m", ⟨.macros
    [⟨"add", .helper fun _ _ _ workspace => .ok () { workspace.toContext.remove with
      edits := [.prependImports [.default "m" "all"], .appendImports [.bare "m"]] },
      "", compatVersion⟩], []⟩)]⟩
  source := Source.ofPath "a.ts"
    "import \x7b add, type T \x7d from 'm';\nimport type \x7b U \x7d from 'm';\nadd();\n"
  options := { keepImports := true }

def rested : Output where
  code := "import \"m\";\nimport \x7b type T \x7d from 'm';\nimport type \x7b U \x7d from 'm';\n" ++
    "import \"m\";\n"
  passes := 1
  trace := [⟨1, "add", "m", some ⟨3, 1⟩⟩]

theorem resting_is_left_alone : (resting.run 5).outcome = .ok (.transformed rested) ∧
    ∃ module run, resting.source.parse = .ok module ∧
      resting.expand 5 module.items = some (.ok 1 run) ∧
      rested.code = Code.printModule { module with items := run.body.items } ∧
      ∀ again : Job, again.registry = resting.registry → ∀ budget',
        again.expand budget' run.body.items = none := by
  have houtcome : (resting.run 5).outcome = .ok (.transformed rested) := by
    decide +kernel
  obtain ⟨-, -, -, hagain⟩ := untouched_iff_imports_no_value resting 5
  exact ⟨houtcome, hagain rested houtcome⟩

end Job

end CallExpander
