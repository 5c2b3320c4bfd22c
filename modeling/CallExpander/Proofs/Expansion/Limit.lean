import CallExpander.Proofs.Expansion.Rounds

/-!
# The limit on passes

Nothing that a pass does depends on how many passes are allowed. Two expansions of a file that differ
in their limits go through the same passes, up to the lower limit; so an expansion that settles below
a limit settles in the same way below every higher one.
-/

namespace CallExpander

namespace Job

variable {job : Job}

/-- The same expansion with another number of passes asked for. -/
def withMaxPasses (job : Job) (limit : Nat) : Job :=
  { job with options := { job.options with maxPasses := limit } }

theorem visit_withMaxPasses (job : Job) (limit : Nat) (w : Walker) :
    (job.withMaxPasses limit).visit w = job.visit w := by
  delta visit
  rfl

theorem fulfilAll_withMaxPasses (job : Job) (limit : Nat) (w : Walker) (invocation : Invocation)
    (n : Node) (requests : List Request) :
    (job.withMaxPasses limit).fulfilAll w invocation n requests =
      job.fulfilAll w invocation n requests := by
  induction requests generalizing n with
  | nil => rfl
  | cons request rest ih =>
    have hone : (job.withMaxPasses limit).fulfil w invocation n request =
        job.fulfil w invocation n request := by
      cases request <;> rfl
    simp only [fulfilAll, hone, ih]

theorem drive_withMaxPasses (job : Job) (limit : Nat) (w : Walker) (invocation : Invocation)
    (task : Task) (n : Node) :
    (job.withMaxPasses limit).drive w invocation task n = job.drive w invocation task n := by
  simp only [drive, fulfilAll_withMaxPasses]
  rfl

theorem walker_withMaxPasses (job : Job) (limit budget : Nat) :
    (job.withMaxPasses limit).walker budget = job.walker budget := by
  induction budget with
  | zero => rfl
  | succ budget ih =>
    have hexpand : (job.withMaxPasses limit).expandItem (job.walker budget) =
        job.expandItem (job.walker budget) := by
      unfold expandItem
      rw [visit_withMaxPasses]
    simp only [walker, ih, visit_withMaxPasses, hexpand, drive_withMaxPasses]

theorem expandFrom_withMaxPasses (job : Job) (limit budget index : Nat) :
    (job.withMaxPasses limit).expandFrom budget index = job.expandFrom budget index := by
  induction budget generalizing index with
  | zero => rfl
  | succ budget ih => simp only [expandFrom, walker_withMaxPasses, ih]

theorem runPass_withMaxPasses (job : Job) (limit budget : Nat) :
    (job.withMaxPasses limit).runPass budget = job.runPass budget := by
  rw [runPass, runPass, expandFrom_withMaxPasses]

/-- Passes that applied something are counted on. -/
theorem count_le_of_settle {budget remaining count passes : Nat} {run run' : Run}
    (h : job.settle budget remaining count run = .ok passes run') : count ≤ passes := by
  induction remaining generalizing count run with
  | zero => cases h
  | succ remaining ih =>
    rw [settle_succ] at h
    obtain ⟨a, mid, -, rest⟩ := Expansion.ok_bind h
    unfold afterPass at rest
    split at rest
    · cases rest
      exact Nat.le_refl _
    · exact Nat.le_of_succ_le (ih rest)

theorem Rounds.withMaxPasses {budget n : Nat} {items : List Node} {run : Run}
    (h : job.Rounds budget items n run) (limit : Nat) :
    (job.withMaxPasses limit).Rounds budget items n run := by
  induction h with
  | start => exact .start
  | pass _ hpass hbusy ih =>
    rw [← runPass_withMaxPasses job limit] at hpass
    exact ih.pass hpass hbusy

/-- An expansion with a higher limit is the same, or all passes below the lower one are made and apply
something. -/
theorem expand_withMaxPasses (job : Job) (limit budget : Nat) (items : List Node)
    (hle : job.options.effectiveMaxPasses ≤ (job.withMaxPasses limit).options.effectiveMaxPasses) :
    (job.withMaxPasses limit).expand budget items = job.expand budget items ∨
      (∃ run, job.expand budget items = some (.error
        (.failure (.passLimit job.source.path job.options.effectiveMaxPasses)) run)) ∧
      ∀ passes run, (job.withMaxPasses limit).expand budget items = some (.ok passes run) →
        job.options.effectiveMaxPasses ≤ passes := by
  by_cases hbindings : (job.start items).bindings = []
  · have hbindings' : ((job.withMaxPasses limit).start items).bindings = [] := hbindings
    left
    simp only [expand, hbindings, hbindings', List.isEmpty_nil, if_true]
  -- Whatever decides below the lower limit is there with the higher one, too.
  rcases rounds_cases job budget items job.options.effectiveMaxPasses with
    ⟨n, run, a, run', hlt, h, hpass, hquiet⟩ | ⟨n, run, halt, run', hlt, h, hpass⟩ | ⟨run, h⟩
  · left
    have hpass' := hpass
    rw [← runPass_withMaxPasses job limit] at hpass'
    rw [h.expand_of_quiet hbindings hlt hpass hquiet, (h.withMaxPasses limit).expand_of_quiet
      hbindings (Nat.lt_of_lt_of_le hlt hle) hpass' hquiet]
    rfl
  · left
    have hpass' := hpass
    rw [← runPass_withMaxPasses job limit] at hpass'
    rw [h.expand_of_error hbindings hlt hpass, (h.withMaxPasses limit).expand_of_error
      hbindings (Nat.lt_of_lt_of_le hlt hle) hpass']
  · refine .inr ⟨⟨run, h.expand_of_limit hbindings⟩, fun passes run' hexpand => ?_⟩
    rw [(h.withMaxPasses limit).expand_eq hbindings hle] at hexpand
    exact count_le_of_settle (Option.some.inj hexpand)

/-- A higher limit on passes does not change what becomes of a file, unless the lower one was not
enough; and then at least so many passes apply something. -/
theorem run_withMaxPasses (job : Job) (limit budget : Nat)
    (hle : job.options.effectiveMaxPasses ≤ (job.withMaxPasses limit).options.effectiveMaxPasses) :
    ((∀ file maxPasses,
        (job.run budget).outcome ≠ .error (.failure (.passLimit file maxPasses))) →
      (job.withMaxPasses limit).run budget = job.run budget) ∧
    ((∃ file maxPasses,
        (job.run budget).outcome = .error (.failure (.passLimit file maxPasses))) →
      ∀ output, ((job.withMaxPasses limit).run budget).outcome = .ok (.transformed output) →
        job.options.effectiveMaxPasses ≤ output.passes) := by
  have hparse : (job.withMaxPasses limit).source.parse = job.source.parse := rfl
  constructor
  · intro hsettled
    unfold Job.run
    rw [hparse]
    cases hmodule : job.source.parse with
    | error failure => rfl
    | ok module =>
      rcases expand_withMaxPasses job limit budget module.items hle with heq | ⟨⟨run, hlimit⟩, -⟩
      · simp only [heq]
      · exact absurd (outcome_eq_error.mpr (.inr ⟨module, run, hmodule, hlimit⟩)) (hsettled _ _)
  · rintro ⟨file, maxPasses, hlimit⟩ output houtput
    obtain ⟨module, run, hmodule, hexpand, -⟩ := outcome_eq_transformed.mp houtput
    rcases outcome_eq_error.mp hlimit with ⟨failure, hfailure, -⟩ | ⟨module', run', hmodule', hstop⟩
    · rw [← hparse, hmodule] at hfailure
      cases hfailure
    rw [hparse] at hmodule
    obtain rfl : module = module' := Except.ok.inj (hmodule.symm.trans hmodule')
    rcases expand_withMaxPasses job limit budget module.items hle with heq | ⟨-, hpasses⟩
    · rw [heq, hstop] at hexpand
      cases hexpand
    · exact hpasses _ run hexpand

/-- A file whose macro stays where it is for two passes, and removes its call in the third. -/
def lingering : Job where
  registry := ⟨[("m", ⟨.macros [⟨"wait", .context fun _ context =>
    if context.fileState.getInt? "waited" = some 2 then .ok () context.remove
    else .ok () { context with fileState := (context.fileState.act "waited" .bump).2 },
    "", compatVersion⟩], []⟩)]⟩
  source := Source.ofPath "a.js" "import \x7b wait \x7d from 'm';\nwait();\nkeep();\n"
  options := { maxPasses := 2 }

theorem lingering_withMaxPasses :
    lingering.options.effectiveMaxPasses = 2 ∧
    (lingering.run 4).outcome = .error (.failure (.passLimit "a.js" 2)) ∧
    ((lingering.withMaxPasses 4).run 4).outcome = .ok (.transformed ⟨"keep();\n", 3,
      [⟨1, "wait", "m", some ⟨2, 1⟩⟩, ⟨2, "wait", "m", some ⟨2, 1⟩⟩,
        ⟨3, "wait", "m", some ⟨2, 1⟩⟩]⟩) ∧ 2 ≤ 3 ∧
    ((lingering.withMaxPasses 4).withMaxPasses 9).run 4 = (lingering.withMaxPasses 4).run 4 := by
  have hlow : (lingering.run 4).outcome = .error (.failure (.passLimit "a.js" 2)) := by
    decide +kernel
  have hhigh : ((lingering.withMaxPasses 4).run 4).outcome = .ok (.transformed ⟨"keep();\n", 3,
      [⟨1, "wait", "m", some ⟨2, 1⟩⟩, ⟨2, "wait", "m", some ⟨2, 1⟩⟩,
        ⟨3, "wait", "m", some ⟨2, 1⟩⟩]⟩) := by
    decide +kernel
  obtain ⟨-, hpasses⟩ := run_withMaxPasses lingering 4 4 (by decide)
  obtain ⟨hsame, -⟩ := run_withMaxPasses (lingering.withMaxPasses 4) 9 4 (by decide)
  refine ⟨rfl, hlow, hhigh, hpasses ⟨_, _, hlow⟩ _ hhigh, hsame ?_⟩
  intro file maxPasses h
  rw [hhigh] at h
  cases h

end Job

end CallExpander
