import CallExpander.Proofs.Expansion.Failing
import CallExpander.Proofs.Expansion.Invariant
import CallExpander.Proofs.Expansion.Limit

/-!
# Passes are counted as they are made

A pass counts the macros that it applies and writes each into the trace under its own number. So the
trace tells which passes applied something, and these are all passes up to the one before the last;
and the limit is met exactly if so many passes apply something each.
-/

namespace CallExpander

/-- Since a state, what was applied was counted and traced, under the number of the pass. -/
structure Run.Traced (first run : Run) : Prop where
  pass : run.pass = first.pass
  steps : ∃ steps, run.trace = first.trace ++ steps ∧ run.applied = first.applied + steps.length ∧
    ∀ step ∈ steps, step.pass = first.pass

namespace Run.Traced

variable {first run run' : Run}

theorem refl (run : Run) : run.Traced run := ⟨rfl, [], by simp, rfl, by simp⟩

theorem frame (h : first.Traced run) (hpass : run'.pass = run.pass)
    (happlied : run'.applied = run.applied) (htrace : run'.trace = run.trace) :
    first.Traced run' := by
  obtain ⟨steps, hsteps, hcount, hnumber⟩ := h.steps
  exact ⟨hpass.trans h.pass, steps, htrace.trans hsteps, happlied.trans hcount, hnumber⟩

theorem applying (h : first.Traced run) (name module : String) (location : Option Text.Location)
    (n : Node) : first.Traced (run.applying ⟨run.pass, name, module, location⟩ n) := by
  obtain ⟨steps, hsteps, hcount, hnumber⟩ := h.steps
  refine ⟨h.pass, steps ++ [⟨run.pass, name, module, location⟩], ?_, ?_, ?_⟩
  · simp [Run.applying, hsteps]
  · simp [Run.applying, hcount, Nat.add_assoc]
  · intro step hstep
    rcases List.mem_append.mp hstep with hstep | hstep
    · exact hnumber step hstep
    · rw [List.mem_singleton.mp hstep]
      exact h.pass

theorem withChanges (h : first.Traced run) (changes : Changes) :
    first.Traced (run.withChanges changes) := by
  have hedits : first.Traced (changes.edits.foldl Run.edit run) :=
    List.foldlRecOn changes.edits Run.edit h fun _ h _ _ => h.frame rfl rfl rfl
  exact hedits.frame rfl rfl rfl

end Run.Traced

/-- In a pass, applications are counted and traced. -/
def counting (job : Job) (first : Run) : Invariant job where
  holds := first.Traced
  given _ := True
  left _ := True
  task _ := True
  given_parts _ _ _ := trivial
  given_withArgs _ _ := trivial
  left_given _ := trivial
  left_args _ _ _ := trivial
  left_withArgs _ _ := trivial
  started _ _ := trivial
  walked _ h := h.frame rfl rfl rfl
  applying h _ _ _ := h.applying _ _ _ _
  withContext _ h := h.frame rfl rfl rfl
  helped h _ _ _ _ := h.withChanges _
  resumed h _ _ _ := ⟨h.withChanges _, trivial, fun _ _ _ => trivial⟩
  retiring h _ _ hnext := by
    obtain ⟨rest, -, rfl⟩ | ⟨body, -, -, rfl⟩ := Run.retiring?_cases hnext
    · exact h.frame rfl rfl rfl
    · exact h.frame rfl rfl rfl
  detach h _ := ⟨h.frame rfl rfl rfl, trivial⟩
  reattach _ h _ := h.frame rfl rfl rfl
  discard h _ := h.frame rfl rfl rfl

/-- A trace goes through the passes in their order, and has something from each of the first ones and
from no other. -/
structure Numbered (passes : Nat) (trace : List Step) : Prop where
  sorted : trace.Pairwise (·.pass ≤ ·.pass)
  exact : ∀ number, (∃ step ∈ trace, step.pass = number) ↔ 1 ≤ number ∧ number ≤ passes

theorem Numbered.nil : Numbered 0 [] := ⟨.nil, fun number => by simp; omega⟩

theorem Numbered.append {passes : Nat} {trace steps : List Step} (h : Numbered passes trace)
    (hsteps : steps ≠ []) (hnumber : ∀ step ∈ steps, step.pass = passes + 1) :
    Numbered (passes + 1) (trace ++ steps) where
  sorted := by
    refine List.pairwise_append.mpr ⟨h.sorted, ?_, fun a ha b hb => ?_⟩
    · exact List.pairwise_of_forall_mem_list fun a ha b hb => by rw [hnumber a ha, hnumber b hb]
    · have hle := ((h.exact a.pass).mp ⟨a, ha, rfl⟩).2
      rw [hnumber b hb]
      exact Nat.le_succ_of_le hle
  exact number := by
    constructor
    · rintro ⟨step, hstep, rfl⟩
      rcases List.mem_append.mp hstep with hstep | hstep
      · obtain ⟨hone, hle⟩ := (h.exact step.pass).mp ⟨step, hstep, rfl⟩
        exact ⟨hone, Nat.le_succ_of_le hle⟩
      · rw [hnumber step hstep]
        exact ⟨Nat.succ_pos passes, Nat.le_refl _⟩
    · rintro ⟨hone, hle⟩
      rcases Nat.lt_or_eq_of_le hle with hlt | rfl
      · obtain ⟨step, hstep, heq⟩ := (h.exact number).mpr ⟨hone, Nat.le_of_lt_succ hlt⟩
        exact ⟨step, List.mem_append_left _ hstep, heq⟩
      · obtain ⟨step, hstep⟩ := List.exists_mem_of_ne_nil steps hsteps
        exact ⟨step, List.mem_append_right _ hstep, hnumber step hstep⟩

theorem Numbered.eq_zero_iff {passes : Nat} {trace : List Step} (h : Numbered passes trace) :
    passes = 0 ↔ trace = [] := by
  constructor
  · rintro rfl
    refine List.eq_nil_iff_forall_not_mem.mpr fun step hstep => ?_
    obtain ⟨hone, hle⟩ := (h.exact step.pass).mp ⟨step, hstep, rfl⟩
    omega
  · rintro rfl
    by_contra hne
    obtain ⟨step, hstep, -⟩ := (h.exact passes).mpr ⟨Nat.pos_of_ne_zero hne, Nat.le_refl _⟩
    cases hstep

namespace Job

variable {job : Job} {budget n : Nat} {items : List Node} {run run' : Run}

/-- What a pass adds to the trace. -/
theorem trace_runPass {a : Unit} (hpass : job.runPass budget run = .ok a run') :
    ∃ steps, run'.trace = run.trace ++ steps ∧ run'.applied = steps.length ∧
      ∀ step ∈ steps, step.pass = run.pass + 1 := by
  have hkeeps := Invariant.keeps_expandFrom (counting job (beginPass run)) budget 0
  obtain ⟨⟨-, steps, htrace, happlied, hnumber⟩, -⟩ := hkeeps.ok (.refl (beginPass run)) hpass
  refine ⟨steps, htrace, ?_, hnumber⟩
  rw [happlied]
  exact Nat.zero_add _

theorem Rounds.numbered (h : job.Rounds budget items n run) : Numbered n run.trace := by
  induction h with
  | start => exact .nil
  | @pass n run run' a h hpass hbusy ih =>
    obtain ⟨steps, htrace, happlied, hnumber⟩ := trace_runPass hpass
    change Numbered (n + 1) run'.trace
    rw [htrace]
    refine ih.append ?_ fun step hstep => ?_
    · rintro rfl
      exact hbusy happlied
    · rw [hnumber step hstep, h.pass_eq]

/-- An expansion that ends well went through passes that applied something each, below the limit, and
one that did not. -/
theorem numbered_expand {passes : Nat} (h : job.expand budget items = some (.ok passes run)) :
    passes < job.options.effectiveMaxPasses ∧ Numbered passes run.trace := by
  obtain ⟨hlt, first, a, mid, hrounds, hpass, hquiet, rfl⟩ := rounds_of_expand h
  obtain ⟨steps, htrace, happlied, -⟩ := trace_runPass hpass
  have hnone : steps = [] := List.length_eq_zero_iff.mp (happlied.symm.trans hquiet)
  rw [hnone, List.append_nil] at htrace
  refine ⟨hlt, ?_⟩
  change Numbered passes mid.trace
  rw [htrace]
  exact hrounds.numbered

/-- The limit on passes is met exactly if so many passes apply something. -/
theorem expand_eq_passLimit {file : String} {maxPasses : Nat} :
    (∃ run, job.expand budget items = some (.error (.failure (.passLimit file maxPasses)) run)) ↔
      file = job.source.path ∧ maxPasses = job.options.effectiveMaxPasses ∧
        (job.start items).bindings ≠ [] ∧ ∃ run, job.Rounds budget items maxPasses run := by
  constructor
  · rintro ⟨run, h⟩
    have hbindings := bindings_of_expand h
    rcases rounds_cases job budget items job.options.effectiveMaxPasses with
      ⟨n, first, a, mid, hlt, hrounds, hpass, hquiet⟩ | ⟨n, first, halt, mid, hlt, hrounds, hpass⟩ |
      ⟨first, hrounds⟩
    · cases (hrounds.expand_of_quiet hbindings hlt hpass hquiet).symm.trans h
    -- Nothing that fails in a pass fails for the limit.
    · cases (hrounds.expand_of_error hbindings hlt hpass).symm.trans h
      obtain ⟨level, work, run, run', -, -, hfails⟩ := blames_walk (.pass hrounds.reaches) hpass
      cases hfails
    · cases (hrounds.expand_of_limit hbindings).symm.trans h
      exact ⟨rfl, rfl, hbindings, _, hrounds⟩
  · rintro ⟨rfl, rfl, hbindings, run, hrounds⟩
    exact ⟨run, hrounds.expand_of_limit hbindings⟩

/-- The passes that are reported are those that applied something: there are fewer than are allowed,
the trace goes through them in order, and each of them left something in it. The limit on passes is
reported exactly if all of those that are allowed are made, without an error, and apply something. -/
theorem passes_are_counted (job : Job) (budget : Nat) :
    (∀ output, (job.run budget).outcome = .ok (.transformed output) →
      output.passes < job.options.effectiveMaxPasses ∧
      output.trace.Pairwise (·.pass ≤ ·.pass) ∧
      (∀ number, (∃ step ∈ output.trace, step.pass = number) ↔
        1 ≤ number ∧ number ≤ output.passes) ∧
      (output.passes = 0 ↔ output.trace = [])) ∧
    ∀ file maxPasses, (job.run budget).outcome = .error (.failure (.passLimit file maxPasses)) ↔
      file = job.source.path ∧ maxPasses = max 2 job.options.maxPasses ∧
      ∃ module, job.source.parse = .ok module ∧ (job.start module.items).bindings ≠ [] ∧
        ∃ run, job.Rounds budget module.items maxPasses run := by
  have hmax : job.options.effectiveMaxPasses = max 2 job.options.maxPasses := Nat.max_comm _ _
  constructor
  · intro output h
    obtain ⟨module, run, -, hexpand, -, htrace⟩ := outcome_eq_transformed.mp h
    obtain ⟨hlt, hnumbered⟩ := numbered_expand hexpand
    rw [htrace]
    exact ⟨hlt, hnumbered.sorted, hnumbered.exact, hnumbered.eq_zero_iff⟩
  · intro file maxPasses
    rw [outcome_eq_error, ← hmax]
    constructor
    · rintro (⟨failure, hparse, hfailure⟩ | ⟨module, run, hparse, hexpand⟩)
      · obtain ⟨message, site, rfl⟩ := Source.error_parse hparse
        cases hfailure
      · obtain ⟨hfile, hlimit, hbindings, hrounds⟩ := expand_eq_passLimit.mp ⟨run, hexpand⟩
        exact ⟨hfile, hlimit, module, hparse, hbindings, hrounds⟩
    · rintro ⟨hfile, hlimit, module, hparse, hbindings, hrounds⟩
      obtain ⟨run, hexpand⟩ := expand_eq_passLimit.mpr ⟨hfile, hlimit, hbindings, hrounds⟩
      exact .inr ⟨module, run, hparse, hexpand⟩

/-- With enough passes, what becomes of the file whose macro waits for two of them. -/
def lingered : Output where
  code := "keep();\n"
  passes := 3
  trace := [⟨1, "wait", "m", some ⟨2, 1⟩⟩, ⟨2, "wait", "m", some ⟨2, 1⟩⟩,
    ⟨3, "wait", "m", some ⟨2, 1⟩⟩]

theorem lingering_passes_are_counted :
    (lingered.passes < 4 ∧ lingered.trace.Pairwise (·.pass ≤ ·.pass) ∧
      (∀ number, (∃ step ∈ lingered.trace, step.pass = number) ↔
        1 ≤ number ∧ number ≤ lingered.passes) ∧
      (lingered.passes = 0 ↔ lingered.trace = [])) ∧
    ∃ module, lingering.source.parse = .ok module ∧ (lingering.start module.items).bindings ≠ [] ∧
      ∃ run, lingering.Rounds 4 module.items 2 run := by
  have hlimit : (lingering.run 4).outcome = .error (.failure (.passLimit "a.js" 2)) := by
    decide +kernel
  have houtput : ((lingering.withMaxPasses 4).run 4).outcome = .ok (.transformed lingered) := by
    decide +kernel
  obtain ⟨-, -, hrounds⟩ := ((passes_are_counted lingering 4).2 "a.js" 2).mp hlimit
  exact ⟨(passes_are_counted (lingering.withMaxPasses 4) 4).1 lingered houtput, hrounds⟩

end Job

end CallExpander
