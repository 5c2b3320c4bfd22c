import CallExpander.Proofs.Expansion.Termination

/-!
# Pass by pass

An expansion goes on for as long as its passes apply macros. Which passes there are follows from the
program alone; the limit on passes only says how many of them are made. What becomes of the file is
decided by the first pass that applies nothing or halts, or by the limit if there is none before it.
-/

namespace CallExpander

/-! ## What becomes of a file -/

theorem Source.error_parse {source : Source} {failure : Failure} (h : source.parse = .error failure) :
    ∃ message site, failure = .parse source.path message site := by
  unfold Source.parse at h
  split at h
  · cases h
  · cases h
    exact ⟨_, _, rfl⟩

namespace Job

variable {job : Job} {budget : Nat}

theorem outcome_eq_transformed {output : Output} :
    (job.run budget).outcome = .ok (.transformed output) ↔
      ∃ module run, job.source.parse = .ok module ∧
        job.expand budget module.items = some (.ok output.passes run) ∧
        output.code = Code.printModule { module with items := run.body.items } ∧
        output.trace = run.trace := by
  unfold Job.run
  constructor
  · intro h
    split at h
    · cases h
    next module hparse =>
    split at h
    · cases h
    · cases h
    next passes run hexpand =>
    cases h
    exact ⟨module, run, hparse, hexpand, rfl, rfl⟩
  · rintro ⟨module, run, hparse, hexpand, hcode, htrace⟩
    obtain ⟨code, passes, trace⟩ := output
    subst hcode htrace
    simp only [hparse, hexpand]

theorem outcome_eq_error {halt : Halt} :
    (job.run budget).outcome = .error halt ↔
      (∃ failure, job.source.parse = .error failure ∧ halt = .failure failure) ∨
      ∃ module run, job.source.parse = .ok module ∧
        job.expand budget module.items = some (.error halt run) := by
  unfold Job.run
  constructor
  · intro h
    split at h
    · next failure hparse =>
      cases h
      exact .inl ⟨failure, hparse, rfl⟩
    next module hparse =>
    split at h
    · cases h
    · next halt run hexpand =>
      cases h
      exact .inr ⟨module, run, hparse, hexpand⟩
    · cases h
  · rintro (⟨failure, hparse, rfl⟩ | ⟨module, run, hparse, hexpand⟩)
    · simp only [hparse]
    · simp only [hparse, hexpand]

theorem run_of_parse_error {failure : Failure} (hparse : job.source.parse = .error failure) :
    job.run budget = { outcome := .error (.failure failure) } := by
  unfold Job.run
  simp only [hparse]

theorem run_of_none {module : Code.Module} (hparse : job.source.parse = .ok module)
    (h : job.expand budget module.items = none) :
    job.run budget = { outcome := .ok .untouched } := by
  unfold Job.run
  simp only [hparse, h]

theorem run_of_error {module : Code.Module} {halt : Halt} {run : Run}
    (hparse : job.source.parse = .ok module)
    (h : job.expand budget module.items = some (.error halt run)) :
    job.run budget = { outcome := .error halt, notes := run.notes } := by
  unfold Job.run
  simp only [hparse, h]

theorem run_of_ok {module : Code.Module} {passes : Nat} {run : Run}
    (hparse : job.source.parse = .ok module)
    (h : job.expand budget module.items = some (.ok passes run)) :
    job.run budget =
      { outcome := .ok (.transformed
          ⟨Code.printModule { module with items := run.body.items }, passes, run.trace⟩)
        notes := run.notes } := by
  unfold Job.run
  simp only [hparse, h]

/-- A file without macro imports is left alone, and no other is. -/
theorem expand_of_bindings {items : List Node} (h : (job.start items).bindings ≠ []) :
    job.expand budget items =
      some (job.settle budget job.options.effectiveMaxPasses 0 (job.start items)) := by
  have hfalse : (job.start items).bindings.isEmpty = false := by
    simpa using h
  unfold expand
  simp only [hfalse, Bool.false_eq_true, if_false]

theorem bindings_of_expand {items : List Node} {result : EStateM.Result Halt Run Nat}
    (h : job.expand budget items = some result) : (job.start items).bindings ≠ [] := by
  intro hnil
  unfold expand at h
  simp only [hnil, List.isEmpty_nil, if_true] at h
  cases h

/-! ## Passes that apply something -/

variable {items : List Node} {n : Nat} {run : Run}

/-- So many passes ended well and applied something each, and the next one starts in a state. -/
inductive Rounds (job : Job) (budget : Nat) (items : List Node) : Nat → Run → Prop
  | start : Rounds job budget items 0 (job.start items)
  | pass {n : Nat} {run run' : Run} {a : Unit} (h : Rounds job budget items n run)
      (hpass : job.runPass budget run = .ok a run') (hbusy : run'.applied ≠ 0) :
      Rounds job budget items (n + 1) (job.refresh run')

theorem Rounds.reaches (h : job.Rounds budget items n run) : job.Reaches budget items run := by
  induction h with
  | start => exact .start
  | pass _ hpass _ ih => exact .pass ih hpass

/-- What an expansion does behind some passes does not depend on them. -/
theorem Rounds.settle_eq (h : job.Rounds budget items n run) (remaining : Nat) :
    job.settle budget (remaining + n) 0 (job.start items) = job.settle budget remaining n run := by
  induction h generalizing remaining with
  | start => rfl
  | @pass n run run' a _ hpass hbusy ih =>
    have hshift : remaining + (n + 1) = remaining + 1 + n := by omega
    rw [hshift, ih (remaining + 1), settle_succ, Expansion.bind_of_ok hpass]
    exact if_neg hbusy

theorem Rounds.expand_eq (h : job.Rounds budget items n run)
    (hbindings : (job.start items).bindings ≠ []) (hle : n ≤ job.options.effectiveMaxPasses) :
    job.expand budget items =
      some (job.settle budget (job.options.effectiveMaxPasses - n) n run) := by
  rw [expand_of_bindings hbindings, ← h.settle_eq, Nat.sub_add_cancel hle]

/-- The pass behind some others decides what becomes of the file unless it applies something. -/
theorem Rounds.expand_of_lt (h : job.Rounds budget items n run)
    (hbindings : (job.start items).bindings ≠ []) (hlt : n < job.options.effectiveMaxPasses) :
    ∃ remaining, job.expand budget items =
      some ((job.runPass budget >>= fun _ => job.afterPass budget remaining n) run) := by
  obtain ⟨remaining, hremaining⟩ := Nat.exists_eq_add_of_lt hlt
  refine ⟨remaining, ?_⟩
  have hleft : job.options.effectiveMaxPasses - n = remaining + 1 := by omega
  rw [h.expand_eq hbindings (Nat.le_of_lt hlt), hleft, settle_succ]

theorem Rounds.expand_of_quiet (h : job.Rounds budget items n run)
    (hbindings : (job.start items).bindings ≠ []) (hlt : n < job.options.effectiveMaxPasses)
    {a : Unit} {run' : Run} (hpass : job.runPass budget run = .ok a run')
    (hquiet : run'.applied = 0) : job.expand budget items = some (.ok n (job.refresh run')) := by
  obtain ⟨remaining, hexpand⟩ := h.expand_of_lt hbindings hlt
  rw [hexpand, Expansion.bind_of_ok hpass]
  exact congrArg some (if_pos hquiet)

theorem Rounds.expand_of_error (h : job.Rounds budget items n run)
    (hbindings : (job.start items).bindings ≠ []) (hlt : n < job.options.effectiveMaxPasses)
    {halt : Halt} {run' : Run} (hpass : job.runPass budget run = .error halt run') :
    job.expand budget items = some (.error halt run') := by
  obtain ⟨remaining, hexpand⟩ := h.expand_of_lt hbindings hlt
  rw [hexpand, Expansion.bind_of_error hpass]

theorem Rounds.expand_of_limit (h : job.Rounds budget items job.options.effectiveMaxPasses run)
    (hbindings : (job.start items).bindings ≠ []) :
    job.expand budget items = some (.error
      (.failure (.passLimit job.source.path job.options.effectiveMaxPasses)) run) := by
  rw [h.expand_eq hbindings (Nat.le_refl _), Nat.sub_self]
  rfl

/-- Some pass below a limit applies nothing or halts, or all of them are made. -/
theorem rounds_cases (job : Job) (budget : Nat) (items : List Node) (limit : Nat) :
    (∃ n run a run', n < limit ∧ job.Rounds budget items n run ∧
      job.runPass budget run = .ok a run' ∧ run'.applied = 0) ∨
    (∃ n run halt run', n < limit ∧ job.Rounds budget items n run ∧
      job.runPass budget run = .error halt run') ∨
    ∃ run, job.Rounds budget items limit run := by
  induction limit with
  | zero => exact .inr (.inr ⟨_, .start⟩)
  | succ limit ih =>
    rcases ih with ⟨n, run, a, run', hlt, h⟩ | ⟨n, run, halt, run', hlt, h⟩ | ⟨run, h⟩
    · exact .inl ⟨n, run, a, run', Nat.lt_succ_of_lt hlt, h⟩
    · exact .inr (.inl ⟨n, run, halt, run', Nat.lt_succ_of_lt hlt, h⟩)
    · cases hpass : job.runPass budget run with
      | error halt run' => exact .inr (.inl ⟨limit, run, halt, run', Nat.lt_succ_self _, h, hpass⟩)
      | ok a run' =>
        by_cases hquiet : run'.applied = 0
        · exact .inl ⟨limit, run, a, run', Nat.lt_succ_self _, h, hpass, hquiet⟩
        · exact .inr (.inr ⟨_, h.pass hpass hquiet⟩)

/-- An expansion that ends well counted the passes that applied something, and ends with the refresh behind
one that applied nothing. -/
theorem rounds_of_expand {passes : Nat} (h : job.expand budget items = some (.ok passes run)) :
    passes < job.options.effectiveMaxPasses ∧ ∃ first a mid, job.Rounds budget items passes first ∧
      job.runPass budget first = .ok a mid ∧ mid.applied = 0 ∧ run = job.refresh mid := by
  have hbindings := bindings_of_expand h
  rcases rounds_cases job budget items job.options.effectiveMaxPasses with
    ⟨n, first, a, mid, hlt, hrounds, hpass, hquiet⟩ | ⟨n, first, halt, mid, hlt, hrounds, hpass⟩ |
    ⟨first, hrounds⟩
  · cases (hrounds.expand_of_quiet hbindings hlt hpass hquiet).symm.trans h
    exact ⟨hlt, first, a, mid, hrounds, hpass, hquiet, rfl⟩
  · cases (hrounds.expand_of_error hbindings hlt hpass).symm.trans h
  · cases (hrounds.expand_of_limit hbindings).symm.trans h

theorem reaches_of_expand {passes : Nat} (h : job.expand budget items = some (.ok passes run)) :
    job.Reaches budget items run := by
  obtain ⟨-, first, a, mid, hrounds, hpass, -, rfl⟩ := rounds_of_expand h
  exact .pass hrounds.reaches hpass

/-! ## Passes by number -/

/-- The pass with a number is made: the file imports macros, and so few passes before it all applied
something. -/
def MakesPass (job : Job) (budget : Nat) (items : List Node) (number : Nat) : Prop :=
  (job.start items).bindings ≠ [] ∧ ∃ n run, number = n + 1 ∧ n < job.options.effectiveMaxPasses ∧
    job.Rounds budget items n run

theorem pass_runPass {a : Unit} {run' : Run} (hidle : run.Idle)
    (hpass : job.runPass budget run = .ok a run') : run'.pass = run.pass + 1 := by
  have hbegin : (beginPass run).Idle := hidle
  obtain ⟨-, hr, -⟩ := (job.grows_expandFrom budget 0).ok hbegin.sound hbegin hpass
  exact hr.1.pass

theorem Rounds.pass_eq (h : job.Rounds budget items n run) : run.pass = n := by
  induction h with
  | start => rfl
  | pass h hpass _ ih =>
    have hnext := pass_runPass h.reaches.fresh.idle hpass
    exact hnext.trans (congrArg (· + 1) ih)

/-- The number of passes before it determines the state in which a pass starts. -/
theorem Reaches.eq_of_pass {run' : Run} (h : job.Reaches budget items run)
    (h' : job.Reaches budget items run') (heq : run.pass = run'.pass) : run = run' := by
  -- Both go back pass by pass; the numbers tell that they get to the start together.
  induction h generalizing run' with
  | start =>
    cases h' with
    | start => rfl
    | pass h' hpass' =>
      have hnext := pass_runPass h'.fresh.idle hpass'
      have hzero : 0 = _ := heq.trans hnext
      omega
  | pass h hpass ih =>
    have hnext := pass_runPass h.fresh.idle hpass
    cases h' with
    | start =>
      have hzero : _ = 0 := hnext.symm.trans heq
      omega
    | pass h' hpass' =>
      have hnext' := pass_runPass h'.fresh.idle hpass'
      have hsame := ih h' (Nat.succ.inj (hnext.symm.trans (heq.trans hnext')))
      subst hsame
      cases hpass.symm.trans hpass'
      rfl

end Job

end CallExpander
