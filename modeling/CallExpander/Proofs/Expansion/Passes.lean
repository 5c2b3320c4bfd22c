import CallExpander.Proofs.Expansion.Growth

/-!
# Passes

A pass takes up one item after the other, and passes follow one another with a refresh between
them. What holds when an item is taken up and survives expanding it holds at the end of the pass;
what holds at the start of a pass and survives pass and refresh holds at the end of the expansion.
-/

namespace CallExpander

namespace Job

variable {job : Job} {run run' : Run} {halt : Halt}

/-- A walk over the items that ends well is at its end, or takes up an item and goes on. -/
theorem ok_expandFrom_succ {budget index : Nat} {a : Unit}
    (h : job.expandFrom (budget + 1) index run = .ok a run') :
    (run.body.size ≤ index ∧ run = run') ∨
    (index < run.body.size ∧ ∃ next mid,
      job.expandItem (job.walker budget) index (run.record (.walked index)) = .ok next mid ∧
      job.expandFrom budget next mid = .ok a run') := by
  obtain ⟨_, _, hget, rest⟩ := Expansion.ok_bind h
  obtain ⟨rfl, rfl⟩ := Expansion.ok_get hget
  split at rest
  · next hlt =>
    obtain ⟨_, _, hmodify, rest⟩ := Expansion.ok_bind rest
    cases hmodify
    obtain ⟨next, mid, hitem, rest⟩ := Expansion.ok_bind rest
    exact .inr ⟨hlt, next, mid, hitem, rest⟩
  · next hlt =>
    obtain ⟨-, rfl⟩ := Expansion.ok_pure rest
    exact .inl ⟨Nat.le_of_not_lt hlt, rfl⟩

theorem ok_expandFrom_zero {index : Nat} {a : Unit}
    (h : job.expandFrom 0 index run = .ok a run') : run.body.size ≤ index ∧ run = run' := by
  obtain ⟨_, _, hget, rest⟩ := Expansion.ok_bind h
  obtain ⟨rfl, rfl⟩ := Expansion.ok_get hget
  split at rest
  · cases rest
  · next hlt =>
    obtain ⟨-, rfl⟩ := Expansion.ok_pure rest
    exact ⟨Nat.le_of_not_lt hlt, rfl⟩

/-- A walk over the items that halts has run out of budget, or halts in the item it takes up, or goes
on and halts later. -/
theorem error_expandFrom_succ {budget index : Nat}
    (h : job.expandFrom (budget + 1) index run = .error halt run') :
    index < run.body.size ∧
    (job.expandItem (job.walker budget) index (run.record (.walked index)) = .error halt run' ∨
      ∃ next mid,
        job.expandItem (job.walker budget) index (run.record (.walked index)) = .ok next mid ∧
        job.expandFrom budget next mid = .error halt run') := by
  rcases Expansion.error_bind h with h | ⟨_, _, hget, rest⟩
  · exact (Expansion.error_get h).elim
  obtain ⟨rfl, rfl⟩ := Expansion.ok_get hget
  split at rest
  · next hlt =>
    rcases Expansion.error_bind rest with hmodify | ⟨_, _, hmodify, rest⟩ <;> cases hmodify
    rcases Expansion.error_bind rest with hitem | ⟨next, mid, hitem, rest⟩
    · exact ⟨hlt, .inl hitem⟩
    · exact ⟨hlt, .inr ⟨next, mid, hitem, rest⟩⟩
  · exact (Expansion.error_pure rest).elim

theorem error_expandFrom_zero {index : Nat}
    (h : job.expandFrom 0 index run = .error halt run') : halt = .outOfBudget ∧ run' = run := by
  rcases Expansion.error_bind h with h | ⟨_, _, hget, rest⟩
  · exact (Expansion.error_get h).elim
  obtain ⟨rfl, rfl⟩ := Expansion.ok_get hget
  split at rest
  · cases rest; exact ⟨rfl, rfl⟩
  · exact (Expansion.error_pure rest).elim

/-- A walk that is at its end needs no budget. -/
theorem expandFrom_of_le {budget index : Nat} (h : run.body.size ≤ index) :
    job.expandFrom budget index run = .ok () run := by
  cases budget <;>
    (change (if index < run.body.size then _ else pure () : Expansion Unit) run = _
     rw [if_neg (Nat.not_lt.mpr h)]
     rfl)

theorem expandFrom_of_lt {budget index : Nat} (h : index < run.body.size) :
    job.expandFrom (budget + 1) index run =
      (job.expandItem (job.walker budget) index >>= job.expandFrom budget)
        (run.record (.walked index)) := by
  change (if index < run.body.size then _ else pure () : Expansion Unit) run = _
  rw [if_pos h]
  rfl

/-- What holds whenever an item is taken up holds at the end of the walk. -/
theorem ok_expandFrom {P : Run → Nat → Prop}
    (step : ∀ {budget index run next run'}, P run index → index < run.body.size →
      job.expandItem (job.walker budget) index (run.record (.walked index)) = .ok next run' →
      P run' next) {budget index : Nat} {a : Unit} (hP : P run index)
    (h : job.expandFrom budget index run = .ok a run') :
    ∃ last, P run' last ∧ run'.body.size ≤ last := by
  induction budget generalizing index run with
  | zero =>
    obtain ⟨hle, rfl⟩ := ok_expandFrom_zero h
    exact ⟨index, hP, hle⟩
  | succ budget ih =>
    rcases ok_expandFrom_succ h with ⟨hle, rfl⟩ | ⟨hlt, next, mid, hitem, rest⟩
    · exact ⟨index, hP, hle⟩
    · exact ih (step hP hlt hitem) rest

/-- A walk that halts does so between two items or in one of them. -/
theorem error_expandFrom {P : Run → Nat → Prop} {E : Halt → Run → Prop}
    (step : ∀ {budget index run next run'}, P run index → index < run.body.size →
      job.expandItem (job.walker budget) index (run.record (.walked index)) = .ok next run' →
      P run' next)
    (stop : ∀ {budget index run halt run'}, P run index → index < run.body.size →
      job.expandItem (job.walker budget) index (run.record (.walked index)) = .error halt run' →
      E halt run')
    (out : ∀ {index run}, P run index → E .outOfBudget run) {budget index : Nat} (hP : P run index)
    (h : job.expandFrom budget index run = .error halt run') : E halt run' := by
  induction budget generalizing index run with
  | zero =>
    obtain ⟨rfl, rfl⟩ := error_expandFrom_zero h
    exact out hP
  | succ budget ih =>
    obtain ⟨hlt, hitem | ⟨next, mid, hitem, rest⟩⟩ := error_expandFrom_succ h
    · exact stop hP hlt hitem
    · exact ih (step hP hlt hitem) rest

/-- An expansion that ends well ends after a pass that applied nothing, and the refresh behind it. -/
theorem ok_settle {Q : Run → Prop} {budget remaining count passes : Nat}
    (step : ∀ {run a run'}, Q run → job.runPass budget run = .ok a run' → Q (job.refresh run'))
    (hQ : Q run) (h : job.settle budget remaining count run = .ok passes run') :
    ∃ last a mid, Q last ∧ job.runPass budget last = .ok a mid ∧ mid.applied = 0 ∧
      run' = job.refresh mid := by
  induction remaining generalizing count run with
  | zero => cases h
  | succ remaining ih =>
    obtain ⟨a, mid, hpass, rest⟩ := Expansion.ok_bind h
    obtain ⟨_, _, hmodify, rest⟩ := Expansion.ok_bind rest
    cases hmodify
    obtain ⟨_, _, hget, rest⟩ := Expansion.ok_bind rest
    obtain ⟨rfl, rfl⟩ := Expansion.ok_get hget
    split at rest
    · next happlied =>
      obtain ⟨-, rfl⟩ := Expansion.ok_pure rest
      exact ⟨run, a, mid, hQ, hpass, happlied, rfl⟩
    · exact ih (step hQ hpass) rest

/-- An expansion that halts does so in a pass, or because there were too many of them. -/
theorem error_settle {Q : Run → Prop} {E : Halt → Run → Prop} {budget remaining count : Nat}
    (step : ∀ {run a run'}, Q run → job.runPass budget run = .ok a run' → Q (job.refresh run'))
    (stop : ∀ {run halt run'}, Q run → job.runPass budget run = .error halt run' → E halt run')
    (limit : ∀ {run} failure, Q run → E (.failure failure) run) (hQ : Q run)
    (h : job.settle budget remaining count run = .error halt run') : E halt run' := by
  induction remaining generalizing count run with
  | zero => cases h; exact limit _ hQ
  | succ remaining ih =>
    rcases Expansion.error_bind h with hpass | ⟨a, mid, hpass, rest⟩
    · exact stop hQ hpass
    rcases Expansion.error_bind rest with hmodify | ⟨_, _, hmodify, rest⟩ <;> cases hmodify
    rcases Expansion.error_bind rest with hget | ⟨_, _, hget, rest⟩
    · exact (Expansion.error_get hget).elim
    obtain ⟨rfl, rfl⟩ := Expansion.ok_get hget
    split at rest
    · exact (Expansion.error_pure rest).elim
    · exact ih (step hQ hpass) rest

end Job

/-- No place is pending, as between two items of a pass. -/
def Run.Idle (run : Run) : Prop := run.body.pending = []

theorem Run.Idle.sound {run : Run} (h : run.Idle) : run.body.Sound :=
  ⟨by rw [h]; exact List.nodup_nil, by rw [h]; simp⟩

theorem Run.Idle.free {run : Run} (h : run.Idle) (index : Nat) : index ∉ run.body.pending := by
  rw [h]
  exact List.not_mem_nil

namespace Job

variable {job : Job} {run run' : Run}

/-- Expanding an item between others leaves no place pending. -/
theorem idle_expandItem {budget index next : Nat} (hidle : run.Idle)
    (h : job.expandItem (job.walker budget) index run = .ok next run') : run'.Idle := by
  have hkeeps := Discipline.keeps_expandItem ((growth job).serves_walker budget) index
  obtain ⟨item, body, -, -, hdetach, -⟩ := ok_expandItem h
  obtain ⟨hlt, -⟩ := Body.size_detach? hdetach
  obtain ⟨-, ⟨-, hlevel⟩, -⟩ := hkeeps.ok hidle.sound ⟨hlt, hidle.free index⟩ h
  rw [Run.Level, hidle] at hlevel
  exact List.length_eq_zero_iff.mp hlevel.symm

/-- Between others, an item is expanded with its own place as the only one that is pending at the
end of the visit; there it is put back or dropped. -/
theorem ok_expandItem_of_idle {budget index next : Nat} (hidle : run.Idle)
    (h : job.expandItem (job.walker budget) index run = .ok next run') :
    ∃ item body item' mid, run.body.detach? index = some (item, body) ∧
      job.visit (job.walker budget) item { run with body } = .ok item' mid ∧
      ((∃ body', mid.body.pending = [next] ∧
          Body.remove? { mid.body with pending := [] } next = some body' ∧
          run' = mid.dropping next body') ∨
        ∃ place body', mid.body.pending = [place] ∧
          mid.body.reattach? item'.sweep = some (place, body') ∧ next = place + 1 ∧
          run' = { mid with body := body' }) := by
  have hidle' := idle_expandItem hidle h
  obtain ⟨item, body, item', mid, hdetach, hvisit, hend⟩ := ok_expandItem h
  refine ⟨item, body, item', mid, hdetach, hvisit, ?_⟩
  obtain ⟨-, body', hdiscard, rfl⟩ | ⟨-, place, body', hreattach, rfl, rfl⟩ := hend
  · obtain ⟨rest, hrest, hremove⟩ := Body.discard?_places hdiscard
    obtain ⟨-, -, -, hpending⟩ := Body.remove?_places hremove
    have hempty : body'.pending = [] := hidle'
    rw [hpending] at hempty
    obtain rfl : rest = [] := List.map_eq_nil_iff.mp hempty
    exact .inl ⟨body', hrest, hremove, rfl⟩
  · obtain ⟨hpending, -, -⟩ := Body.reattach?_places hreattach
    have hempty : body'.pending = [] := hidle'
    rw [hempty] at hpending
    exact .inr ⟨place, body', hpending, hreattach, rfl, rfl⟩

end Job

namespace Discipline

variable {job : Job} {d : Discipline job}

/-- A walk over the items keeps a discipline that taking up an item keeps. -/
theorem keeps_expandFrom
    (walked : ∀ {run} (index : Nat), d.inv run →
      d.inv (run.record (.walked index)) ∧ d.rel run (run.record (.walked index)))
    (budget index : Nat) :
    d.Keeps Run.Idle (job.expandFrom budget index) fun run _ => run.Idle := by
  have step : ∀ {first : Run} {budget index run next run'},
      (d.inv run ∧ d.rel first run ∧ run.Idle) → index < run.body.size →
      job.expandItem (job.walker budget) index (run.record (.walked index)) = .ok next run' →
      d.inv run' ∧ d.rel first run' ∧ run'.Idle := by
    rintro first budget index run next run' ⟨hi, hr, hidle⟩ hlt h
    obtain ⟨hi', hr'⟩ := walked index hi
    have hidle' : (run.record (.walked index)).Idle := hidle
    have hkeeps := keeps_expandItem (d.serves_walker budget) index
    obtain ⟨hi'', hr'', -⟩ := hkeeps.ok hi' ⟨hlt, hidle'.free index⟩ h
    exact ⟨hi'', d.rel_trans hr (d.rel_trans hr' hr''), Job.idle_expandItem hidle' h⟩
  refine ⟨fun {run _ _} hi hidle h => ?_, fun {run _ _} hi hidle h => ?_⟩
  · obtain ⟨-, ⟨hi', hr, hidle'⟩, -⟩ := Job.ok_expandFrom step ⟨hi, d.rel_refl run, hidle⟩ h
    exact ⟨hi', hr, hidle'⟩
  · refine Job.error_expandFrom (E := (d.fails · run ·)) step ?_ ?_ ⟨hi, d.rel_refl run, hidle⟩ h
    · rintro budget index mid halt run' ⟨hi, hr, hidle⟩ hlt h
      obtain ⟨hi', hr'⟩ := walked index hi
      have hidle' : (mid.record (.walked index)).Idle := hidle
      have hkeeps := keeps_expandItem (d.serves_walker budget) index
      have hf := hkeeps.error hi' ⟨hlt, hidle'.free index⟩ h
      exact d.fails_trans hr (d.fails_trans hr' hf)
    · rintro index mid ⟨hi, hr, -⟩
      exact d.fails_trans hr (d.fails_refl (fun h => by cases h) hi)

end Discipline

/-- A walk over the items takes nothing back and leaves no place pending. -/
theorem Job.grows_expandFrom (job : Job) (budget index : Nat) :
    (growth job).Keeps Run.Idle (job.expandFrom budget index) fun run _ => run.Idle :=
  Discipline.keeps_expandFrom (d := growth job)
    (fun _ hi => ⟨hi, .ofEvents rfl rfl rfl (List.prefix_append _ _), rfl⟩) budget index

/-- After a pass and its refresh no place is pending. -/
theorem Job.idle_refresh {job : Job} {budget : Nat} {run run' : Run} {a : Unit} (hidle : run.Idle)
    (h : job.runPass budget run = .ok a run') : (job.refresh run').Idle := by
  have hbegin : (Job.beginPass run).Idle := hidle
  obtain ⟨-, -, hidle'⟩ := (job.grows_expandFrom budget 0).ok hbegin.sound hbegin h
  exact hidle'

/-- No item is ever lost. -/
theorem Job.settle_ne_lostItem {job : Job} {run run' : Run} {budget remaining count : Nat}
    (hidle : run.Idle) : job.settle budget remaining count run ≠ .error .lostItem run' := by
  intro h
  refine Job.error_settle (Q := Run.Idle) (E := fun halt _ => halt ≠ .lostItem) Job.idle_refresh ?_ ?_
    hidle h rfl
  · intro run halt run' hidle hpass
    have hbegin : (Job.beginPass run).Idle := hidle
    exact ((job.grows_expandFrom budget 0).error hbegin.sound hbegin hpass).1
  · intro run failure hidle h
    cases h

end CallExpander
