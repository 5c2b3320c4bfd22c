import CallExpander.Expansion.Transform
import CallExpander.Proofs.Body
import CallExpander.Proofs.Expansion.Discipline

/-!
# What only grows

Nothing that happened in an expansion is taken back: applications are counted and traced together,
and every event stays. A part leaves as many places pending as it found, whether it ends well or
halts, so that between two items of a pass none is, and no item is ever lost.
-/

namespace CallExpander

/-- A state comes later in the same pass than another. -/
structure Run.Extends (a b : Run) : Prop where
  pass : b.pass = a.pass
  /-- Every application of a macro is counted and traced. -/
  counted : a.applied + b.trace.length = b.applied + a.trace.length
  trace : a.trace <+: b.trace
  history : a.history <+: b.history

theorem Run.Extends.refl (run : Run) : run.Extends run :=
  ⟨rfl, rfl, List.prefix_rfl, List.prefix_rfl⟩

theorem Run.Extends.trans {a b c : Run} (hab : a.Extends b) (hbc : b.Extends c) : a.Extends c where
  pass := hbc.pass.trans hab.pass
  counted := by
    have h1 := hab.counted
    have h2 := hbc.counted
    omega
  trace := hab.trace.trans hbc.trace
  history := hab.history.trans hbc.history

theorem Run.Extends.applied {a b : Run} (h : a.Extends b) : a.applied ≤ b.applied := by
  have hcounted := h.counted
  have hlength := h.trace.length_le
  omega

/-- A change that only adds events. -/
theorem Run.Extends.ofEvents {a b : Run} (hpass : b.pass = a.pass) (happlied : b.applied = a.applied)
    (htrace : b.trace = a.trace) (hhistory : a.history <+: b.history) : a.Extends b :=
  ⟨hpass, by rw [happlied, htrace], htrace ▸ List.prefix_rfl, hhistory⟩

theorem Run.Extends.edit (run : Run) (edit : Edit) : run.Extends (run.edit edit) :=
  .ofEvents rfl rfl rfl (List.prefix_append _ _)

theorem Run.Extends.edits (run : Run) (edits : List Edit) :
    run.Extends (edits.foldl Run.edit run) := by
  induction edits generalizing run with
  | nil => exact .refl run
  | cons first rest ih => exact (Run.Extends.edit run first).trans (ih (run.edit first))

theorem Run.Extends.withContext (run : Run) (context : Context) :
    run.Extends (run.withContext context) :=
  .ofEvents rfl rfl rfl (List.prefix_append _ _)

theorem Run.Extends.dropping (run : Run) (index : Nat) (body : Body) :
    run.Extends (run.dropping index body) :=
  .ofEvents rfl rfl rfl (List.prefix_append _ _)

theorem Run.Extends.applying (run : Run) (step : Step) (call : Node) :
    run.Extends (run.applying step call) where
  pass := rfl
  counted := by
    simp only [Run.applying, List.length_append, List.length_singleton]
    omega
  trace := List.prefix_append _ _
  history := List.prefix_append _ _

/-- What retiring an import does to a state. -/
theorem Run.retiring?_cases {run run' : Run} {index : Nat} {retired : Retired}
    (h : run.retiring? index retired = some run') :
    (∃ rest, retired.remains = some rest ∧ run' = { run with
      body := { run.body with items := run.body.items.set index rest }
      bindings := run.bindings ++ retired.bindings }) ∨
    (∃ body, retired.remains = none ∧ run.body.remove? index = some body ∧
      run' = { run.dropping index body with bindings := run.bindings ++ retired.bindings }) := by
  unfold Run.retiring? at h
  simp only at h
  split at h
  · next rest hrest => cases h; exact .inl ⟨rest, hrest, rfl⟩
  · next hrest =>
    obtain ⟨body, hremove, rfl⟩ := Option.map_eq_some_iff.mp h
    exact .inr ⟨body, hrest, hremove, rfl⟩

/-- As many places are pending in one state as in the other. -/
def Run.Level (a b : Run) : Prop := a.body.pending.length = b.body.pending.length

namespace Run.Level

variable {run run' mid : Run} {index index' : Nat} {item item' : Node} {body body' : Body}

theorem refl (run : Run) : run.Level run := rfl

theorem trans {a b c : Run} (hab : a.Level b) (hbc : b.Level c) : a.Level c := Eq.trans hab hbc

theorem edit (run : Run) (edit : Edit) : run.Level (run.edit edit) := by
  obtain ⟨-, -, hpending⟩ := run.body.edit_places edit
  change _ = (run.body.edit edit).2.pending.length
  rw [hpending, List.length_map]

theorem retiring {retired : Retired} (h : run.retiring? index retired = some run') :
    run.Level run' := by
  obtain ⟨rest, -, rfl⟩ | ⟨body, -, hremove, rfl⟩ := Run.retiring?_cases h
  · rfl
  · obtain ⟨-, -, -, hpending⟩ := Body.remove?_places hremove
    change _ = body.pending.length
    rw [hpending, List.length_map]

/-- Putting an item back makes up for taking one out. -/
theorem reattach (hdetach : run.body.detach? index = some (item, body))
    (h : Run.Level { run with body } mid)
    (hreattach : mid.body.reattach? item' = some (index', body')) :
    run.Level { mid with body := body' } := by
  obtain ⟨-, -, hpending⟩ := Body.detach?_places hdetach
  obtain ⟨hpending', -, -⟩ := Body.reattach?_places hreattach
  simp only [Run.Level, hpending, hpending', List.length_cons] at h
  exact Nat.succ.inj h

/-- So does dropping the place of an item that was taken out. -/
theorem discard (hdetach : run.body.detach? index = some (item, body))
    (h : Run.Level { run with body } mid) (hdiscard : mid.body.discard? = some (index', body')) :
    run.Level (mid.dropping index' body') := by
  obtain ⟨-, -, hpending⟩ := Body.detach?_places hdetach
  obtain ⟨rest, hrest, hremove⟩ := Body.discard?_places hdiscard
  obtain ⟨-, -, -, hpending'⟩ := Body.remove?_places hremove
  simp only [Run.Level, hpending, hrest, List.length_cons] at h
  simp only [Run.Level, Run.dropping, hpending', List.length_map]
  exact Nat.succ.inj h

end Run.Level

/-- Pending places stay sound and as many, and nothing is taken back. -/
def growth (job : Job) : Discipline job where
  inv run := run.body.Sound
  rel a b := a.Extends b ∧ a.Level b
  fails halt a b := halt ≠ .lostItem ∧ b.body.Sound ∧ a.Extends b ∧ a.Level b
  tree _ _ := True
  allows _ := True
  handlers := @Job.makes_anything job
  rel_refl run := ⟨.refl run, .refl run⟩
  rel_trans hab hbc := ⟨hab.1.trans hbc.1, hab.2.trans hbc.2⟩
  fails_refl hhalt hi := ⟨hhalt, hi, .refl _, rfl⟩
  fails_trans hab hbc := by
    obtain ⟨hhalt, hs, hext, hlength⟩ := hbc
    exact ⟨hhalt, hs, hab.1.trans hext, hab.2.trans hlength⟩
  tree_mono _ _ := trivial
  tree_parts _ _ _ := trivial
  tree_mk _ _ := trivial
  tree_sweep _ := trivial
  applying hi _ _ _ _ := ⟨hi, .applying _ _ _, rfl⟩
  withContext context hi := ⟨hi, ⟨.withContext _ context, rfl⟩, trivial⟩
  edit {run} edit _ hi := ⟨hi.edit edit, .edit run edit, .edit run edit⟩
  retiring hi hfree _ _ h := by
    have hlevel := Run.Level.retiring h
    obtain ⟨rest, -, rfl⟩ | ⟨body, -, hremove, rfl⟩ := Run.retiring?_cases h
    · exact ⟨hi.set _ rest, .ofEvents rfl rfl rfl List.prefix_rfl, hlevel⟩
    · exact ⟨hi.remove hfree hremove, .ofEvents rfl rfl rfl (List.prefix_append _ _), hlevel⟩
  detach hi hfree hdetach := ⟨hi.detach hfree hdetach, trivial⟩
  reattach _ _ hdetach hr hmid _ _ hreattach := by
    obtain ⟨hext, hlevel⟩ := hr
    exact ⟨hmid.reattach hreattach, ⟨hext.pass, hext.counted, hext.trace, hext.history⟩,
      hlevel.reattach hdetach hreattach⟩
  discard {_ _ _ _ mid index' body'} _ _ hdetach hr hmid _ hdiscard := by
    have hext := hr.1.trans (.dropping mid index' body')
    exact ⟨hmid.discard hdiscard, ⟨hext.pass, hext.counted, hext.trace, hext.history⟩,
      hr.2.discard hdetach hdiscard⟩
  restore _ _ hdetach hf hreattach := by
    obtain ⟨hhalt, hs, hext, hlevel⟩ := hf
    exact ⟨hhalt, hs.reattach hreattach, ⟨hext.pass, hext.counted, hext.trace, hext.history⟩,
      hlevel.reattach hdetach hreattach⟩
  lost {_ _ _ _ _ mid} _ _ hdetach hf hplace := by
    obtain ⟨-, hs, -, hlevel⟩ := hf
    obtain ⟨-, -, hpending⟩ := Body.detach?_places hdetach
    -- The place of the item that was taken out is still pending.
    have hne : mid.body.pending ≠ [] := by
      intro hnil
      simp only [Run.Level, hpending, hnil, List.length_cons, List.length_nil] at hlevel
      cases hlevel
    exact absurd (hs.hasPlace hne) hplace

theorem growth_makes (job : Job) (handler : Handler) : handler.Makes (growth job).allows :=
  Handler.makes_of_forall (fun _ => trivial) handler

end CallExpander
