import CallExpander.Expansion.Walk
import CallExpander.Proofs.Body
import CallExpander.Proofs.Import

/-!
# How a part of an expansion ends

Expansions are sequences of small parts. What a sequence ends with is what its parts end with, one
after the other: an end of the whole is taken apart into ends of the parts.
-/

namespace CallExpander.Expansion

variable {α β : Type} {run run' : Run} {halt : Halt}

/-- A sequence that ends well consists of two parts that do. -/
theorem ok_bind {x : Expansion α} {f : α → Expansion β} {b : β} (h : (x >>= f) run = .ok b run') :
    ∃ a mid, x run = .ok a mid ∧ f a mid = .ok b run' := by
  change EStateM.bind x f run = .ok b run' at h
  unfold EStateM.bind at h
  split at h
  · next a mid hx => exact ⟨a, mid, hx, h⟩
  · cases h

/-- A sequence that halts does so in its first part, or in its second after the first ended well. -/
theorem error_bind {x : Expansion α} {f : α → Expansion β}
    (h : (x >>= f) run = .error halt run') :
    x run = .error halt run' ∨ ∃ a mid, x run = .ok a mid ∧ f a mid = .error halt run' := by
  change EStateM.bind x f run = .error halt run' at h
  unfold EStateM.bind at h
  split at h
  · next a mid hx => exact .inr ⟨a, mid, hx, h⟩
  · next halt' mid hx => cases h; exact .inl hx

theorem ok_pure {a b : α} (h : (pure a : Expansion α) run = .ok b run') : a = b ∧ run = run' := by
  cases h
  exact ⟨rfl, rfl⟩

theorem error_pure {a : α} (h : (pure a : Expansion α) run = .error halt run') : False := by
  cases h

/-- What is done with an answer alone does not halt. -/
theorem error_bind_pure {x : Expansion α} {g : α → β}
    (h : (x >>= fun a => pure (g a)) run = .error halt run') : x run = .error halt run' := by
  rcases error_bind h with h | ⟨a, mid, -, hpure⟩
  · exact h
  · exact (error_pure hpure).elim

theorem ok_get {a : Run} (h : (get : Expansion Run) run = .ok a run') : run = a ∧ run = run' := by
  cases h
  exact ⟨rfl, rfl⟩

theorem error_get (h : (get : Expansion Run) run = .error halt run') : False := by
  cases h

/-- The first part of a sequence, where it ends well, can be run ahead of the second. -/
theorem bind_of_ok {x : Expansion α} {f : α → Expansion β} {a : α} {mid : Run}
    (h : x run = .ok a mid) : (x >>= f) run = f a mid := by
  change EStateM.bind x f run = f a mid
  unfold EStateM.bind
  rw [h]

/-- A sequence that first reads the state goes on with it, in it. -/
theorem get_bind (f : Run → Expansion β) (run : Run) : (get >>= f) run = f run run := rfl

/-- Where the first part of a sequence halts, the sequence does. -/
theorem bind_of_error {x : Expansion α} {f : α → Expansion β} {mid : Run}
    (h : x run = .error halt mid) : (x >>= f) run = .error halt mid := by
  change EStateM.bind x f run = .error halt mid
  unfold EStateM.bind
  rw [h]

/-- Sequences of parts that do the same do the same. -/
theorem bind_congr {x x' : Expansion α} {f f' : α → Expansion β} (hx : x' run = x run)
    (hf : ∀ {a mid}, x run = .ok a mid → f' a mid = f a mid) : (x' >>= f') run = (x >>= f) run := by
  cases h : x run with
  | ok a mid => rw [bind_of_ok h, bind_of_ok (hx.trans h), hf h]
  | error halt mid => rw [bind_of_error h, bind_of_error (hx.trans h)]

end CallExpander.Expansion

namespace CallExpander.Job

variable {job : Job} {run run' : Run} {halt : Halt} {n : Node}

/-- Identifying a call changes nothing, and finds the macro that the bindings and the registry name. -/
theorem ok_identify {found : Option (Macro × String)} (h : job.identify n run = .ok found run') :
    run = run' ∧ (found = none ∧ resolveCall run.bindings n = none ∨
      ∃ callee module name, found = some (callee, module) ∧
        resolveCall run.bindings n = some (.known module name) ∧
        job.registry.find? module name = some callee) := by
  obtain ⟨_, _, hget, rest⟩ := Expansion.ok_bind h
  obtain ⟨rfl, rfl⟩ := Expansion.ok_get hget
  rcases hres : resolveCall run.bindings n with _ | ⟨module, name⟩ | ⟨module, name⟩ <;> rw [hres] at rest
  · obtain ⟨rfl, rfl⟩ := Expansion.ok_pure rest
    exact ⟨rfl, .inl ⟨rfl, rfl⟩⟩
  · rcases hfind : job.registry.find? module name with _ | callee <;> simp only [hfind] at rest
    · cases rest
    · obtain ⟨rfl, rfl⟩ := Expansion.ok_pure rest
      exact ⟨rfl, .inr ⟨callee, module, name, rfl, rfl, hfind⟩⟩
  · cases rest

/-- Identifying a call halts only for a name that the module does not have. -/
theorem error_identify (h : job.identify n run = .error halt run') :
    run' = run ∧ ∃ module name,
      halt = .failure (.unknownMacro name module job.source.path (job.source.site? n)) ∧
      (resolveCall run.bindings n = some (.unknown module name) ∨
        resolveCall run.bindings n = some (.known module name) ∧
          job.registry.find? module name = none) := by
  rcases Expansion.error_bind h with h | ⟨_, _, hget, rest⟩
  · exact (Expansion.error_get h).elim
  · obtain ⟨rfl, rfl⟩ := Expansion.ok_get hget
    rcases hres : resolveCall run.bindings n with _ | ⟨module, name⟩ | ⟨module, name⟩ <;> rw [hres] at rest
    · exact (Expansion.error_pure rest).elim
    · rcases hfind : job.registry.find? module name with _ | callee <;> simp only [hfind] at rest
      · cases rest; exact ⟨rfl, module, name, rfl, .inr ⟨rfl, hfind⟩⟩
      · exact (Expansion.error_pure rest).elim
    · cases rest; exact ⟨rfl, module, name, rfl, .inl rfl⟩

/-- The request of an item goes on only for one that is there and not pending, and changes nothing
itself. -/
theorem ok_checkItem {invocation : Invocation} {index : Nat} {a : Unit}
    (h : job.checkItem invocation index run = .ok a run') :
    run = run' ∧ index < run.body.size ∧ index ∉ run.body.pending := by
  obtain ⟨_, _, hget, rest⟩ := Expansion.ok_bind h
  obtain ⟨rfl, rfl⟩ := Expansion.ok_get hget
  simp only at rest
  split at rest
  · cases rest
  · next hsize =>
    split at rest
    · cases rest
    · next hpending =>
      obtain ⟨-, rfl⟩ := Expansion.ok_pure rest
      refine ⟨rfl, by omega, ?_⟩
      simpa only [Body.isPending, List.contains_iff_mem] using hpending

theorem error_checkItem {invocation : Invocation} {index : Nat}
    (h : job.checkItem invocation index run = .error halt run') :
    run' = run ∧ ∃ reason, halt = .failure
      (.invalidRequest invocation.callee.name job.source.path reason invocation.site) := by
  rcases Expansion.error_bind h with h | ⟨_, _, hget, rest⟩
  · exact (Expansion.error_get h).elim
  · obtain ⟨rfl, rfl⟩ := Expansion.ok_get hget
    simp only at rest
    split at rest
    · cases rest; exact ⟨rfl, _, rfl⟩
    · split at rest
      · cases rest; exact ⟨rfl, _, rfl⟩
      · exact (Expansion.error_pure rest).elim

/-- The request of an import changes nothing, or retires the import. -/
theorem ok_collectImport {invocation : Invocation} {index : Nat} {a : Unit}
    (h : job.collectImport invocation index run = .ok a run') :
    run = run' ∨ ∃ item retired, run.body.items[index]? = some item ∧
      retireImport job.registry.exports job.options.keepImports item = some retired ∧
      run.retiring? index retired = some run' := by
  obtain ⟨_, _, hget, rest⟩ := Expansion.ok_bind h
  obtain ⟨rfl, rfl⟩ := Expansion.ok_get hget
  rcases hitem : run.body.items[index]? with _ | item <;> simp only [hitem] at rest
  · cases rest
  split at rest
  · cases rest
  rcases hretire : retireImport job.registry.exports job.options.keepImports item with _ | retired <;>
    simp only [hretire] at rest
  · exact .inl (Expansion.ok_pure rest).2
  rcases hnext : run.retiring? index retired with _ | next <;> simp only [hnext] at rest <;>
    cases rest
  exact .inr ⟨item, retired, rfl, hretire, hnext⟩

theorem error_collectImport {invocation : Invocation} {index : Nat} (hindex : index < run.body.size)
    (h : job.collectImport invocation index run = .error halt run') :
    run' = run ∧ ∃ reason, halt = .failure
      (.invalidRequest invocation.callee.name job.source.path reason invocation.site) := by
  rcases Expansion.error_bind h with h | ⟨_, _, hget, rest⟩
  · exact (Expansion.error_get h).elim
  obtain ⟨rfl, rfl⟩ := Expansion.ok_get hget
  rcases hitem : run.body.items[index]? with _ | item <;> simp only [hitem] at rest
  · exact absurd (List.getElem?_eq_none_iff.mp hitem) (Nat.not_le.mpr hindex)
  split at rest
  · cases rest; exact ⟨rfl, _, rfl⟩
  rcases hretire : retireImport job.registry.exports job.options.keepImports item with _ | retired <;>
    simp only [hretire] at rest
  · exact (Expansion.error_pure rest).elim
  rcases hnext : run.retiring? index retired with _ | next <;> simp only [hnext] at rest <;>
    cases rest
  unfold Run.retiring? at hnext
  simp only at hnext
  split at hnext
  · cases hnext
  · rw [Body.remove?, if_pos hindex] at hnext
    cases hnext

/-- Only a macro call becomes something of another form. -/
theorem form_of_visit {w : Walker} {n' : Node} (h : job.visit w n run = .ok n' run') :
    n.form = .call ∨ n'.form = n.form := by
  obtain ⟨form, origin, parts⟩ := n
  rw [Job.visit] at h
  obtain ⟨found, mid, hidentify, rest⟩ := Expansion.ok_bind h
  obtain ⟨-, ⟨rfl, -⟩ | ⟨callee, module, name, rfl, hcall, -⟩⟩ := ok_identify hidentify
  · obtain ⟨parts', mid', -, rest⟩ := Expansion.ok_bind rest
    obtain ⟨rfl, -⟩ := Expansion.ok_pure rest
    exact .inr rfl
  · exact .inl (Node.form_of_resolveCall hcall)

/-- What goes away was no import. -/
theorem importDecl?_of_removed {w : Walker} {n' : Node} (h : job.visit w n run = .ok n' run')
    (hremoved : n'.isRemovedStatement = true) : n.importDecl? = none := by
  rcases form_of_visit h with hcall | hsame
  · simp only [Node.importDecl?, hcall]
  · rw [← Node.importDecl?_congr hsame]
    unfold Node.isRemovedStatement at hremoved
    split at hremoved
    · rfl
    · cases hremoved

/-- Expanding an item takes it out, visits it, and puts what comes out back or drops it. -/
theorem ok_expandItem {w : Walker} {index next : Nat}
    (h : job.expandItem w index run = .ok next run') :
    ∃ item body item' mid, run.body.detach? index = some (item, body) ∧
      job.visit w item { run with body } = .ok item' mid ∧
      ((item'.isRemovedStatement = true ∧ ∃ body', mid.body.discard? = some (next, body') ∧
          run' = mid.dropping next body') ∨
        (item'.isRemovedStatement = false ∧ ∃ place body',
          mid.body.reattach? item'.sweep = some (place, body') ∧ next = place + 1 ∧
          run' = { mid with body := body' })) := by
  unfold expandItem at h
  split at h
  · cases h
  next item body hdetach =>
  split at h
  · split at h <;> cases h
  next item' mid hvisit =>
  refine ⟨item, body, item', mid, hdetach, hvisit, ?_⟩
  split at h
  · next hremoved =>
    split at h
    · next body' hdiscard => cases h; exact .inl ⟨hremoved, body', hdiscard, rfl⟩
    · cases h
  · next hremoved =>
    unfold reattach at h
    rcases hre : mid.body.reattach? item'.sweep with _ | ⟨place, body'⟩ <;>
      simp only [hre] at h <;> cases h
    exact .inr ⟨by simpa using hremoved, place, body', rfl, rfl, rfl⟩

/-- Expanding an item halts because there is none, or where visiting it does, with the item back in
its place, or for want of a place. -/
theorem error_expandItem {w : Walker} {index : Nat}
    (h : job.expandItem w index run = .error halt run') :
    (run.body.size ≤ index ∧ halt = .lostItem ∧ run' = run) ∨
    ∃ item body mid, run.body.detach? index = some (item, body) ∧
      ((job.visit w item { run with body } = .error halt mid ∧ ∃ place body',
          mid.body.reattach? item = some (place, body') ∧ run' = { mid with body := body' }) ∨
        (halt = .lostItem ∧ run' = mid ∧ ¬ mid.body.HasPlace ∧
          ((∃ item', job.visit w item { run with body } = .ok item' mid) ∨
            ∃ halt', job.visit w item { run with body } = .error halt' mid))) := by
  unfold expandItem at h
  split at h
  · next hdetach =>
    cases h
    refine .inl ⟨?_, rfl, rfl⟩
    exact List.getElem?_eq_none_iff.mp (Option.map_eq_none_iff.mp hdetach)
  next item body hdetach =>
  right
  split at h
  · next mid hvisit =>
    refine ⟨item, body, mid, hdetach, ?_⟩
    unfold reattach at h
    rcases hre : mid.body.reattach? item with _ | ⟨place, body'⟩ <;> simp only [hre] at h <;> cases h
    · exact .inr ⟨rfl, rfl, Body.not_hasPlace_of_reattach? hre, .inr ⟨_, hvisit⟩⟩
    · exact .inl ⟨hvisit, place, body', rfl, rfl⟩
  · next item' mid hvisit =>
    refine ⟨item, body, mid, hdetach, .inr ?_⟩
    split at h
    · rcases hdiscard : mid.body.discard? with _ | ⟨place, body'⟩ <;> simp only [hdiscard] at h <;>
        cases h
      exact ⟨rfl, rfl, Body.not_hasPlace_of_discard? hdiscard, .inl ⟨item', hvisit⟩⟩
    · unfold reattach at h
      rcases hre : mid.body.reattach? item'.sweep with _ | ⟨place, body'⟩ <;>
        simp only [hre] at h <;> cases h
      exact ⟨rfl, rfl, Body.not_hasPlace_of_reattach? hre, .inl ⟨item', hvisit⟩⟩

end CallExpander.Job
