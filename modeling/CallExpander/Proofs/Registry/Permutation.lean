import CallExpander.Declarations
import CallExpander.Expansion.Transform
import CallExpander.Proofs.Registry.WellFormed

/-!
# Registrations in any order

Registrations of different modules do not get into each other's way: each of them puts in what it would
put into an empty registry. As a table is determined by its entries, the registry behind all of them is the
same in whatever order they are made.
-/

namespace CallExpander

namespace Registry

variable {registry result : Registry} {module : String} {entry : Entry} {call : Registration}
  {calls order : List Registration}

/-- Makes registrations one after the other, up to the first that is refused. -/
def registerAll (registry : Registry) (calls : List Registration) : Except Failure Registry :=
  calls.foldlM register registry

/-- Whoever asks two registries gets the same answers. -/
structure Alike (a b : Registry) : Prop where
  modules : a.modules = b.modules
  names : a.names = b.names
  declarations : a.declarations = b.declarations
  resolve : ∀ id, a.resolve? id = b.resolve? id
  load : ∀ id, a.load? id = b.load? id
  transform : ∀ (job : Job) (budget : Nat),
    { job with registry := a }.run budget = { job with registry := b }.run budget

theorem Alike.refl (registry : Registry) : registry.Alike registry :=
  ⟨rfl, rfl, rfl, fun _ => rfl, fun _ => rfl, fun _ _ => rfl⟩

theorem sorted_merge {modules : List (String × Entry)} (h : Table.Sorted registry.modules) :
    Table.Sorted (registry.merge modules).modules := by
  rw [modules_merge]
  exact h.insertAll

/-- What a registration registers under the name of a module, on its own. -/
def brings (call : Registration) (module : String) : Option Entry :=
  (merge {} call.modules).get? module

theorem mem_names_of_brings (h : brings call module = some entry) : module ∈ call.names := by
  by_contra hnot
  cases (get?_merge_of_not_mem hnot).symm.trans h

/-! ## What registrations add -/

/-- A registry has what registrations bring, and for the rest the modules of another registry. -/
structure Adds (calls : List Registration) (registry result : Registry) : Prop where
  sorted : Table.Sorted result.modules
  brought : ∀ call ∈ calls, ∀ name ∈ call.names, result.get? name = brings call name
  others : ∀ name, (∀ call ∈ calls, name ∉ call.names) → result.get? name = registry.get? name

theorem Adds.perm (h : Adds order registry result) (hperm : order.Perm calls) :
    Adds calls registry result where
  sorted := h.sorted
  brought := fun call hcall => h.brought call (hperm.mem_iff.mpr hcall)
  others := fun name hname => h.others name fun call hcall => hname call (hperm.mem_iff.mp hcall)

/-- What registrations add leaves no choice. -/
theorem Adds.unique {other : Registry} (h : Adds calls registry result)
    (h' : Adds calls registry other) : result = other := by
  have hget : ∀ name, result.get? name = other.get? name := by
    intro name
    by_cases hbrought : ∃ call ∈ calls, name ∈ call.names
    · obtain ⟨call, hcall, hname⟩ := hbrought
      rw [h.brought call hcall name hname, h'.brought call hcall name hname]
    · have hnone : ∀ call ∈ calls, name ∉ call.names :=
        fun call hcall hname => hbrought ⟨call, hcall, hname⟩
      rw [h.others name hnone, h'.others name hnone]
  cases result
  cases other
  exact congrArg Registry.mk (h.sorted.ext h'.sorted hget)

theorem Adds.get?_eq_some (h : Adds calls {} result) :
    result.get? module = some entry ↔ ∃ call ∈ calls, brings call module = some entry := by
  constructor
  · intro hget
    by_cases hbrought : ∃ call ∈ calls, module ∈ call.names
    · obtain ⟨call, hcall, hname⟩ := hbrought
      exact ⟨call, hcall, (h.brought call hcall module hname).symm.trans hget⟩
    · rw [h.others module fun call hcall hname => hbrought ⟨call, hcall, hname⟩] at hget
      cases hget
  · rintro ⟨call, hcall, hbrings⟩
    exact (h.brought call hcall module (mem_names_of_brings hbrings)).trans hbrings

/-- Sound registrations of different modules whose names are free are made, one after the other. -/
theorem registerAll_of_free (hsorted : Table.Sorted registry.modules)
    (hdisjoint : calls.Pairwise fun a b => a.names.Disjoint b.names)
    (hsound : ∀ call ∈ calls, call.IsSound)
    (hfree : ∀ call ∈ calls, ∀ name ∈ call.names, registry.get? name = none) :
    ∃ result, registry.registerAll calls = .ok result ∧ Adds calls registry result := by
  induction calls generalizing registry with
  | nil =>
    refine ⟨registry, rfl, hsorted, ?_, fun _ _ => rfl⟩
    intro call hcall
    cases hcall
  | cons first rest ih =>
    obtain ⟨hapart, hdisjoint⟩ := List.pairwise_cons.mp hdisjoint
    obtain ⟨hfirst, hsound⟩ := List.forall_mem_cons.mp hsound
    obtain ⟨hfreeFirst, hfree⟩ := List.forall_mem_cons.mp hfree
    have hmade : registry.register first = .ok (registry.merge first.modules) :=
      register_eq_ok.mpr ⟨hfirst, fun name hname => get?_eq_none.mp (hfreeFirst name hname), rfl⟩
    have hfree' : ∀ call ∈ rest, ∀ name ∈ call.names,
        (registry.merge first.modules).get? name = none := by
      intro call hcall name hname
      rw [get?_merge_of_not_mem fun hmem => hapart call hcall hmem hname]
      exact hfree call hcall name hname
    obtain ⟨result, hall, hadds⟩ := ih (sorted_merge hsorted) hdisjoint hsound hfree'
    refine ⟨result, ?_, hadds.sorted, List.forall_mem_cons.mpr ⟨?_, hadds.brought⟩, ?_⟩
    · rw [registerAll, List.foldlM_cons, hmade]
      exact hall
    · intro name hname
      -- None of the others puts anything in over what the first one did.
      rw [hadds.others name fun call hcall hmem => hapart call hcall hname hmem]
      exact get?_merge_of_mem {} hname
    · intro name hname
      obtain ⟨hnot, hname⟩ := List.forall_mem_cons.mp hname
      rw [hadds.others name hname]
      exact get?_merge_of_not_mem hnot

/-- Registrations of different modules, each of which an empty registry accepts, are all made in whatever
order they come, and the registry behind them is the same: it has the modules that each of them registers
on its own. -/
theorem registered_in_any_order (calls : List Registration)
    (hdisjoint : calls.Pairwise fun a b => a.names.Disjoint b.names)
    (halone : ∀ call ∈ calls, ∃ own, register {} call = .ok own) :
    ∃ registry : Registry,
      (∀ module entry, registry.get? module = some entry ↔
        ∃ call ∈ calls, ∃ own, register {} call = .ok own ∧ own.get? module = some entry) ∧
      ∀ order, order.Perm calls → ∃ result, registerAll {} order = .ok result ∧ result.Alike registry := by
  have hown : ∀ call ∈ calls, call.IsSound ∧ register {} call = .ok (merge {} call.modules) := by
    intro call hcall
    obtain ⟨own, hown⟩ := halone call hcall
    obtain ⟨hsound, -, rfl⟩ := register_eq_ok.mp hown
    exact ⟨hsound, hown⟩
  have hall : ∀ order : List Registration, order.Perm calls →
      ∃ result, registerAll {} order = .ok result ∧ Adds calls {} result := by
    intro order hperm
    have hpairwise : order.Pairwise fun a b => a.names.Disjoint b.names :=
      hperm.symm.pairwise hdisjoint fun h _ hb ha => h ha hb
    obtain ⟨result, hmade, hadds⟩ := registerAll_of_free List.Pairwise.nil hpairwise
      (fun call hcall => (hown call (hperm.mem_iff.mp hcall)).1) fun _ _ _ _ => rfl
    exact ⟨result, hmade, hadds.perm hperm⟩
  obtain ⟨registry, -, hadds⟩ := hall calls (List.Perm.refl _)
  refine ⟨registry, ?_, ?_⟩
  · intro module entry
    rw [hadds.get?_eq_some]
    constructor
    · rintro ⟨call, hcall, hbrings⟩
      exact ⟨call, hcall, _, (hown call hcall).2, hbrings⟩
    · rintro ⟨call, hcall, own, hregister, hget⟩
      cases hregister.symm.trans (hown call hcall).2
      exact ⟨call, hcall, hget⟩
  · intro order hperm
    obtain ⟨result, hmade, hadds'⟩ := hall order hperm
    refine ⟨result, hmade, ?_⟩
    rw [hadds'.unique hadds]
    exact Alike.refl registry

/-- A module with a macro, a provider, and a module of source text. -/
def mixed : List Registration :=
  [.macros "style" [css], .provider styling, .source "reset" "export \x7b\x7d;"]

theorem mixed_registered_in_any_order : (mixed.Pairwise fun a b => a.names.Disjoint b.names) ∧
    (∀ call ∈ mixed, ∃ own, register {} call = .ok own) ∧
    ∃ registry, registerAll {} mixed.reverse = .ok registry ∧ registerAll {} mixed = .ok registry ∧
      registry.names = ["kit", "reset", "style"] := by
  have hdisjoint : mixed.Pairwise fun a b => a.names.Disjoint b.names := by
    simp [mixed, Registration.names, Registration.modules, Table.keys, styling]
  have halone : ∀ call ∈ mixed, ∃ own, register {} call = .ok own := by
    simp only [mixed, List.forall_mem_cons]
    exact ⟨⟨_, rfl⟩, ⟨_, rfl⟩, ⟨_, rfl⟩, List.forall_mem_nil _⟩
  obtain ⟨registry, -, horder⟩ := registered_in_any_order mixed hdisjoint halone
  obtain ⟨forth, hforth, halike⟩ := horder mixed (List.Perm.refl _)
  obtain ⟨back, hback, halike'⟩ := horder mixed.reverse mixed.reverse_perm
  have heq : back = forth := congrArg Registry.mk (halike'.modules.trans halike.modules.symm)
  refine ⟨hdisjoint, halone, forth, heq ▸ hback, hforth, ?_⟩
  cases hforth
  rfl

end Registry

end CallExpander
