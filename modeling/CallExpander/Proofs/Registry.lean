import CallExpander.Registry

/-!
# The macros of a registry

What holds of every macro of a registry holds of each one that a look-up finds.
-/

namespace CallExpander.Registry

/-- Every macro of every module has a property. -/
def All (P : Macro → Prop) (registry : Registry) : Prop :=
  ∀ entry ∈ registry.modules, ∀ callee ∈ entry.2.macros?.getD [], P callee

theorem All.of_find? {P : Macro → Prop} {registry : Registry} (h : registry.All P)
    {module name : String} {callee : Macro} (hfind : registry.find? module name = some callee) :
    P callee := by
  obtain ⟨macros, hmacros, hcallee⟩ := Option.bind_eq_some_iff.mp hfind
  obtain ⟨entry, hentry, hmacros⟩ := Option.bind_eq_some_iff.mp hmacros
  obtain ⟨pair, hpair, rfl⟩ := Option.map_eq_some_iff.mp hentry
  refine h pair (List.mem_of_find?_eq_some hpair) callee ?_
  rw [hmacros]
  exact List.mem_of_find?_eq_some hcallee

/-- A look-up finds a macro by its name. -/
theorem name_of_find? {registry : Registry} {module name : String} {callee : Macro}
    (hfind : registry.find? module name = some callee) : callee.name = name := by
  obtain ⟨macros, -, hcallee⟩ := Option.bind_eq_some_iff.mp hfind
  simpa using List.find?_some hcallee

end CallExpander.Registry
