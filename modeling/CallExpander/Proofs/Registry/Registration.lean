import CallExpander.Proofs.Table
import CallExpander.Registry

/-!
# What a registration does

A registration is refused for what is wrong in it, or because a name is taken; otherwise it puts its
modules in and changes nothing else. Done in place, check by check and module by module, it comes to the
same: all checks are made before the first module is put in.
-/

namespace CallExpander

/-- What a registry can be asked to register. -/
inductive Registration where
  | macros (module : String) (macros : List Macro)
  | source (module text : String)
  | provider (provider : Provider)

namespace Registration

def modules : Registration → List (String × Entry)
  | .macros module members => [(module, ⟨.macros members, members.map (·.typeText)⟩)]
  | .source module text => [(module, ⟨.source text, []⟩)]
  | .provider batch => batch.provided.modules

def names (call : Registration) : List String := Table.keys call.modules

/-- Nothing is wrong with it, whatever is registered already. -/
def IsSound : Registration → Prop
  | .macros module members =>
    module ≠ "" ∧ (∀ m ∈ members, m.version = compatVersion) ∧ (members.map (·.name)).Nodup
  | .source module _ => module ≠ ""
  | .provider batch => batch.version = compatVersion

/-- Makes it in place. What is put in before a refusal stays in. -/
def perform : Registration → EStateM Failure Registry Unit
  | .macros module members => do
    MonadExcept.ofExcept ((← get).ensureVacant module)
    MonadExcept.ofExcept (Registry.checkMacros module [] members)
    modify (·.insert module ⟨.macros members, members.map (·.typeText)⟩)
  | .source module text => do
    MonadExcept.ofExcept ((← get).ensureVacant module)
    modify (·.insert module ⟨.source text, []⟩)
  | .provider batch => do
    MonadExcept.ofExcept (ensureCompatible batch.describe batch.version)
    match batch.provided.names.find? (← get).contains with
    | some module => throw (.duplicateRegistration module none)
    | none => batch.provided.modules.forM fun entry => modify (·.insert entry.1 entry.2)

end Registration

namespace Registry

variable {registry after : Registry} {module name : String} {entry : Entry}
  {modules : List (String × Entry)} {call : Registration}

def register (registry : Registry) : Registration → Except Failure Registry
  | .macros module macros => registry.registerMacros module macros
  | .source module text => registry.registerSource module text
  | .provider provider => registry.registerProvider provider

/-! ## Putting modules in -/

/-- The registry with modules put in one after the other. -/
def merge (registry : Registry) (modules : List (String × Entry)) : Registry :=
  modules.foldl (fun merged entry => merged.insert entry.1 entry.2) registry

theorem contains_iff_get? : registry.contains module = true ↔ registry.get? module ≠ none :=
  Table.contains_iff_get?

theorem get?_eq_none : registry.get? module = none ↔ registry.contains module = false := by
  rw [← Bool.not_eq_true, contains_iff_get?, not_not]

theorem get?_insert_self : (registry.insert module entry).get? module = some entry :=
  Table.get?_insert_self

theorem get?_insert_of_ne (h : module ≠ name) :
    (registry.insert module entry).get? name = registry.get? name :=
  Table.get?_insert_of_ne h

theorem modules_merge :
    (registry.merge modules).modules = Table.insertAll modules registry.modules := by
  induction modules generalizing registry with
  | nil => rfl
  | cons first rest ih => exact ih

theorem get?_merge_of_not_mem (h : module ∉ Table.keys modules) :
    (registry.merge modules).get? module = registry.get? module := by
  rw [get?, modules_merge, Table.get?_insertAll_of_not_mem h, get?]

/-- What is put in under a name does not depend on what was there before. -/
theorem get?_merge_of_mem (other : Registry) (h : module ∈ Table.keys modules) :
    (registry.merge modules).get? module = (other.merge modules).get? module := by
  have hkeys : module ∈ Table.keys modules.reverse := by
    rwa [Table.keys, List.map_reverse, List.mem_reverse]
  obtain ⟨entry, hentry⟩ := Option.ne_none_iff_exists'.mp (mt Table.get?_eq_none.mp (not_not.mpr hkeys))
  simp only [get?, modules_merge, Table.get?_insertAll, hentry, Option.some_or]

/-! ## What is refused, and what is registered -/

theorem ensureVacant_eq_ok : registry.ensureVacant module = .ok () ↔
    module ≠ "" ∧ registry.contains module = false := by
  unfold ensureVacant
  split
  · next hempty => simp [hempty]
  · next hname => split <;> simp_all

theorem ensureCompatible_eq_ok {subject : String} {version : Nat} :
    ensureCompatible subject version = .ok () ↔ version = compatVersion := by
  unfold ensureCompatible
  split <;> simp_all

theorem checkMacros_eq_ok {seen : List String} {macros : List Macro} :
    checkMacros module seen macros = .ok () ↔ (∀ m ∈ macros, m.version = compatVersion) ∧
      (∀ m ∈ macros, m.name ∉ seen) ∧ (macros.map (·.name)).Nodup := by
  induction macros generalizing seen with
  | nil => simp [checkMacros]
  | cons m rest ih =>
    have hstep : checkMacros module seen (m :: rest) = .ok () ↔
        m.version = compatVersion ∧ m.name ∉ seen ∧
          checkMacros module (m.name :: seen) rest = .ok () := by
      rw [checkMacros, ← @ensureCompatible_eq_ok m.describe]
      rcases ensureCompatible m.describe m.version with failure | ⟨⟩
      · simp [bind, Except.bind]
      · by_cases hseen : m.name ∈ seen <;> simp [bind, Except.bind, hseen]
    rw [hstep, ih]
    have hdiffer : (∀ other ∈ rest, other.name ∉ m.name :: seen) ↔
        m.name ∉ rest.map (·.name) ∧ ∀ other ∈ rest, other.name ∉ seen := by
      simp only [List.mem_cons, not_or, forall_and, List.mem_map, not_exists, not_and]
    rw [hdiffer, List.forall_mem_cons, List.forall_mem_cons, List.map_cons, List.nodup_cons]
    tauto

/-- A sequence of checks and what is done behind them. -/
theorem bind_eq_ok {α : Type} {check : Except Failure Unit} {rest : Unit → Except Failure α} {a : α} :
    (check >>= rest) = .ok a ↔ check = .ok () ∧ rest () = .ok a := by
  rcases check with failure | ⟨⟩ <;> simp [bind, Except.bind]

/-- A registration is made exactly if nothing is wrong with it and its names are free. -/
theorem register_eq_ok : registry.register call = .ok after ↔
    call.IsSound ∧ (∀ name ∈ call.names, registry.contains name = false) ∧
      registry.merge call.modules = after := by
  cases call with
  | macros module members =>
    have hnames : (Registration.macros module members).names = [module] := rfl
    simp only [register, registerMacros, bind_eq_ok, ensureVacant_eq_ok, checkMacros_eq_ok, hnames,
      Registration.IsSound, List.forall_mem_singleton]
    constructor
    · rintro ⟨⟨hname, hfree⟩, ⟨hversion, -, hnodup⟩, heq⟩
      cases heq
      exact ⟨⟨hname, hversion, hnodup⟩, hfree, rfl⟩
    · rintro ⟨⟨hname, hversion, hnodup⟩, hfree, rfl⟩
      exact ⟨⟨hname, hfree⟩, ⟨hversion, fun _ _ => List.not_mem_nil, hnodup⟩, rfl⟩
  | source module text =>
    have hnames : (Registration.source module text).names = [module] := rfl
    simp only [register, registerSource, bind_eq_ok, ensureVacant_eq_ok, hnames,
      Registration.IsSound, List.forall_mem_singleton]
    constructor
    · rintro ⟨⟨hname, hfree⟩, heq⟩
      cases heq
      exact ⟨hname, hfree, rfl⟩
    · rintro ⟨hname, hfree, rfl⟩
      exact ⟨⟨hname, hfree⟩, rfl⟩
  | provider batch =>
    have hnames : (Registration.provider batch).names = batch.provided.names := rfl
    simp only [register, registerProvider, bind_eq_ok, ensureCompatible_eq_ok, hnames,
      Registration.IsSound]
    refine and_congr_right fun _ => ?_
    cases hfind : batch.provided.names.find? registry.contains with
    | none =>
      have hfree : ∀ name ∈ batch.provided.names, registry.contains name = false := by
        simpa using hfind
      constructor
      · intro heq
        cases heq
        exact ⟨hfree, rfl⟩
      · rintro ⟨-, rfl⟩
        rfl
    | some module =>
      constructor
      · intro heq
        cases heq
      · rintro ⟨hfree, -⟩
        have htaken := List.find?_some hfind
        rw [hfree module (List.mem_of_find?_eq_some hfind)] at htaken
        cases htaken

/-! ## In place -/

theorem forM_insert (modules : List (String × Entry)) (registry : Registry) :
    (modules.forM fun entry => modify (·.insert entry.1 entry.2) : EStateM Failure Registry Unit)
      registry = .ok () (registry.merge modules) := by
  induction modules generalizing registry with
  | nil => rfl
  | cons first rest ih => exact ih (registry.insert first.1 first.2)

/-- Made in place, a registration comes to the same, and a refused one leaves everything as it was. -/
theorem perform_eq (call : Registration) (registry : Registry) :
    call.perform registry = match registry.register call with
      | .ok after => .ok () after
      | .error failure => .error failure registry := by
  cases call with
  | macros module members =>
    change (MonadExcept.ofExcept (registry.ensureVacant module) >>= fun _ => _ :
      EStateM Failure Registry Unit) registry = _
    simp only [register, registerMacros]
    rcases registry.ensureVacant module with failure | ⟨⟩
    · rfl
    · rcases hcheck : checkMacros module [] members with failure | ⟨⟩ <;> rfl
  | source module text =>
    change (MonadExcept.ofExcept (registry.ensureVacant module) >>= fun _ => _ :
      EStateM Failure Registry Unit) registry = _
    simp only [register, registerSource]
    rcases registry.ensureVacant module with failure | ⟨⟩ <;> rfl
  | provider batch =>
    simp only [Registration.perform, register, registerProvider]
    rcases ensureCompatible batch.describe batch.version with failure | ⟨⟩
    · rfl
    · change (match batch.provided.names.find? registry.contains with
        | some module => throw (.duplicateRegistration module none)
        | none => _ : EStateM Failure Registry Unit) registry = _
      rcases hfind : batch.provided.names.find? registry.contains with _ | module
      · exact forM_insert _ registry
      · rfl

/-- The registry behind a registration, whether it was refused or not. -/
def behind (registry : Registry) (call : Registration) : Registry :=
  match call.perform registry with
  | .ok _ left | .error _ left => left

theorem behind_of_ok (h : registry.register call = .ok after) : registry.behind call = after := by
  unfold behind
  rw [perform_eq, h]

theorem behind_of_error {failure : Failure} (h : registry.register call = .error failure) :
    registry.behind call = registry := by
  unfold behind
  rw [perform_eq, h]

/-- What is registered stays as it is. -/
theorem get?_behind (h : registry.get? module = some entry) :
    (registry.behind call).get? module = some entry := by
  cases hregister : registry.register call with
  | error failure =>
    rw [behind_of_error hregister]
    exact h
  | ok after =>
    obtain ⟨-, hfree, rfl⟩ := register_eq_ok.mp hregister
    have hother : module ∉ call.names := by
      intro hmem
      rw [get?_eq_none.mpr (hfree module hmem)] at h
      cases h
    rw [behind_of_ok hregister, get?_merge_of_not_mem hother]
    exact h

end Registry

end CallExpander
