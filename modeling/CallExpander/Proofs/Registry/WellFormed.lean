import CallExpander.Proofs.Registry.Registration

/-!
# Registries stay well-formed

Macros and providers are built step by step, and a step that fails builds nothing. What is built has been
checked, so a provider can be merged without looking at its modules again: whatever is registered, one
call after the other and refused ones among them, every module of the registry is in order.
-/

namespace CallExpander

open Text

/-! ## What can be built -/

/-- A definition that was started and added to. -/
inductive Definition.Built : Definition → Prop
  | start {name : String} {d : Definition} (h : Definition.start name = .ok d) : Built d
  | withCustomType {d : Definition} (h : Built d) (text : String) : Built (d.withCustomType text)
  | withSignature {d : Definition} (h : Built d) (signature : Signature) :
      Built (d.withSignature signature)

/-- A macro whose definition was finished, made for this version or marked with another one. -/
inductive Macro.Built : Macro → Prop
  | finish {d : Definition} {handler : Handler} {m : Macro} (hd : d.Built)
      (h : d.finish handler = .ok m) : Built m
  | withVersion {m : Macro} (h : Built m) (version : Nat) : Built (m.withVersion version)

/-- A provider that was started and added to. -/
inductive Provider.Built : Provider → Prop
  | start (id : String) : Built { id }
  | withMacros {provider provider' : Provider} {module : String} {members : List Macro}
      (h : Built provider) (hmembers : ∀ m ∈ members, m.Built)
      (hwith : provider.withMacros module members = .ok provider') : Built provider'
  | withSource {provider provider' : Provider} {module text : String} (h : Built provider)
      (hwith : provider.withSource module text = .ok provider') : Built provider'
  | withTypes {provider provider' : Provider} {module text : String} (h : Built provider)
      (hwith : provider.withTypes module text = .ok provider') : Built provider'
  | withVersion {provider : Provider} (h : Built provider) (version : Nat) :
      Built (provider.withVersion version)

/-- A registration of nothing but what was built. -/
def Registration.Built : Registration → Prop
  | .macros _ members => ∀ m ∈ members, m.Built
  | .source _ _ => True
  | .provider batch => batch.Built

theorem Definition.Built.isIdentifier {d : Definition} (h : d.Built) :
    Text.isIdentifier d.name = true := by
  induction h with
  | start h =>
    unfold Definition.start at h
    split at h
    · next hname => cases h; exact hname
    · cases h
  | withCustomType _ _ ih => exact ih
  | withSignature _ _ ih => exact ih

theorem Macro.Built.isIdentifier {m : Macro} (h : m.Built) : Text.isIdentifier m.name = true := by
  induction h with
  | finish hd h =>
    unfold Definition.finish at h
    split at h
    · cases h
    · split at h
      · cases h
      · cases h; exact hd.isIdentifier
  | withVersion _ _ ih => exact ih

/-! ## Modules in order -/

/-- The macros of a module have different names, which are identifiers, and are made for this version;
the declarations of the module start with theirs. -/
def Entry.WellFormed (entry : Entry) : Prop :=
  ∀ members, entry.macros? = some members →
    (members.map (·.name)).Nodup ∧
      (∀ m ∈ members, isIdentifier m.name = true ∧ m.version = compatVersion) ∧
      members.map (·.typeText) <+: entry.types

/-- Every module is registered once, under a name, and is in order. -/
structure Registry.WellFormed (registry : Registry) : Prop where
  sorted : Table.Sorted registry.modules
  named : ∀ entry ∈ registry.modules, entry.1 ≠ ""
  entries : ∀ entry ∈ registry.modules, entry.2.WellFormed

variable {registry after : Registry} {module : String} {entry : Entry}

theorem Entry.wellFormed_source (text : String) (types : List String) :
    Entry.WellFormed ⟨.source text, types⟩ := by
  intro members h
  cases h

theorem Entry.WellFormed.addTypes (h : entry.WellFormed) (text : String) :
    Entry.WellFormed { entry with types := entry.types ++ [text] } := by
  intro members hmembers
  obtain ⟨hnodup, hsound, htypes⟩ := h members hmembers
  exact ⟨hnodup, hsound, htypes.trans (List.prefix_append _ _)⟩

namespace Registry

theorem wellFormed_empty : WellFormed {} where
  sorted := List.Pairwise.nil
  named := by intro entry h; cases h
  entries := by intro entry h; cases h

theorem WellFormed.insert (h : registry.WellFormed) (hname : module ≠ "") (hentry : entry.WellFormed) :
    (registry.insert module entry).WellFormed where
  sorted := h.sorted.insert
  named := by
    intro other hother
    rcases Table.mem_insert hother with rfl | hother
    · exact hname
    · exact h.named other hother
  entries := by
    intro other hother
    rcases Table.mem_insert hother with rfl | hother
    · exact hentry
    · exact h.entries other hother

theorem WellFormed.merge {modules : List (String × Entry)} (h : registry.WellFormed)
    (hnamed : ∀ entry ∈ modules, entry.1 ≠ "") (hentries : ∀ entry ∈ modules, entry.2.WellFormed) :
    (registry.merge modules).WellFormed := by
  induction modules generalizing registry with
  | nil => exact h
  | cons first rest ih =>
    obtain ⟨hname, hnamed⟩ := List.forall_mem_cons.mp hnamed
    obtain ⟨hentry, hentries⟩ := List.forall_mem_cons.mp hentries
    exact ih (h.insert hname hentry) hnamed hentries

theorem WellFormed.addTypes {text : String} (h : registry.WellFormed)
    (hadd : registry.addTypes module text = .ok after) : after.WellFormed := by
  unfold Registry.addTypes at hadd
  split at hadd
  · cases hadd
  · next entry hget =>
    cases hadd
    have hmem := Table.mem_of_get? hget
    exact h.insert (h.named _ hmem) ((h.entries _ hmem).addTypes text)

end Registry

/-- The macros that a module is registered with are in order. -/
theorem Entry.wellFormed_macros {members : List Macro} (hbuilt : ∀ m ∈ members, m.Built)
    (hversion : ∀ m ∈ members, m.version = compatVersion) (hnodup : (members.map (·.name)).Nodup) :
    Entry.WellFormed ⟨.macros members, members.map (·.typeText)⟩ := by
  intro other hother
  cases hother
  exact ⟨hnodup, fun m hm => ⟨(hbuilt m hm).isIdentifier, hversion m hm⟩, List.prefix_rfl⟩

/-- A registration that is made keeps a registry well-formed, if all of its modules are in order. -/
theorem Registry.WellFormed.register (h : registry.WellFormed) (call : Registration)
    (hbatch : ∀ batch, call = .provider batch → batch.provided.WellFormed) (hbuilt : call.Built)
    (hregister : registry.register call = .ok after) : after.WellFormed := by
  obtain ⟨hsound, -, rfl⟩ := register_eq_ok.mp hregister
  cases call with
  | macros module members =>
    obtain ⟨hname, hversion, hnodup⟩ := hsound
    exact h.insert hname (Entry.wellFormed_macros hbuilt hversion hnodup)
  | source module text => exact h.insert hsound (Entry.wellFormed_source text [])
  | provider batch =>
    obtain ⟨-, hnamed, hentries⟩ := hbatch batch rfl
    exact h.merge hnamed hentries

/-- A step of building a provider changes the modules that it brings. -/
theorem Provider.provided_eq_ok {provider provider' : Provider} {step : Except Failure Registry}
    (h : (do return { provider with provided := ← step }) = Except.ok provider') :
    step = .ok provider'.provided := by
  rcases step with failure | after
  · cases h
  · cases h
    rfl

/-- What a provider brings was in order when it was built, whatever it is marked with. -/
theorem Provider.Built.wellFormed {provider : Provider} (h : provider.Built) :
    provider.provided.WellFormed := by
  induction h with
  | start id => exact Registry.wellFormed_empty
  | @withMacros _ _ module members _ hmembers hwith ih =>
    refine ih.register (.macros module members) ?_ hmembers (Provider.provided_eq_ok hwith)
    intro batch h
    cases h
  | @withSource _ _ module text _ hwith ih =>
    refine ih.register (.source module text) ?_ trivial (Provider.provided_eq_ok hwith)
    intro batch h
    cases h
  | withTypes _ hwith ih => exact ih.addTypes (Provider.provided_eq_ok hwith)
  | withVersion _ _ ih => exact ih

/-! ## Histories -/

/-- One more registration, made or refused, keeps a registry well-formed. -/
theorem Registry.WellFormed.behind {call : Registration} (h : registry.WellFormed)
    (hbuilt : call.Built) : (registry.behind call).WellFormed := by
  cases hregister : registry.register call with
  | error failure =>
    rw [behind_of_error hregister]
    exact h
  | ok after =>
    rw [behind_of_ok hregister]
    refine h.register call ?_ hbuilt hregister
    rintro batch rfl
    exact Provider.Built.wellFormed hbuilt

theorem Registry.WellFormed.behindAll {calls : List Registration} (h : registry.WellFormed)
    (hbuilt : ∀ call ∈ calls, call.Built) : (calls.foldl Registry.behind registry).WellFormed := by
  induction calls generalizing registry with
  | nil => exact h
  | cons call rest ih =>
    obtain ⟨hcall, hrest⟩ := List.forall_mem_cons.mp hbuilt
    exact ih (h.behind hcall) hrest

/-- Behind any sequence of registrations of what was built, refused ones among them, every module of the
registry has a name of its own and is in order. A registration that is refused leaves the registry as it
was, though it is made in place, and none changes what is registered already. -/
theorem registered_modules_stay_in_order :
    (∀ calls : List Registration, (∀ call ∈ calls, call.Built) →
      (calls.foldl Registry.behind {}).WellFormed) ∧
    (∀ (registry : Registry) (call : Registration) (failure : Failure) (left : Registry),
      call.perform registry = .error failure left →
        registry.register call = .error failure ∧ left = registry ∧ registry.behind call = registry) ∧
    ∀ (registry : Registry) (call : Registration) (module : String) (entry : Entry),
      registry.get? module = some entry → (registry.behind call).get? module = some entry := by
  refine ⟨fun calls hbuilt => Registry.wellFormed_empty.behindAll hbuilt, ?_, ?_⟩
  · intro registry call failure left hperform
    rw [Registry.perform_eq] at hperform
    cases hregister : registry.register call with
    | ok after => rw [hregister] at hperform; cases hperform
    | error other =>
      rw [hregister] at hperform
      cases hperform
      exact ⟨rfl, rfl, Registry.behind_of_error hregister⟩
  · intro registry call module entry hget
    exact Registry.get?_behind hget

def css : Macro where
  name := "css"
  handler := .context fun _ => pure ()
  typeText := "export function css(text: string): string;"

theorem css_built : css.Built :=
  .finish (.withSignature (@Definition.Built.start "css" _ rfl) ⟨"(text: string): string", none⟩) rfl

def styling : Provider where
  id := "styling"
  provided := ⟨[("kit", ⟨.macros [css], [css.typeText, "export type Css = string;"]⟩)]⟩

theorem styling_built : styling.Built := by
  have hmacros : ({ id := "styling" } : Provider).withMacros "kit" [css] =
      .ok { id := "styling", provided := ⟨[("kit", ⟨.macros [css], [css.typeText]⟩)]⟩ } := rfl
  have hmembers : ∀ m ∈ [css], m.Built := by
    intro m hm
    rw [List.mem_singleton.mp hm]
    exact css_built
  exact @Provider.Built.withTypes _ _ "kit" "export type Css = string;"
    (.withMacros (.start "styling") hmembers hmacros) rfl

/-- Two registrations that are made, and six that are refused: for the name of the module, for that of a
macro, for a version, and for what is there already. -/
def history : List Registration :=
  [.macros "style" [css], .source "style" "", .source "" "", .macros "twice" [css, css],
    .macros "old" [css.withVersion 2], .provider (styling.withVersion 2), .provider styling,
    .provider styling]

theorem history_stays_in_order : (∀ call ∈ history, call.Built) ∧
    (history.foldl Registry.behind {}).WellFormed ∧
    (history.foldl Registry.behind {}).names = ["kit", "style"] ∧
    ((history.foldl Registry.behind {}).behind (.source "kit" "")).get? "kit" =
      some ⟨.macros [css], [css.typeText, "export type Css = string;"]⟩ := by
  have hbuilt : ∀ call ∈ history, call.Built := by
    simp [history, Registration.Built, css_built, css_built.withVersion 2, styling_built,
      styling_built.withVersion 2]
  have hget : (history.foldl Registry.behind {}).get? "kit" =
      some ⟨.macros [css], [css.typeText, "export type Css = string;"]⟩ := rfl
  exact ⟨hbuilt, registered_modules_stay_in_order.1 history hbuilt, by decide +kernel,
    registered_modules_stay_in_order.2.2 _ _ _ _ hget⟩

end CallExpander
