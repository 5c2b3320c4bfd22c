import CallExpander.Proofs.Body.Repetition

/-!
# What satisfies a specification

A specification is satisfied by the declaration of another one exactly if both stand for the same import:
the five shapes come to four ways to import, since a name is its own alias. Whatever satisfies it, a loose
match accepts, too; so a loose search ends no later than a strict one.
-/

namespace CallExpander

namespace ImportSpec

variable {spec : ImportSpec}

/-- What is imported from a module, and under which name. -/
inductive Sought where
  | nothing
  | default (localName : String)
  | whole (localName : String)
  | member (exportName localName : String)

/-- What a specification imports. -/
def sought : ImportSpec → Sought
  | .namespace _ name => .whole name
  | .aliased _ exportName localName => .member exportName localName
  | .named _ exportName => .member exportName exportName
  | .default _ name => .default name
  | .bare _ => .nothing

/-- Two specifications stand for the same import. -/
def SameImport (a b : ImportSpec) : Prop :=
  a.module = b.module ∧ a.sought = b.sought

/-- Specifications that stand for the same import differ in their shape at most. -/
theorem plain_eq_iff {a b : ImportSpec} : a.plain = b.plain ↔ a.SameImport b := by
  cases a <;> cases b <;> simp only [plain, SameImport, ImportSpec.module, sought] <;> grind

/-- A loose match asks for less. -/
theorem matchesSpecifier_loose {specifier : ImportSpecifier}
    (h : spec.matchesSpecifier false specifier = true) :
    spec.matchesSpecifier true specifier = true := by
  cases spec with
  | bare => exact h
  | default =>
    cases specifier with
    | default => rfl
    | _ => cases h
  | «namespace» =>
    cases specifier with
    | «namespace» => rfl
    | _ => cases h
  | named | aliased =>
    obtain ⟨names, hnames, hmatch⟩ := (Option.any_eq_true _ _).mp h
    rw [Bool.and_eq_true] at hmatch
    exact (Option.any_eq_true _ _).mpr ⟨names, hnames, Bool.and_eq_true_iff.mpr ⟨hmatch.1, rfl⟩⟩

theorem isSatisfiedBy_loose {decl : ImportDecl} (h : spec.isSatisfiedBy false decl = true) :
    spec.isSatisfiedBy true decl = true := by
  simp only [isSatisfiedBy, Bool.and_eq_true] at h ⊢
  refine ⟨h.1, ?_⟩
  cases spec with
  | bare => rfl
  | _ =>
    obtain ⟨specifier, hmem, hmatches⟩ := List.any_eq_true.mp h.2
    exact List.any_eq_true.mpr ⟨specifier, hmem, matchesSpecifier_loose hmatches⟩

end ImportSpec

theorem findImport_loose {items : List Node} {spec : ImportSpec} {place : Nat}
    (h : findImport items spec false = some place) :
    ∃ first ≤ place, findImport items spec true = some first := by
  have hloose : ∀ item ∈ items, item.importDecl?.any (spec.isSatisfiedBy false) = true →
      item.importDecl?.any (spec.isSatisfiedBy true) = true := by
    intro item _ hstrict
    obtain ⟨decl, hdecl, hsatisfied⟩ := (Option.any_eq_true _ _).mp hstrict
    exact (Option.any_eq_true _ _).mpr ⟨decl, hdecl, ImportSpec.isSatisfiedBy_loose hsatisfied⟩
  have hle := List.findIdx_le_findIdx hloose
  obtain ⟨hlt, rfl⟩ := List.findIdx?_eq_some_iff_findIdx_eq.mp h
  exact ⟨_, hle, List.findIdx?_eq_some_iff_findIdx_eq.mpr ⟨Nat.lt_of_le_of_lt hle hlt, rfl⟩⟩

/-- The declaration of one specification satisfies another exactly if both stand for the same import. What
satisfies a specification strictly satisfies it loosely, so in any program a loose search finds something
where a strict one does, and not behind it. -/
theorem satisfied_by_same_import :
    (∀ s t : ImportSpec, s.ProvidedBy t.toItem ↔ s.SameImport t) ∧
    (∀ (s : ImportSpec) (decl : ImportDecl),
      s.isSatisfiedBy false decl = true → s.isSatisfiedBy true decl = true) ∧
    ∀ (items : List Node) (s : ImportSpec) (place : Nat), findImport items s false = some place →
      ∃ first ≤ place, findImport items s true = some first :=
  ⟨fun _ _ => ImportSpec.providedBy_toItem_iff.trans ImportSpec.plain_eq_iff,
    fun _ _ => ImportSpec.isSatisfiedBy_loose, fun _ _ _ => findImport_loose⟩

def renamedFirst : List Node :=
  [(ImportSpec.aliased "lib" "a" "b").toItem, (ImportSpec.aliased "lib" "a" "a").toItem]

theorem renamedFirst_is_found_loosely :
    (ImportSpec.named "lib" "a").ProvidedBy (ImportSpec.aliased "lib" "a" "a").toItem ∧
    ¬ (ImportSpec.named "lib" "a").ProvidedBy (ImportSpec.aliased "lib" "a" "b").toItem ∧
    findImport renamedFirst (.named "lib" "a") false = some 1 ∧
    findImport renamedFirst (.named "lib" "a") true = some 0 ∧
    (∃ first ≤ 1, findImport renamedFirst (.named "lib" "a") true = some first) ∧
    (ImportSpec.bare "lib").isSatisfiedBy false (ImportSpec.bare "lib").toDecl = true ∧
    (ImportSpec.bare "lib").isSatisfiedBy true (ImportSpec.bare "lib").toDecl = true := by
  obtain ⟨hsame, hdecl, hitems⟩ := satisfied_by_same_import
  have hfound : findImport renamedFirst (.named "lib" "a") false = some 1 := by decide
  have hbare : (ImportSpec.bare "lib").isSatisfiedBy false (ImportSpec.bare "lib").toDecl = true := by
    decide
  refine ⟨(hsame _ _).mpr ⟨rfl, rfl⟩, fun h => ?_, hfound, by decide, hitems _ _ _ hfound, hbare,
    hdecl _ _ hbare⟩
  obtain ⟨-, hsought⟩ := (hsame _ _).mp h
  simp [ImportSpec.sought] at hsought

end CallExpander
