import CallExpander.Proofs.Body.Imports

/-!
# Imports that are asked for again

What is missing is told apart by the shape of its specification, what is there by what it provides. So a
list that names an import in two shapes, by its name and by an alias that is the same name, gets it twice,
and is told another place the next time. Every other list gets each import once, and may ask again.
-/

namespace CallExpander

namespace ImportSpec

/-- The specification in its simplest shape: an alias that is the name itself is none. -/
def plain : ImportSpec → ImportSpec
  | .aliased module exportName localName =>
    if exportName = localName then .named module exportName
    else .aliased module exportName localName
  | spec => spec

/-- A declaration provides an import in whatever shape it is asked for. -/
theorem isSatisfiedBy_plain (spec : ImportSpec) (decl : ImportDecl) :
    spec.plain.isSatisfiedBy false decl = spec.isSatisfiedBy false decl := by
  cases spec with
  | aliased module exportName localName =>
    by_cases h : exportName = localName
    · have hmatches : matchesSpecifier (.named module localName) false =
          matchesSpecifier (.aliased module localName localName) false := by
        funext specifier
        cases specifier <;> rfl
      subst h
      simp [plain, isSatisfiedBy, ImportSpec.module, hmatches]
    · rw [plain, if_neg h]
  | _ => rfl

theorem providedBy_plain {spec : ImportSpec} {item : Node} :
    spec.plain.ProvidedBy item ↔ spec.ProvidedBy item := by
  simp only [ProvidedBy, isSatisfiedBy_plain]

/-- An import that was built for one specification provides exactly those that ask for the same. -/
theorem isSatisfiedBy_toDecl_iff {a b : ImportSpec} :
    a.isSatisfiedBy false b.toDecl = true ↔ a.plain = b.plain := by
  have hnames : ∀ exportName localName : String,
      (if exportName = localName then none else some (ExportName.name ⟨exportName, .built⟩)).elim
        localName ExportName.text = exportName := by
    intro exportName localName
    split
    · next h => exact h.symm
    · rfl
  cases a <;> cases b <;>
    simp only [isSatisfiedBy, toDecl, specifiers, matchesSpecifier, namedParts, ImportSpec.module,
      plain, hnames, List.any_cons, List.any_nil, List.isEmpty_nil, List.isEmpty_cons, Option.any_some,
      Option.any_none]
  all_goals grind

/-- The declaration that one specification stands for provides another exactly if both ask for the same
import. -/
theorem providedBy_toItem_iff {a b : ImportSpec} : a.ProvidedBy b.toItem ↔ a.plain = b.plain := by
  rw [← isSatisfiedBy_toDecl_iff]
  constructor
  · rintro ⟨decl, hdecl, hprovided⟩
    cases hdecl
    exact hprovided
  · exact fun h => ⟨b.toDecl, rfl, h⟩

theorem providedBy_congr {a b : ImportSpec} (h : a.plain = b.plain) (item : Node) :
    a.ProvidedBy item ↔ b.ProvidedBy item := by
  rw [← providedBy_plain, h, providedBy_plain]

/-- Only an import by name has two shapes. -/
theorem eq_of_plain_eq {a b : ImportSpec} (h : a.plain = b.plain) (hne : a ≠ b) :
    ∃ module name, (a = .named module name ∧ b = .aliased module name name) ∨
      (b = .named module name ∧ a = .aliased module name name) := by
  cases a <;> cases b <;> simp only [plain] at h <;> grind

end ImportSpec

/-- An import that no item provides is asked for in two shapes. -/
def AsksTwice (items : List Node) (specs : List ImportSpec) : Prop :=
  ∃ module name, .named module name ∈ specs ∧ .aliased module name name ∈ specs ∧
    ∀ item ∈ items, ¬ (ImportSpec.named module name).ProvidedBy item

/-- Otherwise, what is missing is told apart by what it asks for. -/
theorem eq_of_not_asksTwice {items : List Node} {specs : List ImportSpec} {a b : ImportSpec}
    (h : ¬ AsksTwice items specs) (ha : a ∈ specs) (hb : b ∈ specs)
    (hmissing : ∀ item ∈ items, ¬ a.ProvidedBy item) (hplain : a.plain = b.plain) : a = b := by
  by_contra hne
  obtain ⟨module, name, ⟨rfl, rfl⟩ | ⟨rfl, rfl⟩⟩ := ImportSpec.eq_of_plain_eq hplain hne
  · exact h ⟨module, name, ha, hb, hmissing⟩
  · refine h ⟨module, name, hb, ha, fun item hitem hprovided => hmissing item hitem ?_⟩
    exact (ImportSpec.providedBy_congr hplain item).mpr hprovided

theorem findImport_congr {items : List Node} {a b : ImportSpec} (h : a.plain = b.plain) :
    findImport items a false = findImport items b false := by
  have hsame : a.isSatisfiedBy false = b.isSatisfiedBy false := by
    funext decl
    rw [← ImportSpec.isSatisfiedBy_plain, h, ImportSpec.isSatisfiedBy_plain]
  rw [findImport, hsame, findImport]

namespace Body

variable {items new : List Node} {spec : ImportSpec} {index : Nat}

/-- What was provided before is provided by the same item, if the new ones do not provide it. -/
theorem findImport_block_of_some {place : Nat} (hindex : index ≤ items.length)
    (hfound : findImport items spec false = some place) (hnew : ∀ item ∈ new, ¬ spec.ProvidedBy item) :
    findImport (items.take index ++ new ++ items.drop index) spec false =
      some (shift index new.length place) := by
  have htake : (items.take index).length = index := List.length_take_of_le hindex
  have hsplit : findImport (items.take index ++ items.drop index) spec false = some place := by
    rwa [List.take_append_drop]
  have hnone := findImport_eq_none.mpr hnew
  simp only [findImport, List.findIdx?_append, htake, List.length_append] at hsplit hnone ⊢
  rw [hnone, Option.map_none, Option.or_none]
  cases hfront : (items.take index).findIdx? fun n => n.importDecl?.any (spec.isSatisfiedBy false) with
  | some i =>
    have hi : i < index := htake ▸ (List.findIdx?_eq_some_iff_getElem.mp hfront).1
    rw [hfront, Option.some_or] at hsplit
    cases hsplit
    rw [Option.some_or, shift, if_neg (by omega)]
  | none =>
    rw [hfront, Option.none_or] at hsplit
    obtain ⟨behind, hbehind, rfl⟩ := Option.map_eq_some_iff.mp hsplit
    rw [Option.none_or, hbehind, Option.map_some, shift, if_pos (by omega)]
    congr 1
    omega

/-- What was not provided before is provided by the first new item that provides it. -/
theorem findImport_block_of_none {offset : Nat} (hindex : index ≤ items.length)
    (hnone : findImport items spec false = none) (hnew : findImport new spec false = some offset) :
    findImport (items.take index ++ new ++ items.drop index) spec false = some (index + offset) := by
  have htake : (items.take index).length = index := List.length_take_of_le hindex
  have hfront : findImport (items.take index) spec false = none :=
    findImport_eq_none.mpr fun item hitem =>
      findImport_eq_none.mp hnone item (List.mem_of_mem_take hitem)
  simp only [findImport, List.findIdx?_append, htake] at hfront hnew ⊢
  rw [hfront, hnew, Option.none_or, Option.map_some, Option.some_or, Nat.add_comm]

variable {body : Body} {specs : List ImportSpec}

/-- Where imports were ensured, none of them is missing. -/
theorem missingImports_ensureImports (hindex : index ≤ body.size) :
    missingImports (body.ensureImports index specs).2.items [] specs = [] := by
  refine List.eq_nil_iff_forall_not_mem.mpr fun spec hspec => ?_
  rcases mem_missingImports.mp hspec with hspec | ⟨hspec, hnone⟩
  · cases hspec
  · obtain ⟨item, hitem, hprovided⟩ := getElem?_importIndex hindex hspec
    exact findImport_eq_none.mp hnone item (List.mem_of_getElem? hitem) hprovided

theorem insertAll_nil (body : Body) (index : Nat) : body.insertAll index [] = body := by
  have hitems : (body.insertAll index []).items = body.items := by
    simp only [insertAll, List.append_nil, List.take_append_drop]
  have hpending : (body.insertAll index []).pending = body.pending := map_shift_zero index body.pending
  exact congrArg₂ Body.mk hitems hpending

/-- Ensuring imports once more leaves the program as it is. -/
theorem ensureImports_again (hindex : index ≤ body.size) (again : Nat) :
    ((body.ensureImports index specs).2.ensureImports again specs).2 =
      (body.ensureImports index specs).2 := by
  rw [ensureImports, missingImports_ensureImports hindex, List.map_nil, insertAll_nil]

theorem importIndex_nil {place : Nat} (hfound : findImport items spec false = some place)
    (again : Nat) : importIndex items [] again spec = place := by
  simp [importIndex, hfound]

/-- The same places are told once more exactly if each of them is the first one with such an import. -/
theorem places_again_iff (hindex : index ≤ body.size) (again : Nat) :
    ((body.ensureImports index specs).2.ensureImports again specs).1 =
        (body.ensureImports index specs).1 ↔
      ∀ spec ∈ specs, findImport (body.ensureImports index specs).2.items spec false =
        some (importIndex body.items (missingImports body.items [] specs) index spec) := by
  have hplaces : (body.ensureImports index specs).1 =
      specs.map (importIndex body.items (missingImports body.items [] specs) index) := rfl
  rw [ensureImports, missingImports_ensureImports hindex, hplaces, List.map_inj_left]
  refine forall₂_congr fun spec hspec => ?_
  obtain ⟨item, hitem, hprovided⟩ := getElem?_importIndex hindex hspec
  cases hfound : findImport (body.ensureImports index specs).2.items spec false with
  | none => exact absurd hprovided (findImport_eq_none.mp hfound item (List.mem_of_getElem? hitem))
  | some place => rw [importIndex_nil hfound, Option.some_inj]

/-- Where no missing import is asked for in two shapes, the first import that provides a specification is
the one that was told. -/
theorem findImport_ensureImports (hindex : index ≤ body.size) (hspec : spec ∈ specs)
    (honce : ¬ AsksTwice body.items specs) :
    findImport (body.ensureImports index specs).2.items spec false =
      some (importIndex body.items (missingImports body.items [] specs) index spec) := by
  have hnew : ∀ other ∈ missingImports body.items [] specs, spec.ProvidedBy other.toItem →
      spec = other ∧ findImport body.items spec false = none := by
    intro other hother hprovided
    have hplain := ImportSpec.providedBy_toItem_iff.mp hprovided
    rcases mem_missingImports.mp hother with hother | ⟨hother, hnone⟩
    · cases hother
    have heq := eq_of_not_asksTwice honce hother hspec (findImport_eq_none.mp hnone) hplain.symm
    exact ⟨heq.symm, heq ▸ hnone⟩
  unfold importIndex
  split
  · next place hfound =>
    have hother : ∀ item ∈ (missingImports body.items [] specs).map ImportSpec.toItem,
        ¬ spec.ProvidedBy item := by
      intro item hitem hprovided
      obtain ⟨other, hother, rfl⟩ := List.mem_map.mp hitem
      cases hfound.symm.trans (hnew other hother hprovided).2
    have hmoved := findImport_block_of_some hindex hfound hother
    rwa [List.length_map] at hmoved
  · next hnone =>
    have hmissing : spec ∈ missingImports body.items [] specs :=
      mem_missingImports.mpr (.inr ⟨hspec, hnone⟩)
    refine findImport_block_of_none hindex hnone ?_
    have hlt := List.idxOf_lt_length_of_mem hmissing
    refine List.findIdx?_eq_some_iff_getElem.mpr ⟨by rwa [List.length_map], ?_, fun j hj => ?_⟩
    · rw [List.getElem_map, List.getElem_idxOf hlt]
      exact ImportSpec.providedBy_iff.mp spec.providedBy_toItem
    · rw [List.getElem_map, ← ImportSpec.providedBy_iff]
      intro hprovided
      have heq := (hnew _ (List.getElem_mem _) hprovided).1
      have hother := List.not_of_lt_findIdx hj
      simp [← heq] at hother

/-- Making sure of imports does so once: no two of the imports that are inserted provide the same
specification, and asking again changes nothing and tells the same places. -/
structure EnsuresOnce (ensure : Body → List ImportSpec → List Nat × Body) (body : Body)
    (specs : List ImportSpec) : Prop where
  unique : ∃ index new, (ensure body specs).2 = body.insertAll index new ∧
    new.Pairwise fun a b => ∀ spec ∈ specs, ¬ (spec.ProvidedBy a ∧ spec.ProvidedBy b)
  again : ensure (ensure body specs).2 specs = ensure body specs

variable {place : List Node → Nat}

theorem unique_of_not_asksTwice (body : Body) (honce : ¬ AsksTwice body.items specs) :
    ((missingImports body.items [] specs).map ImportSpec.toItem).Pairwise
      fun a b => ∀ spec ∈ specs, ¬ (spec.ProvidedBy a ∧ spec.ProvidedBy b) := by
  refine List.pairwise_map.mpr ((nodup_missingImports List.nodup_nil).imp_of_mem ?_)
  rintro a b ha hb hne spec - ⟨hprovidedA, hprovidedB⟩
  obtain ⟨ha, hnone⟩ := (mem_missingImports.mp ha).resolve_left (List.not_mem_nil)
  obtain ⟨hb, -⟩ := (mem_missingImports.mp hb).resolve_left (List.not_mem_nil)
  have hplain : a.plain = b.plain :=
    (ImportSpec.providedBy_toItem_iff.mp hprovidedA).symm.trans
      (ImportSpec.providedBy_toItem_iff.mp hprovidedB)
  exact hne (eq_of_not_asksTwice honce ha hb (findImport_eq_none.mp hnone) hplain)

/-- Wherever new imports are put, they are ensured once exactly if none is asked for in two shapes. -/
theorem ensuresOnce_at_iff (hplace : ∀ items, place items ≤ items.length) (body : Body)
    (specs : List ImportSpec) :
    EnsuresOnce (fun body specs => body.ensureImports (place body.items) specs) body specs ↔
      ¬ AsksTwice body.items specs := by
  constructor
  · rintro ⟨-, hagain⟩ ⟨module, name, hnamed, haliased, hmissing⟩
    have hplaces := (places_again_iff (hplace body.items) _).mp (congrArg Prod.fst hagain)
    have hplain : (ImportSpec.named module name).plain = (ImportSpec.aliased module name name).plain := by
      simp [ImportSpec.plain]
    -- Both shapes are found at the same import, but they were told different ones.
    have hsame : importIndex body.items (missingImports body.items [] specs) (place body.items)
          (.named module name) =
        importIndex body.items (missingImports body.items [] specs) (place body.items)
          (.aliased module name name) := by
      have hfound := hplaces _ haliased
      rw [← findImport_congr hplain, hplaces _ hnamed] at hfound
      exact Option.some.inj hfound
    have hnone := findImport_eq_none.mpr hmissing
    have hnone' := (findImport_congr hplain).symm.trans hnone
    simp only [importIndex, hnone, hnone', Nat.add_left_cancel_iff] at hsame
    have hmem : .named module name ∈ missingImports body.items [] specs :=
      mem_missingImports.mpr (.inr ⟨hnamed, hnone⟩)
    cases (List.idxOf_inj hmem).mp hsame
  · intro honce
    refine ⟨⟨place body.items, _, rfl, unique_of_not_asksTwice body honce⟩, Prod.ext ?_ ?_⟩
    · exact (places_again_iff (hplace body.items) _).mpr fun spec hspec =>
        findImport_ensureImports (hplace body.items) hspec honce
    · exact ensureImports_again (hplace body.items) _

/-- A list of imports is ensured once, in front of everything as well as behind the last import, exactly if
it asks for no missing import in two shapes. Asking again leaves the program as it is in any case. -/
theorem imports_ensured_once_iff (body : Body) (specs : List ImportSpec) :
    (EnsuresOnce prependImports body specs ↔ ¬ AsksTwice body.items specs) ∧
    (EnsuresOnce appendImports body specs ↔ ¬ AsksTwice body.items specs) ∧
    (prependImports (prependImports body specs).2 specs).2 = (prependImports body specs).2 ∧
    (appendImports (appendImports body specs).2 specs).2 = (appendImports body specs).2 :=
  ⟨ensuresOnce_at_iff (fun _ => Nat.zero_le _) body specs, ensuresOnce_at_iff behindImports_le body specs,
    ensureImports_again (Nat.zero_le _) _, ensureImports_again (behindImports_le _) _⟩

/-- An import by its name, and by an alias that is the same name. -/
def inTwoShapes : List ImportSpec := [.named "lib" "a", .aliased "lib" "a" "a"]

/-- In front of an empty program, an import in two shapes is inserted twice, so that both declarations
provide what either asks for. The next time both are told the place of the first one. -/
theorem import_in_two_shapes_is_doubled :
    (∃ after, prependImports ⟨[], []⟩ inTwoShapes = ([0, 1], after) ∧
      after.items = inTwoShapes.map ImportSpec.toItem ∧
      (∀ spec ∈ inTwoShapes, ∀ item ∈ after.items, spec.ProvidedBy item) ∧
      (prependImports after inTwoShapes).1 = [0, 0]) ∧
    ¬ EnsuresOnce prependImports ⟨[], []⟩ inTwoShapes ∧
    ¬ EnsuresOnce appendImports ⟨[], []⟩ inTwoShapes := by
  have htwice : AsksTwice [] inTwoShapes := by
    refine ⟨"lib", "a", ?_, ?_, ?_⟩ <;> simp [inTwoShapes]
  refine ⟨⟨_, rfl, rfl, ?_, by decide⟩, ?_, ?_⟩
  · intro spec hspec item hitem
    have hnew : item ∈ inTwoShapes.map ImportSpec.toItem := hitem
    obtain ⟨other, hother, rfl⟩ := List.mem_map.mp hnew
    refine ImportSpec.providedBy_toItem_iff.mpr ?_
    have hplain : ∀ spec ∈ inTwoShapes, spec.plain = .named "lib" "a" := by decide
    rw [hplain spec hspec, hplain other hother]
  · exact fun h => (ensuresOnce_at_iff (fun _ => Nat.zero_le _) _ _).mp h htwice
  · exact fun h => (ensuresOnce_at_iff behindImports_le _ _).mp h htwice

end Body

end CallExpander
