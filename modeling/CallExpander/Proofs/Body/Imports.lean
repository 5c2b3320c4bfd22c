import CallExpander.Proofs.Body.Bracket
import Mathlib.Data.List.Induction

/-!
# Imports that are ensured

A macro asks for imports, and is told where each of them stands. Those that are there already are used,
and the others are built and inserted in one block: so the places of the former have to be moved behind
the block, if they stand behind it, and the places of the latter are counted in the block. Nothing else
of the program changes.
-/

namespace CallExpander

namespace ImportSpec

/-- An item is an import that provides what is asked for, under the local name that is asked for. -/
def ProvidedBy (spec : ImportSpec) (item : Node) : Prop :=
  ∃ decl, item.importDecl? = some decl ∧ spec.isSatisfiedBy false decl = true

theorem providedBy_iff {spec : ImportSpec} {item : Node} :
    spec.ProvidedBy item ↔ item.importDecl?.any (spec.isSatisfiedBy false) = true :=
  (Option.any_eq_true _ _).symm

/-- The declaration that a specification stands for provides it. -/
theorem isSatisfiedBy_toDecl (spec : ImportSpec) (loose : Bool) :
    spec.isSatisfiedBy loose spec.toDecl = true := by
  cases spec with
  | aliased module exportName localName =>
    by_cases h : exportName = localName <;>
      simp [isSatisfiedBy, toDecl, specifiers, matchesSpecifier, namedParts, ImportSpec.module,
        ExportName.text, h]
  | _ => simp [isSatisfiedBy, toDecl, specifiers, matchesSpecifier, namedParts, ImportSpec.module]

theorem providedBy_toItem (spec : ImportSpec) : spec.ProvidedBy spec.toItem :=
  ⟨spec.toDecl, rfl, spec.isSatisfiedBy_toDecl false⟩

end ImportSpec

theorem findImport_eq_none {items : List Node} {spec : ImportSpec} :
    findImport items spec false = none ↔ ∀ item ∈ items, ¬ spec.ProvidedBy item := by
  simp only [findImport, List.findIdx?_eq_none_iff, ImportSpec.providedBy_iff, Bool.not_eq_true]

theorem providedBy_of_findImport {items : List Node} {spec : ImportSpec} {place : Nat}
    (h : findImport items spec false = some place) :
    ∃ item, items[place]? = some item ∧ spec.ProvidedBy item := by
  obtain ⟨hlt, hprovided, -⟩ := List.findIdx?_eq_some_iff_getElem.mp h
  exact ⟨items[place], List.getElem?_eq_getElem hlt, ImportSpec.providedBy_iff.mpr hprovided⟩

namespace Body

theorem mem_missingImports {items : List Node} {spec : ImportSpec} {missing specs : List ImportSpec} :
    spec ∈ missingImports items missing specs ↔
      spec ∈ missing ∨ spec ∈ specs ∧ findImport items spec false = none := by
  induction specs generalizing missing with
  | nil => simp [missingImports]
  | cons first rest ih =>
    unfold missingImports
    split
    · next hpresent =>
      -- The first one is not missing, or it is known to be.
      have hfirst : spec = first → findImport items spec false = none → spec ∈ missing := by
        rintro rfl hnone
        simpa [hnone] using hpresent
      rw [ih, List.mem_cons]
      tauto
    · next habsent =>
      have hfirst : spec = first → findImport items spec false = none := by
        rintro rfl
        simp only [Bool.or_eq_true, not_or, Option.not_isSome_iff_eq_none] at habsent
        exact habsent.1
      rw [ih, List.mem_append, List.mem_singleton, List.mem_cons]
      tauto

theorem nodup_missingImports {items : List Node} {missing specs : List ImportSpec}
    (h : missing.Nodup) : (missingImports items missing specs).Nodup := by
  induction specs generalizing missing with
  | nil => exact h
  | cons first rest ih =>
    unfold missingImports
    split
    · exact ih h
    · next habsent =>
      simp only [Bool.or_eq_true, not_or, List.contains_iff_mem] at habsent
      exact ih (List.concat_eq_append ▸ h.concat habsent.2)

/-- A new import stands in the block where it is counted. -/
theorem getElem?_block {items new : List Node} {index offset : Nat} {item : Node}
    (hindex : index ≤ items.length) (hitem : new[offset]? = some item) :
    (items.take index ++ new ++ items.drop index)[index + offset]? = some item := by
  have htake : (items.take index).length = index := List.length_take_of_le hindex
  have hoffset : offset < new.length := (List.getElem?_eq_some_iff.mp hitem).1
  rw [List.append_assoc, List.getElem?_append_right (by omega), htake, Nat.add_sub_cancel_left,
    List.getElem?_append_left hoffset, hitem]

/-- What a program has become, and which places are told, when imports were ensured with new ones at
an index. -/
structure Ensured (body : Body) (specs : List ImportSpec) (index : Nat) (places : List Nat)
    (after : Body) : Prop where
  /-- There is one place for each specification, and an import that provides it stands there. -/
  provided : List.Forall₂ (fun spec place =>
    ∃ item, after.items[place]? = some item ∧ spec.ProvidedBy item) specs places
  /-- New imports stand in one block, one for each specification that nothing provided before, and
  everything else, be it out, is what it was. -/
  block : ∃ new : List ImportSpec, new.Nodup ∧
    (∀ spec, spec ∈ new ↔ spec ∈ specs ∧ ∀ item ∈ body.items, ¬ spec.ProvidedBy item) ∧
    after.items = body.items.take index ++ new.map ImportSpec.toItem ++ body.items.drop index ∧
    after.pending = body.pending.map (shift index new.length) ∧
    (∀ place, after.items[shift index new.length place]? = body.items[place]?) ∧
    ∀ others, after.restore others = (body.restore others).take index ++
      new.map ImportSpec.toItem ++ (body.restore others).drop index

theorem getElem?_importIndex {body : Body} {specs : List ImportSpec} {index : Nat} {spec : ImportSpec}
    (hindex : index ≤ body.size) (hspec : spec ∈ specs) :
    ∃ item, (body.ensureImports index specs).2.items[
        importIndex body.items (missingImports body.items [] specs) index spec]? = some item ∧
      spec.ProvidedBy item := by
  unfold importIndex
  split
  · next place hfound =>
    obtain ⟨item, hitem, hprovided⟩ := providedBy_of_findImport hfound
    exact ⟨item, (getElem?_ensureImports specs place hindex).trans hitem, hprovided⟩
  · next hnone =>
    have hmissing : spec ∈ missingImports body.items [] specs :=
      mem_missingImports.mpr (.inr ⟨hspec, hnone⟩)
    refine ⟨spec.toItem, getElem?_block hindex ?_, spec.providedBy_toItem⟩
    rw [List.getElem?_map, List.getElem?_idxOf hmissing, Option.map_some]

/-- An insertion does the same to the program in which the items that are out were put back. -/
theorem restore_insertAll {body : Body} {index : Nat} (hindex : index ≤ body.size) (new : List Node)
    (others : List Node) : (body.insertAll index new).restore others =
      (body.restore others).take index ++ new ++ (body.restore others).drop index := by
  have hfits : (Alterations.insert index new .done).Fits body.size body.pending := ⟨hindex, trivial⟩
  exact (Alterations.apply_putBack hfits (fun _ => id) others).symm

theorem ensured_ensureImports (body : Body) (specs : List ImportSpec) {index : Nat}
    (hindex : index ≤ body.size) : body.Ensured specs index (body.ensureImports index specs).1
      (body.ensureImports index specs).2 where
  provided := by
    rw [ensureImports, List.forall₂_map_right_iff, List.forall₂_same]
    exact fun spec hspec => getElem?_importIndex hindex hspec
  block := by
    refine ⟨missingImports body.items [] specs, nodup_missingImports List.nodup_nil, fun spec => ?_,
      rfl, pending_ensureImports body index specs,
      fun place => getElem?_ensureImports specs place hindex, restore_insertAll hindex _⟩
    rw [mem_missingImports, findImport_eq_none]
    simp only [List.not_mem_nil, false_or]

/-- The index behind the last import is behind an import, if there is one, and no import is behind it. -/
theorem behindImports_spec (items : List Node) :
    (∀ item ∈ items.drop (behindImports items), item.importDecl? = none) ∧
      (behindImports items = 0 ∨ ∃ last item, behindImports items = last + 1 ∧
        items[last]? = some item ∧ item.importDecl?.isSome = true) := by
  induction items using List.reverseRecOn with
  | nil => exact ⟨by simp [behindImports], .inl rfl⟩
  | append_singleton items item ih =>
    cases hitem : item.importDecl?.isNone with
    | true =>
      have hbehind : behindImports (items ++ [item]) = behindImports items := by
        simp [behindImports, hitem]
      obtain ⟨hnone, hlast⟩ := ih
      rw [hbehind, List.drop_append_of_le_length (behindImports_le items)]
      refine ⟨fun other hother => ?_, hlast.imp_right ?_⟩
      · rcases List.mem_append.mp hother with hother | hother
        · exact hnone other hother
        · exact List.mem_singleton.mp hother ▸ Option.isNone_iff_eq_none.mp hitem
      · rintro ⟨last, other, heq, hother, hsome⟩
        refine ⟨last, other, heq, ?_, hsome⟩
        rw [List.getElem?_append_left (List.getElem?_eq_some_iff.mp hother).1, hother]
    | false =>
      have hbehind : behindImports (items ++ [item]) = items.length + 1 := by
        simp [behindImports, hitem]
      refine ⟨by simp [hbehind], .inr ⟨items.length, item, hbehind, by simp, ?_⟩⟩
      simpa using hitem

/-- Ensuring imports tells, for each specification in turn, where an import now stands that provides it,
and changes nothing of the program but that one block of new imports comes in: in front of everything,
or right behind the last import, if there is one. -/
theorem imports_ensured (body : Body) (specs : List ImportSpec) :
    body.Ensured specs 0 (body.prependImports specs).1 (body.prependImports specs).2 ∧
      ∃ index, body.Ensured specs index (body.appendImports specs).1 (body.appendImports specs).2 ∧
        (∀ item ∈ body.items.drop index, item.importDecl? = none) ∧
        (index = 0 ∨ ∃ last item, index = last + 1 ∧ body.items[last]? = some item ∧
          item.importDecl?.isSome = true) :=
  ⟨ensured_ensureImports body specs (Nat.zero_le _), behindImports body.items,
    ensured_ensureImports body specs (behindImports_le body.items), behindImports_spec body.items⟩

-- The import that is there already moves behind the two new ones, and the one that is asked for twice
-- comes in once.
example :
    (Body.prependImports { items := [(ImportSpec.default "mod-x" "x").toItem, Node.identifier "run"] }
      [.named "mod-a" "one", .default "mod-x" "x", .named "mod-a" "one", .bare "mod-b"]).1 =
        [0, 2, 0, 1] := by
  decide

end Body

end CallExpander
