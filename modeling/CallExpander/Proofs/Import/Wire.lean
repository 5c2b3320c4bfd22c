import CallExpander.Import.Spec
import CallExpander.Proofs.Table

/-!
# Specifications as objects

The five shapes of a specification share their keys and have no tag, so which shape an object has is a
matter of the order in which they are tried. It is the right one: a specification is read exactly from the
objects that hold its texts under its keys and do not hold texts under all keys of a shape that comes
before its own.
-/

namespace CallExpander

namespace Json

def holdsTexts (value : Json) (keys : List String) : Bool :=
  keys.all fun key => (value.getStr? key).isSome

/-- An object without the entries of other keys. -/
def restrict (keys : List String) : Json → Json
  | .obj entries => .obj (entries.filter fun entry => keys.contains entry.1)
  | value => value

def extend (others : List (String × Json)) : Json → Json
  | .obj entries => .obj (Table.insertAll others entries)
  | value => value

theorem getStr?_eq_some {value : Json} {key text : String} :
    value.getStr? key = some text ↔ value.get? key = some (.str text) := by
  rw [getStr?, Option.bind_eq_some_iff]
  constructor
  · rintro ⟨found, hfound, htext⟩
    cases found with
    | str s =>
      cases htext
      exact hfound
    | _ => cases htext
  · exact fun h => ⟨_, h, rfl⟩

theorem getStr?_extend {value : Json} {others : List (String × Json)} {key : String}
    (h : key ∉ Table.keys others) : (value.extend others).getStr? key = value.getStr? key := by
  cases value with
  | obj entries => exact congrArg (Option.bind · str?) (Table.get?_insertAll_of_not_mem h)
  | _ => rfl

end Json

namespace ImportSpec

variable {value : Json} {spec : ImportSpec} {module name exportName localName : String}

/-- The keys of each shape, in the order in which the shapes are tried. -/
def shapes : List (List String) :=
  [["moduleName", "namespaceName"], ["moduleName", "exportName", "localName"],
    ["moduleName", "exportName"], ["moduleName", "defaultName"], ["moduleName"]]

/-- The texts of a specification, each under its key. -/
def fields : ImportSpec → List (String × String)
  | .namespace module name => [("moduleName", module), ("namespaceName", name)]
  | .aliased module exportName localName =>
    [("moduleName", module), ("exportName", exportName), ("localName", localName)]
  | .named module exportName => [("moduleName", module), ("exportName", exportName)]
  | .default module name => [("moduleName", module), ("defaultName", name)]
  | .bare module => [("moduleName", module)]

def keys (spec : ImportSpec) : List String := Table.keys spec.fields

/-- The shapes that are tried before that of a specification. -/
def earlier (spec : ImportSpec) : List (List String) := shapes.takeWhile (· != spec.keys)

@[simp] theorem earlier_namespace : (ImportSpec.namespace module name).earlier = [] := rfl

@[simp] theorem earlier_aliased : (aliased module exportName localName).earlier =
    [["moduleName", "namespaceName"]] := rfl

@[simp] theorem earlier_named : (named module exportName).earlier =
    [["moduleName", "namespaceName"], ["moduleName", "exportName", "localName"]] := rfl

@[simp] theorem earlier_default : (ImportSpec.default module name).earlier =
    [["moduleName", "namespaceName"], ["moduleName", "exportName", "localName"],
      ["moduleName", "exportName"]] := rfl

@[simp] theorem earlier_bare : (bare module).earlier =
    [["moduleName", "namespaceName"], ["moduleName", "exportName", "localName"],
      ["moduleName", "exportName"], ["moduleName", "defaultName"]] := rfl

/-! ## Reading -/

/-- What is read from an object is in it, and no shape that is tried before fits. -/
theorem texts_of_ofJson? (h : ofJson? value = some spec) :
    (∀ field ∈ spec.fields, value.getStr? field.1 = some field.2) ∧
      ∀ keys ∈ spec.earlier, value.holdsTexts keys = false := by
  unfold ofJson? at h
  split at h
  · cases h
  · -- One case for each shape, with the texts that it found and those that the ones before missed.
    split at h <;> cases h <;>
      simp_all [fields, Json.holdsTexts, Option.eq_none_iff_forall_ne_some]

theorem ofJson?_of_texts (htexts : ∀ field ∈ spec.fields, value.getStr? field.1 = some field.2)
    (hearlier : ∀ keys ∈ spec.earlier, value.holdsTexts keys = false) :
    ofJson? value = some spec := by
  cases spec <;>
    simp only [fields, List.forall_mem_cons] at htexts <;>
    simp_all [ofJson?, Json.holdsTexts]

/-- Keys that belong to no shape do not matter. -/
theorem ofJson?_congr {a b : Json}
    (h : ∀ keys ∈ shapes, ∀ key ∈ keys, a.getStr? key = b.getStr? key) : ofJson? a = ofJson? b := by
  simp only [shapes, List.forall_mem_cons] at h
  obtain ⟨⟨hmodule, hnamespace, -⟩, ⟨-, hexport, hlocal, -⟩, -, ⟨-, hdefault, -⟩, -⟩ := h
  rw [ofJson?, ofJson?, hmodule, hnamespace, hexport, hlocal, hdefault]

/-! ## Writing -/

/-- The entries of a specification as data, in the order in which they are written. -/
def entries (spec : ImportSpec) : List (String × Json) :=
  spec.fields.map fun field => (field.1, .str field.2)

theorem toJson_eq (spec : ImportSpec) : spec.toJson = .obj (Table.insertAll spec.entries []) := by
  cases spec <;> rfl

theorem keys_entries (spec : ImportSpec) : Table.keys spec.entries = spec.keys :=
  List.map_map

theorem nodup_keys (spec : ImportSpec) : spec.keys.Nodup := by
  cases spec <;> simp [keys, fields, Table.keys]

theorem get?_entries (spec : ImportSpec) (key : String) :
    Table.get? key (Table.insertAll spec.entries []) = Table.get? key spec.entries := by
  have hnodup : (Table.keys spec.entries).Nodup := spec.keys_entries ▸ spec.nodup_keys
  rw [Table.get?_insertAll, Table.get?_reverse hnodup]
  exact Option.or_none

theorem ofJson?_toJson (spec : ImportSpec) : ofJson? spec.toJson = some spec := by
  have hget : ∀ key, spec.toJson.get? key = Table.get? key spec.entries := by
    intro key
    rw [toJson_eq]
    exact spec.get?_entries key
  cases spec <;> simp [ofJson?, Json.getStr?, hget, entries, fields, Table.get?, Json.str?]

/-- An object holds the texts of a specification exactly if, but for other keys, it is what the
specification is written as. -/
theorem toJson_eq_restrict_iff {table : List (String × Json)} (hsorted : Table.Sorted table) :
    spec.toJson = (Json.obj table).restrict spec.keys ↔
      ∀ field ∈ spec.fields, (Json.obj table).getStr? field.1 = some field.2 := by
  have hentry : ∀ field ∈ spec.fields, Table.get? field.1 spec.entries = some (.str field.2) :=
    fun field hfield => Table.get?_of_mem (spec.keys_entries ▸ spec.nodup_keys)
      (List.mem_map.mpr ⟨field, hfield, rfl⟩)
  rw [toJson_eq, Json.restrict, Json.obj.injEq]
  constructor
  · intro heq field hfield
    have hkey : spec.keys.contains field.1 = true :=
      List.contains_iff_mem.mpr (List.mem_map_of_mem hfield)
    rw [Json.getStr?_eq_some, Json.get?, ← hentry field hfield, ← get?_entries, heq,
      Table.get?_filter, if_pos hkey]
  · intro htexts
    refine Table.Sorted.ext (Table.Sorted.insertAll .nil) (hsorted.filter _) fun key => ?_
    rw [get?_entries, Table.get?_filter]
    split
    · next hkey =>
      obtain ⟨field, hfield, rfl⟩ := List.mem_map.mp (List.contains_iff_mem.mp hkey)
      rw [hentry field hfield]
      exact (Json.getStr?_eq_some.mp (htexts field hfield)).symm
    · next hkey =>
      rw [Table.get?_eq_none, keys_entries]
      exact fun hmem => hkey (List.contains_iff_mem.mpr hmem)

/-- Specifications survive being written and read again, whatever entries of other keys are added in
between. And what is read from an object, if anything, is the specification that the object is the written
form of once its other keys are left out, none of the shapes before being there. -/
theorem ofJson?_inverts_toJson (spec : ImportSpec) :
    ofJson? spec.toJson = some spec ∧
      (∀ others : List (String × Json),
        (∀ entry ∈ others, ∀ keys ∈ shapes, entry.1 ∉ keys) →
          ofJson? (spec.toJson.extend others) = some spec) ∧
      ∀ table : List (String × Json), Table.Sorted table →
        (ofJson? (.obj table) = some spec ↔
          spec.toJson = (Json.obj table).restrict spec.keys ∧
            ∀ keys ∈ spec.earlier, (Json.obj table).holdsTexts keys = false) := by
  refine ⟨spec.ofJson?_toJson, fun others hothers => ?_, fun table hsorted => ?_⟩
  · rw [← spec.ofJson?_toJson]
    refine ofJson?_congr fun keys hkeys key hkey => Json.getStr?_extend fun hmem => ?_
    obtain ⟨entry, hentry, rfl⟩ := List.mem_map.mp hmem
    exact hothers entry hentry keys hkeys hkey
  · rw [toJson_eq_restrict_iff hsorted]
    exact ⟨texts_of_ofJson?, fun h => ofJson?_of_texts h.1 h.2⟩

/-- A named specification is read beside a foreign key, and from an object whose `localName` and
`namespaceName` are not texts. -/
theorem named_is_read_among_others :
    (∀ entry ∈ [("note", Json.str "n")], ∀ keys ∈ shapes, entry.1 ∉ keys) ∧
      ofJson? ((named "m" "e").toJson.extend [("note", .str "n")]) = some (named "m" "e") ∧
      Table.Sorted [("exportName", Json.str "e"), ("localName", .null), ("moduleName", .str "m"),
        ("namespaceName", .bool true)] ∧
      ofJson? (.obj [("exportName", .str "e"), ("localName", .null), ("moduleName", .str "m"),
        ("namespaceName", .bool true)]) = some (named "m" "e") := by
  have hforeign : ∀ entry ∈ [("note", Json.str "n")], ∀ keys ∈ shapes, entry.1 ∉ keys := by decide
  have hsorted : Table.Sorted [("exportName", Json.str "e"), ("localName", .null),
      ("moduleName", .str "m"), ("namespaceName", .bool true)] := by
    unfold Table.Sorted
    decide +kernel
  obtain ⟨-, hothers, htable⟩ := ofJson?_inverts_toJson (named "m" "e")
  exact ⟨hforeign, hothers _ hforeign, hsorted, (htable _ hsorted).mpr ⟨rfl, by decide⟩⟩

end ImportSpec

end CallExpander
