import CallExpander.Proofs.Number.Binary64
import CallExpander.Proofs.Table
import CallExpander.Tree.Literal

/-!
# The literal of a value has that value

A value and its literal are read alongside each other: a number comes back where a double holds it, a key
comes back whether it was written as a name or as a string, and the entries of an object come back in the
order in which they were. What a value is made of is only asked for in the last lemmas; those before them
are about one level of it.
-/

namespace CallExpander

open CallExpander.Number

/-- A number that is told apart from every other one by the double nearest to it: an integer up to 2^53,
or a double that is no integer. -/
def JsonNumber.Exact : JsonNumber → Prop
  | .int n => n.natAbs ≤ 2 ^ 53
  | .float (.finite neg mantissa exponent) => (Binary64.finite neg mantissa exponent).toInt? = none
  | .float _ => False

instance : DecidablePred JsonNumber.Exact
  | .int n => inferInstanceAs (Decidable (n.natAbs ≤ 2 ^ 53))
  | .float (.finite neg mantissa exponent) =>
    inferInstanceAs (Decidable ((Binary64.finite neg mantissa exponent).toInt? = none))
  | .float .nan | .float (.infinite _) => .isFalse id

/-- All numbers in a value are exact, and its objects have their entries in the order of the keys, one for
each key. -/
inductive Json.Exact : Json → Prop
  | null : Exact .null
  | bool (b : Bool) : Exact (.bool b)
  | num {n : JsonNumber} (h : n.Exact) : Exact (.num n)
  | str (s : String) : Exact (.str s)
  | arr {items : List Json} (h : ∀ v ∈ items, v.Exact) : Exact (.arr items)
  | obj {entries : List (String × Json)} (hsorted : Table.Sorted entries)
      (h : ∀ entry ∈ entries, entry.2.Exact) : Exact (.obj entries)

namespace Node

theorem numberValue?_toBinary64 {n : JsonNumber} (h : n.Exact) :
    numberValue? n.toBinary64 = some (.num n) := by
  cases n with
  | int n =>
    have hsmall : n.natAbs ≤ 2 ^ 53 := h
    have hfits : n.natAbs < Nat.pow 2 63 := lt_of_le_of_lt hsmall (by decide)
    simp only [JsonNumber.toBinary64, numberValue?, Binary64.toInt?_ofInt hsmall, if_pos hfits]
  | float x =>
    cases x with
    | finite neg mantissa exponent =>
      have hnone : (Binary64.finite neg mantissa exponent).toInt? = none := h
      rw [JsonNumber.toBinary64, numberValue?, hnone]
    | _ => cases h

theorem keyText?_keyOf (key : String) : keyText? (keyOf key) = some key := by
  unfold keyOf
  split <;> rfl

theorem ofJsonItems_eq_map (items : List Json) : ofJsonItems items = items.map ofJson := by
  induction items with
  | nil => rfl
  | cons v rest ih => rw [ofJsonItems, ih, List.map_cons]

theorem literals?_map {items : List Json} (h : ∀ v ∈ items, (ofJson v).literal? = some v) :
    literals? (items.map ofJson) = some items := by
  induction items with
  | nil => rfl
  | cons v rest ih =>
    obtain ⟨hv, hrest⟩ := List.forall_mem_cons.mp h
    simp only [List.map_cons, literals?, hv, ih hrest, Option.map_some]

/-- The entries of an object are put one after the other into those that were read before. -/
theorem entries?_ofJsonEntries {entries : List (String × Json)}
    (h : ∀ entry ∈ entries, (ofJson entry.2).literal? = some entry.2) (table : List (String × Json)) :
    entries? (ofJsonEntries entries) table = some (Table.insertAll entries table) := by
  induction entries generalizing table with
  | nil => rfl
  | cons entry rest ih =>
    obtain ⟨hentry, hrest⟩ := List.forall_mem_cons.mp h
    simp only [ofJsonEntries, build, entries?, keyText?_keyOf, hentry, ih hrest, Table.insertAll,
      List.foldl_cons]

theorem literal?_ofJson {v : Json} (h : v.Exact) : (ofJson v).literal? = some v := by
  induction h with
  | null | bool | str => rfl
  | num h => exact numberValue?_toBinary64 h
  | arr _ ih =>
    rw [ofJson, ofJsonItems_eq_map, arrayOf, build, literal?, literals?_map ih, Option.map_some]
  | obj hsorted _ ih =>
    rw [ofJson, build, literal?, entries?_ofJsonEntries ih, hsorted.insertAll_nil, Option.map_some]

theorem stringValue?_ofJson (v : Json) : (ofJson v).stringValue? = v.str? := by
  cases v <;> rfl

/-- The literal of a value has that value, if all numbers in it are exact, in particular if they are
integers up to 2^53; and of all literals that of a text, and no other, is a string, with that text. -/
theorem literal_has_value (v : Json) :
    (v.Exact → (ofJson v).literal? = some v) ∧ (ofJson v).stringValue? = v.str? :=
  ⟨literal?_ofJson, stringValue?_ofJson v⟩

/-- The greatest and the least integer there can be, and a fraction, under keys that are no names. -/
def nested : Json :=
  .obj [("", .arr [.num (.int (2 ^ 53)), .num (.int (-2 ^ 53)), .obj []]),
    ("half a", .num (.float (.finite true 5 (-1)))), ("if", .str "\"")]

theorem nested_literal_has_value : nested.Exact ∧ (ofJson nested).literal? = some nested ∧
    (ofJson nested).stringValue? = none ∧ (ofJson (.str "a\nb")).stringValue? = some "a\nb" := by
  have hnumbers : ∀ v ∈ [Json.num (.int (2 ^ 53)), .num (.int (-2 ^ 53)), .obj []], v.Exact := by
    simp only [List.forall_mem_cons]
    exact ⟨.num (by decide), .num (by decide), .obj .nil (by simp), by simp⟩
  have hentries : nested.Exact := by
    refine .obj (by unfold Table.Sorted; decide +kernel) ?_
    simp only [List.forall_mem_cons]
    exact ⟨.arr hnumbers, .num (by decide), .str _, by simp⟩
  exact ⟨hentries, (literal_has_value nested).1 hentries, (literal_has_value nested).2,
    (literal_has_value (.str "a\nb")).2⟩

-- A double that is an integer comes back as one, so it is not exact.
example : (ofJson (.num (.float (.finite false 1 1)))).literal? = some (.num (.int 2)) := rfl

end Node

end CallExpander
