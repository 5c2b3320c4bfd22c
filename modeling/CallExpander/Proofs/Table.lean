import CallExpander.Table
import Mathlib.Data.List.Induction
import Mathlib.Data.List.Sort

/-!
# Tables by their entries

An insertion changes the entry of its own key and no other. Where the keys stand in their order, each of
them once, a table is determined by its entries, whatever order they were inserted in.
-/

namespace CallExpander.Table

variable {α : Type} {key other : String} {value : α} {table entries : List (String × α)}

/-- The keys stand in their order, each once. -/
def Sorted (table : List (String × α)) : Prop :=
  table.Pairwise fun a b => a.1 < b.1

theorem get?_cons_self : get? key ((key, value) :: table) = some value := by
  simp [get?]

theorem get?_cons_of_ne (h : other ≠ key) : get? key ((other, value) :: table) = get? key table := by
  simp [get?, h]

theorem mem_of_get? (h : get? key table = some value) : (key, value) ∈ table := by
  obtain ⟨⟨k, v⟩, hfind, rfl⟩ := Option.map_eq_some_iff.mp h
  have hkey : k = key := by simpa using List.find?_some hfind
  subst hkey
  exact List.mem_of_find?_eq_some hfind

theorem contains_iff_get? : contains key table = true ↔ get? key table ≠ none := by
  simp [contains, get?]

theorem get?_eq_none : get? key table = none ↔ key ∉ keys table := by
  rw [get?, Option.map_eq_none_iff, List.find?_eq_none, keys, List.mem_map]
  simp only [beq_iff_eq, not_exists, not_and]

/-- Where each key has one entry, it does not matter where that stands. -/
theorem get?_of_mem (hnodup : (keys table).Nodup) (hmem : (key, value) ∈ table) :
    get? key table = some value := by
  induction table with
  | nil => cases hmem
  | cons first rest ih =>
    obtain ⟨hfirst, hrest⟩ := List.nodup_cons.mp hnodup
    rcases List.mem_cons.mp hmem with rfl | hmem
    · exact get?_cons_self
    · have hkey : key ∈ keys rest := List.mem_map_of_mem hmem
      have hne : first.1 ≠ key := by
        rintro rfl
        exact hfirst hkey
      exact (get?_cons_of_ne hne).trans (ih hrest hmem)

theorem get?_reverse (hnodup : (keys table).Nodup) : get? key table.reverse = get? key table := by
  have hkeys : keys table.reverse = (keys table).reverse := List.map_reverse
  cases h : get? key table with
  | none => rwa [get?_eq_none, hkeys, List.mem_reverse, ← get?_eq_none]
  | some value =>
    exact get?_of_mem (hkeys ▸ List.nodup_reverse.mpr hnodup) (List.mem_reverse.mpr (mem_of_get? h))

theorem get?_filter {p : String → Bool} :
    get? key (table.filter fun entry => p entry.1) = if p key then get? key table else none := by
  have hand : ∀ entry : String × α,
      decide (p entry.1 = true ∧ (entry.1 == key) = true) = (p key && entry.1 == key) := by
    intro entry
    by_cases h : entry.1 = key <;> simp [h]
  simp only [get?, List.find?_filter, hand]
  cases p key <;> simp

/-! ## Insertion -/

theorem get?_insert_self : get? key (insert key value table) = some value := by
  induction table with
  | nil => exact get?_cons_self
  | cons entry rest ih =>
    obtain ⟨k, v⟩ := entry
    simp only [insert]
    split
    · exact get?_cons_self
    · split
      · exact get?_cons_self
      · next hne =>
        rw [get?_cons_of_ne (Ne.symm hne)]
        exact ih

theorem get?_insert_of_ne (h : key ≠ other) :
    get? other (insert key value table) = get? other table := by
  induction table with
  | nil => exact get?_cons_of_ne h
  | cons entry rest ih =>
    obtain ⟨k, v⟩ := entry
    simp only [insert]
    split
    · exact get?_cons_of_ne h
    · split
      · next heq =>
        subst heq
        rw [get?_cons_of_ne h, get?_cons_of_ne h]
      · by_cases hk : k = other
        · subst hk
          rw [get?_cons_self, get?_cons_self]
        · rw [get?_cons_of_ne hk, get?_cons_of_ne hk]
          exact ih

theorem mem_insert {entry : String × α} (h : entry ∈ insert key value table) :
    entry = (key, value) ∨ entry ∈ table := by
  induction table with
  | nil => simpa [insert] using h
  | cons first rest ih =>
    obtain ⟨k, v⟩ := first
    simp only [insert] at h
    split at h
    · simpa using h
    · split at h
      · rcases List.mem_cons.mp h with rfl | h
        · exact .inl rfl
        · exact .inr (List.mem_cons_of_mem _ h)
      · rcases List.mem_cons.mp h with rfl | h
        · exact .inr List.mem_cons_self
        · exact (ih h).imp id (List.mem_cons_of_mem _)

theorem Sorted.insert (h : Sorted table) : Sorted (insert key value table) := by
  induction table with
  | nil => exact List.pairwise_singleton _ _
  | cons first rest ih =>
    obtain ⟨k, v⟩ := first
    obtain ⟨hfirst, hrest⟩ := List.pairwise_cons.mp h
    simp only [Table.insert]
    split
    · next hlt =>
      refine List.pairwise_cons.mpr ⟨?_, h⟩
      intro entry hentry
      rcases List.mem_cons.mp hentry with rfl | hentry
      · exact hlt
      · exact String.lt_trans hlt (hfirst entry hentry)
    · next hge =>
      split
      · next heq =>
        subst heq
        exact List.pairwise_cons.mpr ⟨hfirst, hrest⟩
      · next hne =>
        -- The key belongs behind the first one.
        have hlt : k < key := by
          by_contra hnot
          exact hne (String.le_antisymm (String.not_lt.mp hnot) (String.not_lt.mp hge))
        refine List.pairwise_cons.mpr ⟨?_, ih hrest⟩
        intro entry hentry
        rcases mem_insert hentry with rfl | hentry
        · exact hlt
        · exact hfirst entry hentry

def insertAll (entries table : List (String × α)) : List (String × α) :=
  entries.foldl (fun table entry => insert entry.1 entry.2 table) table

/-- Of the entries of a key, the last one counts. -/
theorem get?_insertAll : get? key (insertAll entries table) =
    (get? key entries.reverse).or (get? key table) := by
  induction entries using List.reverseRecOn with
  | nil => rfl
  | append_singleton entries last ih =>
    rw [insertAll, List.foldl_append, List.reverse_append, List.reverse_singleton,
      List.singleton_append]
    by_cases h : last.1 = key
    · subst h
      rw [get?_cons_self, Option.some_or]
      exact get?_insert_self
    · rw [get?_cons_of_ne h, ← ih]
      exact get?_insert_of_ne h

theorem get?_insertAll_of_not_mem (h : key ∉ keys entries) :
    get? key (insertAll entries table) = get? key table := by
  have hnone : get? key entries.reverse = none := by
    rw [get?_eq_none, keys, List.map_reverse, List.mem_reverse]
    exact h
  rw [get?_insertAll, hnone, Option.none_or]

theorem Sorted.insertAll (h : Sorted table) : Sorted (insertAll entries table) := by
  induction entries generalizing table with
  | nil => exact h
  | cons first rest ih => exact ih h.insert

/-! ## Tables with the same entries -/

theorem Sorted.nodup (h : Sorted table) : (keys table).Nodup := by
  refine List.pairwise_map.mpr (h.imp ?_)
  rintro a b hlt heq
  exact String.lt_irrefl b.1 (heq ▸ hlt)

theorem Sorted.get?_of_mem (h : Sorted table) (hmem : (key, value) ∈ table) :
    get? key table = some value :=
  Table.get?_of_mem h.nodup hmem

/-- Two tables with the same entries are the same list. -/
theorem Sorted.ext {table' : List (String × α)} (h : Sorted table) (h' : Sorted table')
    (hget : ∀ key, get? key table = get? key table') : table = table' := by
  have hirrefl : Std.Irrefl fun a b : String × α => a.1 < b.1 := ⟨fun a => String.lt_irrefl a.1⟩
  have hantisymm : Std.Antisymm fun a b : String × α => a.1 < b.1 :=
    ⟨fun _ _ hab hba => absurd hba (String.lt_asymm hab)⟩
  refine List.Pairwise.eq_of_mem_iff h h' fun entry => ⟨?_, ?_⟩
  · intro hentry
    exact mem_of_get? ((hget entry.1).symm.trans (h.get?_of_mem hentry))
  · intro hentry
    exact mem_of_get? ((hget entry.1).trans (h'.get?_of_mem hentry))

/-- A table that is built from its own entries is what it was. -/
theorem Sorted.insertAll_nil (h : Sorted entries) : Table.insertAll entries [] = entries := by
  refine Sorted.ext (Sorted.insertAll List.Pairwise.nil) h fun key => ?_
  rw [get?_insertAll, get?_reverse h.nodup]
  exact Option.or_none

end CallExpander.Table
