import CallExpander.Proofs.Import

/-!
# Trees without markers

Cleaning up is about the markers of removed calls only: a tree that holds none is left as it is, and
no tree holds one afterwards. Resolving names does not touch markers.
-/

namespace CallExpander.Node

mutual

/-- Whether the marker of a removed call stands anywhere in a tree. -/
def hasMarker : Node → Bool
  | .mk form origin parts => (Node.mk form origin parts).isRemoved || hasMarkerIn parts

def hasMarkerIn : List Node → Bool
  | [] => false
  | n :: rest => hasMarker n || hasMarkerIn rest

end

theorem hasMarkerIn_eq_any (parts : List Node) : hasMarkerIn parts = parts.any hasMarker := by
  induction parts with
  | nil => rfl
  | cons n rest ih => rw [hasMarkerIn, List.any_cons, ih]

theorem unmarked_mk {form : Form} {origin : Origin} {parts : List Node} :
    (Node.mk form origin parts).hasMarker = false ↔
      (Node.mk form origin parts).isRemoved = false ∧ ∀ n ∈ parts, n.hasMarker = false := by
  rw [hasMarker, Bool.or_eq_false_iff, hasMarkerIn_eq_any]
  simp only [List.any_eq_false, Bool.not_eq_true]

theorem isRemoved_of_ne {form : Form} {origin : Origin} {parts : List Node} (h : form ≠ .removed) :
    (Node.mk form origin parts).isRemoved = false := by
  cases form <;> first | rfl | exact absurd rfl h

theorem isRemovedStatement_of_unmarked {n : Node} (h : n.hasMarker = false) :
    n.isRemovedStatement = false := by
  unfold isRemovedStatement
  split
  · next inner =>
    obtain ⟨form, origin, parts⟩ := inner
    exact (unmarked_mk.mp ((unmarked_mk.mp h).2 _ List.mem_cons_self)).1
  · rfl

theorem sweepStatements_eq_map {parts : List Node}
    (h : ∀ n ∈ parts, n.isRemovedStatement = false) : sweepStatements parts = parts.map sweep := by
  induction parts with
  | nil => rfl
  | cons n rest ih =>
    obtain ⟨hn, hrest⟩ := List.forall_mem_cons.mp h
    rw [sweepStatements, if_neg (by simp [hn]), ih hrest, List.map_cons]

mutual

/-- Cleaning up leaves a tree without markers as it is. -/
theorem sweep_of_unmarked : ∀ {n : Node}, n.hasMarker = false → n.sweep = n
  | .mk form origin parts, h => by
    obtain ⟨hremoved, hparts⟩ := unmarked_mk.mp h
    have hmap : parts.map sweep = parts := by
      rw [List.map_congr_left (g := id) (sweep_parts_of_unmarked hparts), List.map_id]
    rcases sweep_cases form origin parts with
      ⟨rfl, -, -⟩ | ⟨hstatement, -, -⟩ | ⟨-, -, -, hsweep, -⟩ | ⟨-, -, -, hsweep, -⟩
    · cases hremoved
    · rw [isRemovedStatement_of_unmarked h] at hstatement
      cases hstatement
    · rw [hsweep, sweepStatements_eq_map fun n hn => isRemovedStatement_of_unmarked (hparts n hn),
        hmap]
    · rw [hsweep, hmap]

theorem sweep_parts_of_unmarked : ∀ {parts : List Node}, (∀ n ∈ parts, n.hasMarker = false) →
    ∀ n ∈ parts, n.sweep = n
  | [], _ => by simp
  | n :: rest, h => by
    obtain ⟨hn, hrest⟩ := List.forall_mem_cons.mp h
    exact List.forall_mem_cons.mpr ⟨sweep_of_unmarked hn, sweep_parts_of_unmarked hrest⟩

end

mutual

/-- Cleaning up leaves no marker. -/
theorem unmarked_sweep : ∀ n : Node, n.sweep.hasMarker = false
  | .mk form origin parts => by
    have hparts := unmarked_sweep_parts parts
    rcases sweep_cases form origin parts with
      ⟨-, hsweep, -⟩ | ⟨-, hsweep, -⟩ | ⟨-, hform, -, hsweep, -⟩ | ⟨-, hform, -, hsweep, -⟩ <;>
      rw [hsweep]
    · rfl
    · rfl
    · refine unmarked_mk.mpr ⟨isRemoved_of_ne hform, fun n hn => ?_⟩
      obtain ⟨m, hm, rfl⟩ := mem_sweepStatements hn
      exact hparts m hm
    · refine unmarked_mk.mpr ⟨isRemoved_of_ne hform, fun n hn => ?_⟩
      obtain ⟨m, hm, rfl⟩ := List.mem_map.mp hn
      exact hparts m hm

theorem unmarked_sweep_parts : ∀ parts : List Node, ∀ n ∈ parts, n.sweep.hasMarker = false
  | [] => by simp
  | n :: rest => List.forall_mem_cons.mpr ⟨unmarked_sweep n, unmarked_sweep_parts rest⟩

end

theorem hasMarkerIn_congr {as bs : List Node}
    (h : List.Forall₂ (fun a b => a.hasMarker = b.hasMarker) as bs) :
    hasMarkerIn as = hasMarkerIn bs := by
  induction h with
  | nil => rfl
  | cons hab _ ih => rw [hasMarkerIn, hasMarkerIn, hab, ih]

/-- Marks on names are no markers. -/
theorem markerCongruence : Congruence fun a b => a.hasMarker = b.hasMarker where
  refl _ := rfl
  ident := rfl
  node {form origin as bs} h := by
    rw [hasMarker, hasMarker, hasMarkerIn_congr h]
    rfl

theorem unmarked_resolve {items : List Node} (h : ∀ n ∈ items, n.hasMarker = false) :
    ∀ n ∈ resolve items, n.hasMarker = false := by
  have hsame : hasMarkerIn (resolve items) = hasMarkerIn items :=
    hasMarkerIn_congr (rel_markAll markerCongruence _ items)
  simp only [hasMarkerIn_eq_any] at hsame
  have hnone : items.any hasMarker = false := by
    simpa only [List.any_eq_false, Bool.not_eq_true] using h
  rw [hnone] at hsame
  simpa only [List.any_eq_false, Bool.not_eq_true] using hsame

end CallExpander.Node
