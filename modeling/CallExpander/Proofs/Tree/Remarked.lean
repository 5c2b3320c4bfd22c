import CallExpander.Proofs.Tree.Marking
import CallExpander.Import.Spec
import CallExpander.Tree.Calls

/-!
# Trees that differ in marks only

Marking names anew changes the marks and nothing else: a tree whose names are marked differently makes the
same imports and holds calls in the same places.
-/

namespace CallExpander.Node

/-- The tree with all its names marked as free. -/
def freed (n : Node) : Node :=
  n.map fun n => .mk n.form.unmark n.origin n.parts

/-- Two trees are the same but for the marks on their names. -/
def Remarked (a b : Node) : Prop := b.freed = a.freed

theorem freed_mk (form : Form) (origin : Origin) (parts : List Node) :
    (Node.mk form origin parts).freed = .mk form.unmark origin (parts.map freed) := by
  have hparts : ∀ (f : Node → Node) (parts : List Node), mapAll f parts = parts.map (map f) := by
    intro f parts
    induction parts with
    | nil => rfl
    | cons n rest ih => rw [mapAll, ih, List.map_cons]
  simp only [freed, map, hparts]
  rfl

theorem remarkedCongruence : Congruence fun a b => Remarked b a where
  refl _ := rfl
  ident {name x y origin parts} := by
    simp only [Remarked, freed_mk]
    rfl
  node {form origin as bs} h := by
    have hparts : as.map freed = bs.map freed := by
      induction h with
      | nil => rfl
      | cons hab _ ih => rw [List.map_cons, List.map_cons, hab, ih]
    simp only [Remarked, freed_mk, hparts]

theorem Remarked.mark {a b : Node} (h : Remarked a b) (env : Env) : Remarked a (mark env b).1 :=
  (rel_mark remarkedCongruence env b).trans h

mutual

theorem calls_freed : ∀ n : Node, n.freed.calls = n.calls.map freed
  | .mk form origin parts => by
    have hparts := callsIn_freed parts
    rw [freed_mk]
    cases form
    case call =>
      have hcall : (Node.mk .call origin parts).freed = .mk .call origin (parts.map freed) := freed_mk ..
      simp only [Form.unmark, calls, List.map_cons, hparts, hcall]
    all_goals exact hparts

theorem callsIn_freed : ∀ parts : List Node, callsIn (parts.map freed) = (callsIn parts).map freed
  | [] => rfl
  | n :: rest => by
    rw [List.map_cons, callsIn, callsIn, calls_freed n, callsIn_freed rest, List.map_append]

end

theorem Remarked.calls {a b : Node} (h : Remarked a b) (hcalls : a.calls = []) : b.calls = [] := by
  have hsame := calls_freed b
  rw [h, calls_freed a, hcalls] at hsame
  exact List.map_eq_nil_iff.mp hsame.symm

/-- What does not depend on marks at all is the same with other marks. -/
theorem Remarked.congr {α : Type} {f : Node → α} (hf : ∀ n : Node, f n.freed = f n) {a b : Node}
    (h : Remarked a b) : f b = f a := by
  rw [← hf b, h, hf a]

theorem Remarked.importDecl? {a b : Node} (h : Remarked a b) : b.importDecl? = a.importDecl? := by
  refine h.congr ?_
  rintro ⟨form, origin, parts⟩
  rw [freed_mk]
  cases form <;> rfl

mutual

/-- Cleaning up brings no calls about. -/
theorem calls_sweep : ∀ {n : Node}, n.calls = [] → n.sweep.calls = []
  | .mk form origin parts, h => by
    have hform : form ≠ .call := by
      rintro rfl
      cases h
    have hmk : ∀ parts, (Node.mk form origin parts).calls = callsIn parts := by
      intro parts
      cases form <;> first | rfl | exact absurd rfl hform
    have hparts := callsIn_sweep (hmk parts ▸ h)
    rcases sweep_cases form origin parts with
      ⟨-, hsweep, -⟩ | ⟨-, hsweep, -⟩ | ⟨-, -, -, hsweep, -⟩ | ⟨-, -, -, hsweep, -⟩ <;> rw [hsweep]
    · rfl
    · rfl
    · rw [hmk]
      exact hparts.2
    · rw [hmk]
      exact hparts.1

theorem callsIn_sweep : ∀ {parts : List Node}, callsIn parts = [] →
    callsIn (parts.map sweep) = [] ∧ callsIn (sweepStatements parts) = []
  | [], _ => ⟨rfl, rfl⟩
  | n :: rest, h => by
    rw [callsIn, List.append_eq_nil_iff] at h
    obtain ⟨hparts, hstatements⟩ := callsIn_sweep h.2
    have hn := calls_sweep h.1
    constructor
    · rw [List.map_cons, callsIn, hn, hparts]
      rfl
    · rw [sweepStatements]
      split
      · exact hstatements
      · rw [callsIn, hn, hstatements]
        rfl

end

end CallExpander.Node
