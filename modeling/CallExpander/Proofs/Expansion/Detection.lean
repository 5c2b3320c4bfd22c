import CallExpander.Proofs.Expansion.Pending
import CallExpander.Proofs.Tree.Marker

/-!
# Looking for macro calls

A handler can ask whether an item or an expression contains a macro call before it asks for its
expansion. The answer is found by looking at the calls of a tree, without changing anything, while
an expansion walks over the tree in another way. The two agree: where there is no call of a macro
that exists, expanding changes nothing, or stops at the call of one that does not; where there is
one, expanding applies a macro.
-/

namespace CallExpander

/-- A tree contains a macro call if it is one or one of its parts contains one. -/
theorem containsMacros_mk {bindings : List Binding} {form : Form} {origin : Origin}
    {parts : List Node} : containsMacros bindings (.mk form origin parts) = false ↔
      isMacroCall bindings (.mk form origin parts) = false ∧
        ∀ n ∈ parts, containsMacros bindings n = false := by
  simp only [containsMacros, List.any_eq_false, Bool.not_eq_true]
  refine Node.forall_calls_mk fun hother => ?_
  cases form
  case call => exact absurd rfl hother
  all_goals rfl

/-- No macro call, known or unknown, is no known one. -/
theorem Node.Inert.not_containsMacros {bindings : List Binding} {n : Node} (h : n.Inert bindings) :
    containsMacros bindings n = false := by
  simp only [containsMacros, List.any_eq_false, Bool.not_eq_true]
  intro call hcall
  rw [isMacroCall, h call hcall]

namespace Job

variable {job : Job} {run run' : Run} {w : Walker} {α : Type}

/-- A part of an expansion gives some answer and changes nothing, or stops at the call of a macro
that does not exist and changes nothing. -/
def Inactive (job : Job) (run : Run) (x : Expansion α) (a : α) : Prop :=
  x run = .ok a run ∨ ∃ name module site,
    x run = .error (.failure (.unknownMacro name module job.source.path site)) run

theorem Inactive.bind {β : Type} {x : Expansion α} {f : α → Expansion β} {a : α} {b : β}
    (hx : job.Inactive run x a) (hf : job.Inactive run (f a) b) : job.Inactive run (x >>= f) b := by
  obtain hx | ⟨name, module, site, hx⟩ := hx
  · rwa [Inactive, Expansion.bind_of_ok hx]
  · exact .inr ⟨name, module, site, Expansion.bind_of_error hx⟩

theorem inactive_pure (a : α) : job.Inactive run (pure a) a := .inl rfl

/-- What is not the call of a macro that exists is an ordinary call, or identifying it fails. -/
theorem inactive_identify {n : Node} (h : isMacroCall run.bindings n = false) :
    job.Inactive run (job.identify n) none := by
  unfold identify
  refine Inactive.bind (.inl (rfl : (get : Expansion Run) run = .ok run run)) ?_
  rcases hres : resolveCall run.bindings n with _ | ⟨module, name⟩ | ⟨module, name⟩
  · exact inactive_pure none
  · rw [isMacroCall, hres] at h
    cases h
  · exact .inr ⟨name, module, _, rfl⟩

mutual

/-- Where there is no call of a macro that exists, expanding a tree changes nothing. -/
theorem inactive_visit (w : Walker) : ∀ {n : Node}, containsMacros run.bindings n = false →
    job.Inactive run (job.visit w n) n
  | .mk form origin parts, h => by
    obtain ⟨hcall, hparts⟩ := containsMacros_mk.mp h
    rw [visit]
    exact (inactive_identify hcall).bind ((inactive_visitParts w hparts).bind (inactive_pure _))

theorem inactive_visitParts (w : Walker) : ∀ {parts : List Node},
    (∀ n ∈ parts, containsMacros run.bindings n = false) →
    job.Inactive run (job.visitParts w parts) parts
  | [], _ => by
    rw [visitParts]
    exact inactive_pure _
  | n :: rest, h => by
    obtain ⟨hn, hrest⟩ := List.forall_mem_cons.mp h
    rw [visitParts]
    exact (inactive_visit w hn).bind ((inactive_visitParts w hrest).bind (inactive_pure _))

end

/-- Expanding an item without a marker and without a call of a macro that exists puts it back as it
was. -/
theorem inactive_expandItem (w : Walker) {index : Nat} {item : Node}
    (hitem : run.body.items[index]? = some item) (hunmarked : item.hasMarker = false)
    (h : containsMacros run.bindings item = false) :
    job.Inactive run (job.expandItem w index) (index + 1) := by
  obtain ⟨body, hdetach⟩ : ∃ body, run.body.detach? index = some (item, body) :=
    ⟨_, by rw [Body.detach?, hitem]; rfl⟩
  have hback := Body.reattach?_detach? hdetach
  have hvisit : job.Inactive { run with body } (job.visit w item) item := inactive_visit w h
  unfold Inactive expandItem reattach
  simp only [hdetach]
  obtain hvisit | ⟨name, module, site, hvisit⟩ := hvisit
  · refine .inl ?_
    simp only [hvisit, Node.isRemovedStatement_of_unmarked hunmarked,
      Node.sweep_of_unmarked hunmarked, hback]
    rfl
  · refine .inr ⟨name, module, site, ?_⟩
    simp only [hvisit, hback]

theorem inactive_expandArgument (budget : Nat) {e : Node} (h : containsMacros run.bindings e = false) :
    job.Inactive run (expandArgument (job.walker (budget + 1)) e) e.sweep :=
  (inactive_visit (job.walker budget) h).bind (inactive_pure _)

/-- Expanding a tree that contains a macro call applies a macro, if it ends well. -/
theorem applied_lt_of_visit {budget : Nat} {n n' : Node} (hs : run.body.Sound)
    (hcall : containsMacros run.bindings n = true)
    (h : job.visit (job.walker budget) n run = .ok n' run') : run.applied < run'.applied := by
  have hserves := (growth job).serves_walker budget
  obtain ⟨-, hr, -⟩ := (Discipline.keeps_visit hserves n).ok hs trivial h
  refine Nat.lt_of_le_of_ne hr.1.applied fun heq => ?_
  obtain ⟨-, -, hinert⟩ := quiet_visit hserves hs h heq.symm
  rw [hinert.not_containsMacros] at hcall
  cases hcall

/-- Whatever an expansion is about to do: expanding an item that is not out and holds no marker, or an
expression, changes nothing or stops at the call of a macro that does not exist if no macro call is
found in it, and applies a macro, if it ends well, if one is. -/
theorem containsMacros_decides {budget level : Nat} {items : List Node} {work : Work}
    (h : job.Begins budget items level work run) :
    (∀ index item, run.body.items[index]? = some item → index ∉ run.body.pending →
      item.hasMarker = false →
      (run.body.containsMacros run.bindings index = false → ∀ steps,
        job.Inactive run (job.expandItem (job.walker steps) index) (index + 1)) ∧
      (run.body.containsMacros run.bindings index = true → ∀ steps next run',
        job.expandItem (job.walker steps) index run = .ok next run' →
        run.applied + 1 ≤ run'.applied)) ∧
    ∀ e, (containsMacros run.bindings e = false → ∀ steps,
        job.Inactive run (expandArgument (job.walker (steps + 1)) e) e.sweep) ∧
      (containsMacros run.bindings e = true → ∀ steps e' run',
        expandArgument (job.walker (steps + 1)) e run = .ok e' run' →
        run.applied + 1 ≤ run'.applied) := by
  have hs := h.held.toSound
  refine ⟨fun index item hitem hfree hunmarked => ?_, fun e => ⟨fun hnone steps => ?_, ?_⟩⟩
  · have hpending : run.body.isPending index = false := by
      simpa only [Body.isPending, List.contains_eq_mem, decide_eq_false_iff_not] using hfree
    rw [Body.containsMacros, hpending, hitem, Bool.false_or, Option.any_some]
    refine ⟨fun hnone steps => inactive_expandItem _ hitem hunmarked hnone, ?_⟩
    intro hsome steps next run' hexpand
    obtain ⟨item', body, item'', mid, hdetach, hvisit, hend⟩ := ok_expandItem hexpand
    obtain ⟨hitem', -, -⟩ := Body.detach?_places hdetach
    obtain rfl : item = item' := Option.some.inj (hitem.symm.trans hitem')
    have hsound : ({ run with body } : Run).body.Sound := hs.detach hfree hdetach
    have hlt := applied_lt_of_visit hsound hsome hvisit
    obtain ⟨-, body', -, rfl⟩ | ⟨-, place, body', -, -, rfl⟩ := hend <;> exact hlt
  · exact inactive_expandArgument steps hnone
  · intro hsome steps e' run' hexpand
    obtain ⟨e'', mid, hvisit, hpure⟩ := Expansion.ok_bind hexpand
    obtain ⟨-, rfl⟩ := Expansion.ok_pure hpure
    exact applied_lt_of_visit hs hsome hvisit

theorem bracketing_containsMacros_decides : ∃ run next run',
    bracketing.Begins 2 bracketed 2 (.walk 0) run ∧
    bracketing.Inactive run (bracketing.expandItem (bracketing.walker 2) 1) 2 ∧
    bracketing.expandItem (bracketing.walker 2) 0 run = .ok next run' ∧
    run.applied + 1 ≤ run'.applied := by
  have hbegins : bracketing.Begins 2 bracketed 2 (.walk 0) _ := .pass .start
  obtain ⟨hitem, -⟩ := containsMacros_decides hbegins
  have hquiet := (hitem 1 _ rfl List.not_mem_nil rfl).1 rfl 2
  have hloud := (hitem 0 _ rfl List.not_mem_nil rfl).2 rfl 2 _ _ rfl
  exact ⟨_, _, _, hbegins, hquiet, rfl, hloud⟩

end Job

end CallExpander
