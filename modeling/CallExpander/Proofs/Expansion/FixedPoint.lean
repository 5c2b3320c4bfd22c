import CallExpander.Proofs.Expansion.Quiet
import CallExpander.Proofs.Import

/-!
# Success is a fixed point

An expansion succeeds after a pass that applied nothing. That pass looked at every call and found no
macro call. Behind it imports are collected and names are resolved once more: nothing is left to
collect, and no name changes its mark, so in the program that is printed no call is a macro call
either.
-/

namespace CallExpander

open Node

mutual

/-- Cleaning up a tree without macro calls brings none about. -/
theorem Node.Inert.sweep {bindings : List Binding} : ∀ {n : Node}, n.Inert bindings →
    n.sweep.Inert bindings
  | .mk form origin parts, h => by
    obtain ⟨hcall, hparts⟩ := inert_mk.mp h
    have hswept := inert_sweepParts hparts
    rcases sweep_cases form origin parts with
      ⟨_, h, _⟩ | ⟨_, h, _⟩ | ⟨_, _, hlist, h, _⟩ | ⟨_, _, _, h, _⟩ <;> rw [h]
    · intro call hmem; cases hmem
    · intro call hmem; cases hmem
    · have hcall : resolveCall bindings (.mk form origin (sweepStatements parts)) = none := by
        cases form <;> first | rfl | cases hlist
      refine inert_mk.mpr ⟨hcall, fun n hn => ?_⟩
      obtain ⟨m, hm, rfl⟩ := mem_sweepStatements hn
      exact hswept m hm
    · refine inert_mk.mpr ⟨?_, fun n hn => ?_⟩
      · rw [← sweepParts_eq_map, resolveCall_sweepParts]
        exact hcall
      · obtain ⟨m, hm, rfl⟩ := List.mem_map.mp hn
        exact hswept m hm

theorem inert_sweepParts {bindings : List Binding} : ∀ {parts : List Node},
    (∀ n ∈ parts, n.Inert bindings) → ∀ n ∈ parts, n.sweep.Inert bindings
  | [], _ => by simp
  | n :: rest, h => by
    obtain ⟨hn, hrest⟩ := List.forall_mem_cons.mp h
    exact List.forall_mem_cons.mpr ⟨hn.sweep, inert_sweepParts hrest⟩

end

namespace Job

variable {job : Job} {run run' : Run}

/-- The states in which a pass starts: no place is pending, names are resolved, and no import is
left to retire. -/
structure Fresh (job : Job) (run : Run) : Prop where
  idle : run.Idle
  resolved : ∃ items, run.body.items = resolve items
  spent : ∀ item ∈ run.body.items,
    Retired.Spent job.registry.exports job.options.keepImports item

theorem fresh_start (job : Job) (items : List Node) : job.Fresh (job.start items) where
  idle := rfl
  resolved := ⟨_, rfl⟩
  spent := spent_resolve (spent_collectBindings _ _ items)

theorem fresh_refresh {budget : Nat} {a : Unit} (h : job.Fresh run)
    (hpass : job.runPass budget run = .ok a run') : job.Fresh (job.refresh run') where
  idle := idle_refresh h.idle hpass
  resolved := ⟨_, rfl⟩
  spent := spent_resolve (spent_collectBindings _ _ _)

/-- Behind a quiet pass nothing is collected, no mark changes, and no macro call is left. -/
theorem refresh_of_quiet {budget : Nat} {a : Unit} (h : job.Fresh run)
    (hpass : job.runPass budget run = .ok a run') (hq : run'.applied = 0) :
    (job.refresh run').bindings = run.bindings ∧
      (job.refresh run').body.items = sweepStatements run.body.items ∧
      resolve (sweepStatements run.body.items) = sweepStatements run.body.items ∧
      ∀ item ∈ sweepStatements run.body.items, item.Inert run.bindings := by
  have hidle : (beginPass run).Idle := h.idle
  obtain ⟨hbindings, hitems, hinert⟩ := quiet_expandFrom hidle hpass hq
  change run'.bindings = run.bindings at hbindings
  change run'.body.items = sweepStatements run.body.items at hitems
  change ∀ item ∈ run.body.items, item.Inert run.bindings at hinert
  have hresolve : resolve (sweepStatements run.body.items) = sweepStatements run.body.items := by
    obtain ⟨items, hresolved⟩ := h.resolved
    rw [hresolved]
    exact resolve_sweepStatements items
  have hcollect : collectBindings job.registry.exports job.options.keepImports
      (sweepStatements run.body.items) = ([], sweepStatements run.body.items) := by
    refine collectBindings_of_spent fun item hitem => ?_
    obtain ⟨n, hn, rfl⟩ := mem_sweepStatements hitem
    exact spent_sweep (h.spent n hn)
  refine ⟨?_, ?_, hresolve, fun item hitem => ?_⟩
  · simp only [refresh, hitems, hcollect, List.append_nil, hbindings]
  · simp only [refresh, hitems, hcollect, hresolve]
  · obtain ⟨n, hn, rfl⟩ := mem_sweepStatements hitem
    exact (hinert n hn).sweep

/-- Expanding a file to its end leaves a program whose names are resolved and in which no call is
the call of a macro, known or unknown. -/
theorem transformed_is_fixedPoint (job : Job) (budget : Nat) (output : Output)
    (h : (job.run budget).outcome = .ok (.transformed output)) :
    ∃ module run, job.source.parse = .ok module ∧
      job.expand budget module.items = some (.ok output.passes run) ∧
      output.code = Code.printModule { module with items := run.body.items } ∧
      output.trace = run.trace ∧
      resolve run.body.items = run.body.items ∧
      ∀ item ∈ run.body.items, ∀ call ∈ item.calls, resolveCall run.bindings call = none := by
  unfold Job.run at h
  split at h
  · cases h
  next module hparse =>
  split at h
  · cases h
  · cases h
  next passes run hexpand =>
  cases h
  refine ⟨module, run, hparse, hexpand, rfl, rfl, ?_⟩
  unfold expand at hexpand
  simp only at hexpand
  split at hexpand
  · cases hexpand
  have hsettle := Option.some.inj hexpand
  -- The last pass applied nothing, so what is printed is what it found, cleaned up.
  obtain ⟨last, a, mid, hlast, hpass, happlied, rfl⟩ :=
    ok_settle (Q := job.Fresh) fresh_refresh (job.fresh_start module.items) hsettle
  obtain ⟨hbindings, hitems, hresolve, hinert⟩ := refresh_of_quiet hlast hpass happlied
  rw [hbindings, hitems]
  exact ⟨hresolve, hinert⟩

def removing : Job where
  registry := ⟨[("m", ⟨.macros
    [⟨"drop", .context fun _ => modify Context.remove, "", compatVersion⟩], []⟩)]⟩
  source := Source.ofPath "a.js" "import \x7b drop \x7d from 'm';\ndrop();\nkeep();\n"

theorem removing_settles : ∃ module run, removing.source.parse = .ok module ∧
    removing.expand 3 module.items = some (.ok 1 run) ∧
    "keep();\n" = Code.printModule { module with items := run.body.items } ∧
    [⟨1, "drop", "m", some ⟨2, 1⟩⟩] = run.trace ∧
    resolve run.body.items = run.body.items ∧
    ∀ item ∈ run.body.items, ∀ call ∈ item.calls, resolveCall run.bindings call = none :=
  transformed_is_fixedPoint removing 3 ⟨"keep();\n", 1, [⟨1, "drop", "m", some ⟨2, 1⟩⟩]⟩
    (by decide +kernel)

end Job

end CallExpander
