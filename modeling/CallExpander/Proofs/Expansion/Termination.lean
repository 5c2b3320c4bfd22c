import CallExpander.Proofs.Expansion.Settling
import CallExpander.Proofs.Expansion.Shadowing
import CallExpander.Proofs.Registry
import Mathlib.Data.Finset.Lattice.Fold

/-!
# When an expansion ends

There are only so many passes, but within a pass nothing counts: what is appended to the program is
taken up by the same pass, and what a task asks for is expanded at once. So an expansion ends exactly
if the macros that it applies have a limit, however large its budget. Without tasks, and with
handlers that insert items in front only, that is so for every program.
-/

namespace CallExpander

open Expansion

/-- So many macros were applied at most. -/
def Capped (cap : Nat) (run : Run) : Prop := run.trace.length ≤ cap

theorem backward_capped (cap : Nat) : Backward (Capped cap) :=
  fun _ _ h hcap => Nat.le_trans h.length_le hcap

namespace Job

variable {job : Job} {R : Run → Prop}

/-- Under a cap, expanding a tree ends: behind an application less is left of the cap. -/
theorem visitsSettle_capped (job : Job) (cap low : Nat) : VisitsSettle job (Capped cap) low := by
  obtain ⟨left, hleft⟩ : ∃ left, cap + 1 ≤ low + left := ⟨cap + 1, Nat.le_add_left _ _⟩
  induction left generalizing low with
  | zero =>
    intro n
    have hlate : ∀ {a b : Run}, (growth job).rel a b → Late low a → Late low b :=
      fun hr => Late.mono hr.1
    have hkeeps := fun budget => Discipline.keeps_visit ((growth job).serves_walker budget) n
    refine ⟨fun budget => ?_, fun {run} hs hlow hwithin => ?_⟩
    · exact ((hkeeps budget).frame hlate).mono (fun _ h => ⟨trivial, h⟩) fun _ _ h => h.2
    -- Nothing is left: what the visit leaves cannot be within the cap.
    · obtain ⟨budget, hcap⟩ := hwithin
      have hfinal : (final (job.visit (job.walker budget) n run)).trace.length ≤ cap :=
        hcap budget (Nat.le_refl _)
      have hprefix : run.trace <+: (final (job.visit (job.walker budget) n run)).trace := by
        cases hres : job.visit (job.walker budget) n run with
        | ok a run' => exact ((hkeeps budget).ok hs trivial hres).2.1.1.trace
        | error halt run' => exact ((hkeeps budget).error hs trivial hres).2.2.1.trace
      have hlength := hprefix.length_le
      unfold Late at hlow
      omega
  | succ left ih =>
    have hvisits : VisitsSettle job (Capped cap) (low + 1) := ih (low + 1) (by omega)
    refine settles_visit (backward_capped cap) fun module name callee start _ _ => ?_
    exact fun invocation slot => settles_task (backward_capped cap) hvisits invocation _ slot

/-- What was applied and what happened before a walk over the items is not forgotten. -/
theorem kept_expandFrom {run : Run} (hidle : run.Idle) (budget index : Nat) :
    run.trace <+: (final (job.expandFrom budget index run)).trace ∧
      run.history <+: (final (job.expandFrom budget index run)).history := by
  cases hres : job.expandFrom budget index run with
  | ok a run' =>
    obtain ⟨-, ⟨hext, -⟩, -⟩ := (job.grows_expandFrom budget index).ok hidle.sound hidle hres
    exact ⟨hext.trace, hext.history⟩
  | error halt run' =>
    obtain ⟨-, -, hext, -⟩ := (job.grows_expandFrom budget index).error hidle.sound hidle hres
    exact ⟨hext.trace, hext.history⟩

/-- A walk over the items ends if expanding trees does and every item brings it nearer to an end. -/
theorem ends_expandFrom (hR : Backward R) (hvisits : VisitsSettle job R 0) {γ : Type}
    {lt : γ → γ → Prop} (hwf : WellFounded lt) (size : Run → Nat → γ)
    (hstep : ∀ {budget index run next run'}, run.Idle → R run' →
      job.expandItem (job.walker budget) index (run.record (.walked index)) = .ok next run' →
      lt (size run' next) (size run index))
    {index : Nat} {run : Run} (hidle : run.Idle)
    (h : Within R (fun budget => job.expandFrom budget index) run) :
    Ends (fun budget => job.expandFrom budget index) run := by
  -- The budget goes down with every item, so it cannot be what the induction is on.
  generalize hsize : size run index = s
  induction s using hwf.induction generalizing index run with
  | _ s ih =>
    by_cases hlt : index < run.body.size
    · have hidle' : (run.record (.walked index)).Idle := hidle
      have hshift : ∀ budget, job.expandFrom (budget + 1) index run =
          (job.expandItem (job.walker budget) index >>= job.expandFrom budget)
            (run.record (.walked index)) := fun budget => expandFrom_of_lt hlt
      refine Ends.shift hshift (Ends.bind ?_ ?_ ?_ (h.shift hshift))
      · intro budget next mid hitem hfinal
        exact hR (kept_expandFrom (idle_expandItem hidle' hitem) budget next).1 hfinal
      · exact (settles_expandItem hR hvisits index).ends hidle'.sound
          ⟨⟨hlt, hidle'.free index⟩, Nat.zero_le _⟩
      · intro budget next mid hitem hwithin
        have hmid := idle_expandItem hidle' hitem
        have hlimit : R mid := by
          obtain ⟨enough, hfinal⟩ := hwithin
          exact hR (kept_expandFrom hmid enough next).1 (hfinal enough (Nat.le_refl _))
        exact ih _ (hsize ▸ hstep hidle hlimit hitem) hmid hwithin rfl
    · have hle := Nat.not_lt.mp hlt
      refine ⟨0, .ok () run, ?_, fun _ _ => expandFrom_of_le hle⟩
      intro run' h
      cases h

/-- Under a cap a walk over the items ends: every item uses up some of the cap, or nothing was
applied in it, and then fewer items are ahead. -/
theorem ends_expandFrom_capped (cap : Nat) {index : Nat} {run : Run} (hidle : run.Idle)
    (h : Within (Capped cap) (fun budget => job.expandFrom budget index) run) :
    Ends (fun budget => job.expandFrom budget index) run := by
  refine ends_expandFrom (backward_capped cap) (job.visitsSettle_capped cap 0)
    (Prod.lex Nat.lt_wfRel Nat.lt_wfRel).wf
    (fun run index => (cap - run.trace.length, run.body.size - index)) ?_ hidle h
  intro budget index run next run' hidle hcap hitem
  have hidle' : (run.record (.walked index)).Idle := hidle
  obtain ⟨item, body, -, -, hdetach, -⟩ := ok_expandItem hitem
  obtain ⟨hlt, -⟩ := Body.size_detach? hdetach
  change index < run.body.size at hlt
  have hw := (growth job).serves_walker budget
  obtain ⟨-, hr, -⟩ := (Discipline.keeps_expandItem hw index).ok hidle'.sound
    ⟨hlt, hidle'.free index⟩ hitem
  have hcounted : run.applied + run'.trace.length = run'.applied + run.trace.length := hr.1.counted
  have happlied : run.applied ≤ run'.applied := hr.1.applied
  by_cases hquiet : run'.applied = run.applied
  · obtain ⟨item, hget, -, -, htrace, hcases⟩ :=
      quiet_expandItem hw hidle'.sound (hidle'.free index) hitem hquiet
    change run'.trace = run.trace at htrace
    rw [htrace]
    refine Prod.Lex.right _ ?_
    change run'.body.size - next < run.body.size - index
    obtain ⟨-, rfl, herase⟩ | ⟨-, rfl, hset⟩ := hcases
    · have hsize : run'.body.size = run.body.size - 1 := by
        change run'.body.items = run.body.items.eraseIdx next at herase
        rw [Body.size, herase]
        exact List.length_eraseIdx_of_lt hlt
      omega
    · have hsize : run'.body.size = run.body.size := by
        rw [Body.size, hset, List.length_set]
        rfl
      omega
  · refine Prod.Lex.left _ _ ?_
    change cap - run'.trace.length < cap - run.trace.length
    unfold Capped at hcap
    omega

/-- What an expansion does after a pass. -/
def afterPass (job : Job) (budget remaining count : Nat) : Expansion Nat := fun mid =>
  if (job.refresh mid).applied = 0 then .ok count (job.refresh mid)
  else job.settle budget remaining (count + 1) (job.refresh mid)

theorem settle_succ (job : Job) (budget remaining count : Nat) :
    job.settle budget (remaining + 1) count =
      job.runPass budget >>= fun _ => job.afterPass budget remaining count := by
  rw [settle]
  congr 1
  funext _ mid
  change (if (job.refresh mid).applied = 0 then pure count
    else job.settle budget remaining (count + 1) : Expansion Nat) (job.refresh mid) = _
  unfold afterPass
  split <;> rfl

/-- Neither is it in the passes that follow. -/
theorem kept_settle {run : Run} (hidle : run.Idle) (budget remaining count : Nat) :
    run.trace <+: (final (job.settle budget remaining count run)).trace ∧
      run.history <+: (final (job.settle budget remaining count run)).history := by
  induction remaining generalizing run count with
  | zero => exact ⟨List.prefix_rfl, List.prefix_rfl⟩
  | succ remaining ih =>
    have hbegin : (beginPass run).Idle := hidle
    have hpass : run.trace <+: (final (job.runPass budget run)).trace ∧
        run.history <+: (final (job.runPass budget run)).history := kept_expandFrom hbegin budget 0
    rw [settle_succ]
    cases hres : job.runPass budget run with
    | error halt mid =>
      rw [hres] at hpass
      rw [bind_of_error hres]
      exact hpass
    | ok a mid =>
      rw [hres] at hpass
      rw [bind_of_ok hres, afterPass]
      have hmid : (job.refresh mid).Idle := idle_refresh hidle hres
      obtain ⟨htrace, hhistory⟩ := hpass
      have hrefresh : run.history <+: (job.refresh mid).history :=
        hhistory.trans (List.prefix_append _ _)
      split
      · exact ⟨htrace, hrefresh⟩
      · obtain ⟨htrace', hhistory'⟩ := ih hmid (count + 1)
        exact ⟨List.IsPrefix.trans htrace htrace', hrefresh.trans hhistory'⟩

/-- An expansion ends if its passes do: there are only so many. -/
theorem ends_settle (hR : Backward R)
    (hpass : ∀ {run}, run.Idle → Within R (fun budget => job.runPass budget) run →
      Ends (fun budget => job.runPass budget) run)
    {remaining count : Nat} {run : Run} (hidle : run.Idle)
    (h : Within R (fun budget => job.settle budget remaining count) run) :
    Ends (fun budget => job.settle budget remaining count) run := by
  induction remaining generalizing run count with
  | zero => exact Ends.const (y := throw _) fun run' h => by cases h
  | succ remaining ih =>
    simp only [settle_succ] at h ⊢
    refine Ends.bind ?_ (hpass hidle) ?_ h
    · intro budget a mid hres hfinal
      have hmid : (job.refresh mid).Idle := idle_refresh hidle hres
      have hlater : R (job.refresh mid) := by
        unfold afterPass at hfinal
        split at hfinal
        · exact hfinal
        · exact hR (kept_settle hmid budget remaining (count + 1)).1 hfinal
      have htrace : mid.trace <+: (job.refresh mid).trace := List.prefix_rfl
      exact hR htrace hlater
    · intro budget a mid hres hwithin
      have hmid : (job.refresh mid).Idle := idle_refresh hidle hres
      by_cases happlied : (job.refresh mid).applied = 0
      · refine ⟨0, .ok count (job.refresh mid), fun run' h => ?_, fun _ _ => if_pos happlied⟩
        cases h
      · have heq : ∀ budget, job.afterPass budget remaining count mid =
            job.settle budget remaining (count + 1) (job.refresh mid) := fun _ => if_neg happlied
        exact Ends.congr heq (ih hmid (hwithin.congr heq))

/-- What an expansion leaves is what its passes leave. -/
theorem Leaves.final {budget : Nat} {items : List Node} {run : Run}
    (h : job.Leaves budget items run) :
    (job.start items).bindings.isEmpty = false ∧
      run = final (job.settle budget job.options.effectiveMaxPasses 0 (job.start items)) := by
  unfold Leaves expand at h
  simp only at h
  split at h
  · rcases h with ⟨_, h⟩ | ⟨_, h⟩ <;> cases h
  · next hbindings =>
    refine ⟨by simpa using hbindings, ?_⟩
    rcases h with ⟨_, h⟩ | ⟨_, h⟩ <;> rw [Option.some.inj h] <;> rfl

/-- Only passes that lack budget leave a file without a result. -/
theorem isConclusive_eq_false {budget : Nat} {module : Code.Module}
    (hparse : job.source.parse = .ok module) :
    (job.run budget).isConclusive = false ↔
      (job.start module.items).bindings.isEmpty = false ∧
        ∃ run, job.settle budget job.options.effectiveMaxPasses 0 (job.start module.items) =
          .error .outOfBudget run := by
  unfold Job.run expand
  simp only [hparse]
  cases hbindings : (job.start module.items).bindings.isEmpty with
  | true => simp [Report.isConclusive]
  | false =>
    simp only [Bool.false_eq_true, if_false, true_and]
    cases hres : job.settle budget job.options.effectiveMaxPasses 0 (job.start module.items) with
    | ok passes run => simp [Report.isConclusive]
    | error halt run =>
      cases halt with
      | failure failure => simp [Report.isConclusive, Halt.isLack]
      | outOfBudget => simp [Report.isConclusive, Halt.isLack]
      | lostItem => exact absurd hres (settle_ne_lostItem rfl)

/-- With some budget expanding a file has a result. -/
def Terminates (job : Job) : Prop := ∃ budget, (job.run budget).isConclusive = true

/-- The macros that are applied to a file have a limit, however large the budget. -/
def AppliesFinitely (job : Job) : Prop := ∃ bound, ∀ budget module run,
  job.source.parse = .ok module → job.Leaves budget module.items run → run.trace.length ≤ bound

/-- Expanding a file has a result if its passes end. -/
theorem terminates_of_ends
    (h : ∀ module, job.source.parse = .ok module →
      (job.start module.items).bindings.isEmpty = false →
      Ends (fun budget => job.settle budget job.options.effectiveMaxPasses 0)
        (job.start module.items)) : job.Terminates := by
  cases hparse : job.source.parse with
  | error failure =>
    refine ⟨0, ?_⟩
    unfold Job.run
    simp only [hparse]
    rfl
  | ok module =>
    by_contra hnever
    have hout : ∀ budget, (job.run budget).isConclusive = false := fun budget =>
      Bool.eq_false_iff.mpr fun hresult => hnever ⟨budget, hresult⟩
    have hbindings := ((isConclusive_eq_false hparse).mp (hout 0)).1
    obtain ⟨budget, result, hresult, heq⟩ := h module hparse hbindings
    obtain ⟨-, run, hrun⟩ := (isConclusive_eq_false hparse).mp (hout budget)
    exact hresult run ((heq budget (Nat.le_refl _)).symm.trans hrun)

theorem terminates_of_appliesFinitely (h : job.AppliesFinitely) : job.Terminates := by
  obtain ⟨bound, hbound⟩ := h
  refine terminates_of_ends fun module hparse hbindings => ?_
  refine ends_settle (backward_capped bound) ?_ rfl ⟨0, fun budget _ => ?_⟩
  · intro run hidle hwithin
    have hbegin : (beginPass run).Idle := hidle
    exact ends_expandFrom_capped bound hbegin hwithin
  · refine hbound budget module _ hparse ?_
    unfold Leaves expand
    simp only [hbindings, Bool.false_eq_true, if_false]
    cases job.settle budget job.options.effectiveMaxPasses 0 (job.start module.items) with
    | ok passes run => exact .inl ⟨passes, rfl⟩
    | error halt run => exact .inr ⟨halt, rfl⟩

/-- A file that has a result with some budget has it with every larger one; only smaller budgets are
left to look at for a limit. -/
theorem appliesFinitely_of_terminates (h : job.Terminates) : job.AppliesFinitely := by
  obtain ⟨enough, henough⟩ := h
  cases hparse : job.source.parse with
  | error failure => exact ⟨0, fun _ module _ h => by rw [hparse] at h; cases h⟩
  | ok module =>
    let applied (budget : Nat) : Nat :=
      (final (job.settle budget job.options.effectiveMaxPasses 0
        (job.start module.items))).trace.length
    refine ⟨max ((Finset.range enough).sup applied) (applied enough), ?_⟩
    intro budget module' run hparse' hleaves
    obtain rfl : module = module' := Except.ok.inj (hparse.symm.trans hparse')
    obtain ⟨hbindings, hrun⟩ := hleaves.final
    have happlied : run.trace.length = applied budget := by rw [hrun]
    rw [happlied]
    by_cases hlt : budget < enough
    · have hsup : applied budget ≤ (Finset.range enough).sup applied :=
        Finset.le_sup (Finset.mem_range.mpr hlt)
      exact Nat.le_trans hsup (Nat.le_max_left _ _)
    · have hsame : job.settle budget job.options.effectiveMaxPasses 0 (job.start module.items) =
          job.settle enough job.options.effectiveMaxPasses 0 (job.start module.items) :=
        settle_of_isConclusive hparse hbindings henough (Nat.not_lt.mp hlt)
      have heq : applied budget = applied enough := by
        simp only [applied, hsame]
      rw [heq]
      exact Nat.le_max_right _ _

end Job

/-! ## Registries that always end -/

/-- An edit that inserts nothing but before all other items. -/
def Edit.isFront : Edit → Bool
  | .prepend _ | .prependImports _ | .overwrite _ _ => true
  | .append _ | .appendImports _ => false

theorem Edit.place_of_isFront {edit : Edit} (h : edit.isFront = true) (body : Body) :
    (edit.place body).1 = 0 := by
  cases edit <;> first | rfl | cases h

/-- No macro is a task, and handlers insert items before all others only. -/
def Registry.InsertsInFront (registry : Registry) : Prop :=
  ∀ entry ∈ registry.modules, ∀ callee ∈ entry.2.macros?.getD [],
    callee.handler.isCooperative = false ∧ callee.handler.Makes (·.isFront = true)

theorem Registry.InsertsInFront.of_find? {registry : Registry} (h : registry.InsertsInFront)
    {module name : String} {callee : Macro} (hfind : registry.find? module name = some callee) :
    callee.handler.isCooperative = false ∧ callee.handler.Makes (·.isFront = true) :=
  Registry.All.of_find? h hfind

/-- The item that the walk is at is the bottom one of the pending places, and from there on there are
so many items at most. -/
structure Run.HasRoom (room : Nat) (run : Run) : Prop where
  sound : run.body.Sound
  ahead : ∃ place, run.body.pending.getLast? = some place ∧ run.body.size ≤ place + room

theorem Run.HasRoom.congr {room : Nat} {run run' : Run} (h : run.HasRoom room)
    (hsound : run'.body.Sound) (hsize : run'.body.size = run.body.size)
    (hplace : run'.body.pending.getLast? = run.body.pending.getLast?) : run'.HasRoom room := by
  obtain ⟨place, hlast, hle⟩ := h.ahead
  exact ⟨hsound, place, hplace.trans hlast, hsize ▸ hle⟩

theorem Run.HasRoom.drop {room index : Nat} {run run' : Run} {body : Body} (h : run.HasRoom room)
    (hfree : index ∉ run.body.pending) (hremove : run.body.remove? index = some body)
    (hbody : run'.body = body) : run'.HasRoom room := by
  obtain ⟨place, hlast, hle⟩ := h.ahead
  obtain ⟨-, -, hsize, hpending⟩ := Body.remove?_places hremove
  refine ⟨hbody ▸ h.sound.remove hfree hremove, Body.unshift index place, ?_, ?_⟩
  · rw [hbody, hpending, List.getLast?_map, hlast]
    rfl
  · rw [hbody]
    unfold Body.unshift
    split <;> omega

/-- Items that come in before all others move the item that the walk is at along. -/
theorem Run.HasRoom.edit {room : Nat} {run : Run} {edit : Edit} (h : run.HasRoom room)
    (hfront : edit.isFront = true) : (run.edit edit).HasRoom room := by
  obtain ⟨-, hsize, hpending⟩ := run.body.edit_places edit
  obtain ⟨place, hlast, hle⟩ := h.ahead
  rw [Edit.place_of_isFront hfront] at hpending
  refine ⟨h.sound.edit edit, Body.shift 0 (edit.place run.body).2 place, ?_, ?_⟩
  · change (run.body.edit edit).2.pending.getLast? = _
    rw [hpending, List.getLast?_map, hlast]
    rfl
  · change (run.body.edit edit).2.size ≤ _
    rw [hsize, Body.shift, if_pos (Nat.zero_le place)]
    omega

/-- While an item is expanded, no items come in behind it. -/
def approaching (job : Job) (h : job.registry.InsertsInFront) (room : Nat) : Discipline job where
  inv run := run.HasRoom room
  rel := Run.Level
  fails _ _ _ := True
  tree _ _ := True
  allows edit := edit.isFront = true
  handlers hfind := (h.of_find? hfind).2
  rel_refl := Run.Level.refl
  rel_trans := @Run.Level.trans
  fails_refl _ _ := trivial
  fails_trans _ _ := trivial
  tree_mono _ _ := trivial
  tree_parts _ _ _ := trivial
  tree_mk _ _ := trivial
  tree_sweep _ := trivial
  applying hi _ _ _ _ := ⟨hi.congr hi.sound rfl rfl, rfl⟩
  withContext context hi := ⟨hi.congr hi.sound rfl rfl, rfl, trivial⟩
  edit {run} edit hfront hi := ⟨hi.edit hfront, .edit run edit⟩
  retiring hi hfree _ _ h := by
    have hlevel := Run.Level.retiring h
    obtain ⟨rest, -, rfl⟩ | ⟨body, -, hremove, rfl⟩ := Run.retiring?_cases h
    · exact ⟨hi.congr (hi.sound.set _ rest) (Body.size_set _ _ rest) rfl, hlevel⟩
    · exact ⟨hi.drop hfree hremove rfl, hlevel⟩
  detach hi hfree hdetach := by
    obtain ⟨-, -, hpending⟩ := Body.detach?_places hdetach
    obtain ⟨-, hsize⟩ := Body.size_detach? hdetach
    obtain ⟨place, hlast, -⟩ := hi.ahead
    refine ⟨hi.congr (hi.sound.detach hfree hdetach) hsize ?_, trivial⟩
    simp only [hpending]
    exact getLast?_cons_of_some hlast
  reattach hi _ hdetach hr hmid _ _ hreattach := by
    obtain ⟨-, -, hpending⟩ := Body.detach?_places hdetach
    obtain ⟨hpending', hitems, -⟩ := Body.reattach?_places hreattach
    obtain ⟨place, hlast, -⟩ := hi.ahead
    have hlevel := hr.reattach hdetach hreattach
    simp only [Run.Level, hpending, hpending'] at hr
    have hbottom := getLast?_of_length_cons hlast hr
    rw [← hpending'] at hbottom
    refine ⟨hmid.congr (hmid.sound.reattach hreattach) ?_ hbottom.symm, hlevel⟩
    simp [Body.size, hitems]
  discard {_ _ _ _ mid _ _} hi _ hdetach hr hmid _ hdiscard := by
    obtain ⟨-, -, hpending⟩ := Body.detach?_places hdetach
    obtain ⟨rest, hrest, hremove⟩ := Body.discard?_places hdiscard
    obtain ⟨place, hlast, -⟩ := hi.ahead
    have hlevel := hr.discard hdetach hdiscard
    simp only [Run.Level, hpending, hrest] at hr
    have hbottom := getLast?_of_length_cons hlast hr
    obtain ⟨hsound, hfree⟩ := hmid.sound.tail hrest
    have hbelow : Run.HasRoom room { mid with body := { mid.body with pending := rest } } :=
      hmid.congr hsound rfl (by rw [hrest]; exact hbottom.symm)
    exact ⟨hbelow.drop hfree hremove rfl, hlevel⟩
  restore _ _ _ _ _ := trivial
  lost _ _ _ _ _ := trivial

namespace Job

variable {job : Job}

/-- Where nothing is inserted behind it, every item leaves fewer ahead. -/
theorem nearer_of_insertsInFront (h : job.registry.InsertsInFront) {budget index next : Nat}
    {run run' : Run} (hidle : run.Idle)
    (hitem : job.expandItem (job.walker budget) index run = .ok next run') :
    run'.body.size - next < run.body.size - index := by
  obtain ⟨item, body, item', mid, hdetach, hvisit, hend⟩ := ok_expandItem_of_idle hidle hitem
  obtain ⟨-, -, hpending⟩ := Body.detach?_places hdetach
  obtain ⟨hlt, hsize⟩ := Body.size_detach? hdetach
  have hroom : Run.HasRoom (run.body.size - index) { run with body } := by
    refine ⟨hidle.sound.detach (hidle.free index) hdetach, index, ?_, ?_⟩
    · change body.pending.getLast? = some index
      rw [hpending, hidle]
      rfl
    · change body.size ≤ _
      omega
  have hw := (approaching job h (run.body.size - index)).serves_walker budget
  obtain ⟨hmid, -, -⟩ := (Discipline.keeps_visit hw item).ok hroom trivial hvisit
  obtain ⟨place, hlast, hle⟩ := hmid.ahead
  obtain ⟨body', hplace, hremove, rfl⟩ | ⟨place', body', hplace, hreattach, rfl, rfl⟩ := hend
  · obtain ⟨-, -, hsize', -⟩ := Body.remove?_places hremove
    rw [hplace] at hlast
    obtain rfl : next = place := Option.some.inj hlast
    change body'.size - next < _
    change body'.size + 1 = mid.body.size at hsize'
    omega
  · obtain ⟨-, hitems, -⟩ := Body.reattach?_places hreattach
    rw [hplace] at hlast
    obtain rfl : place' = place := Option.some.inj hlast
    have hsize' : body'.size = mid.body.size := by
      simp [Body.size, hitems]
    change body'.size - (place' + 1) < _
    omega

theorem terminates_of_insertsInFront (h : job.registry.InsertsInFront) : job.Terminates := by
  have hR : Backward fun _ => True := fun _ _ _ _ => trivial
  have hvisits : VisitsSettle job (fun _ => True) 0 := by
    refine settles_visit hR fun module name callee start hfind hhandler => ?_
    have hplain := (h.of_find? hfind).1
    rw [hhandler] at hplain
    cases hplain
  refine terminates_of_ends fun module _ _ => ends_settle hR ?_ rfl ⟨0, fun _ _ => trivial⟩
  intro run hidle hwithin
  have hbegin : (beginPass run).Idle := hidle
  refine ends_expandFrom hR hvisits Nat.lt_wfRel.wf (fun run index => run.body.size - index) ?_ hbegin
    hwithin
  intro budget index run next run' hidle _ hitem
  have hidle' : (run.record (.walked index)).Idle := hidle
  have hnearer := nearer_of_insertsInFront h hidle' hitem
  exact hnearer

/-- Expanding a file ends exactly if the macros that are applied to it have a limit. It does for every
file if no macro is a task and handlers insert items before all others only; the limit on passes is
enough then. -/
theorem terminates_iff_appliesFinitely (job : Job) :
    (job.Terminates ↔ job.AppliesFinitely) ∧ (job.registry.InsertsInFront → job.Terminates) :=
  ⟨⟨appliesFinitely_of_terminates, terminates_of_appliesFinitely⟩, terminates_of_insertsInFront⟩

/-- A file with a macro that stays where it is, and puts a statement before all others each time. -/
def repeating : Job where
  registry := ⟨[("m", ⟨.macros [⟨"again", .helper fun _ _ _ workspace =>
    .ok () { workspace.toContext with edits := [.prepend [Node.emptyStatement]] },
    "", compatVersion⟩], []⟩)]⟩
  source := Source.ofPath "a.js" "import \x7b again \x7d from 'm';\nagain();\n"

theorem repeating_terminates :
    (repeating.Terminates ↔ repeating.AppliesFinitely) ∧ repeating.Terminates := by
  obtain ⟨hiff, hfront⟩ := terminates_iff_appliesFinitely repeating
  refine ⟨hiff, hfront fun entry hentry callee hcallee => ?_⟩
  obtain rfl := List.mem_singleton.mp hentry
  obtain rfl := List.mem_singleton.mp hcallee
  refine ⟨rfl, fun _ _ _ _ edit hedit => ?_⟩
  obtain rfl := List.mem_singleton.mp hedit
  rfl

/-! ## A macro that never ends -/

def again : Node := Node.build .exprStmt [Node.callOf (Node.identifier "grow") []]

/-- A file with a macro that stays where it is, and puts its own call behind all other items. -/
def growing : Job where
  registry := ⟨[("m", ⟨.macros [⟨"grow", .helper fun _ _ _ workspace =>
    .ok () { workspace.toContext with edits := [.append [again]] }, "", compatVersion⟩], []⟩)]⟩
  source := Source.ofPath "a.js" "import \x7b grow \x7d from 'm';\ngrow();\n"

def isGrowth : Node → Bool
  | .mk .exprStmt _ [.mk .call _ [.mk (.ident "grow" false) _ [], .mk .group _ [], _]] => true
  | _ => false

/-- The walk is at the last item, which calls the macro. -/
structure Growing (run : Run) (index : Nat) : Prop where
  idle : run.Idle
  bindings : run.bindings = [.named "grow" "m" "grow" (some "grow")]
  last : ∃ before item, run.body.items = before ++ [item] ∧ before.length = index ∧
    isGrowth item = true

/-- Visiting such an item leaves it and puts another one behind all others. -/
theorem visit_growing {w : Walker} {item : Node} (hitem : isGrowth item = true) {run : Run}
    (hbindings : run.bindings = [.named "grow" "m" "grow" (some "grow")]) :
    item.isRemovedStatement = false ∧ ∃ run', growing.visit w item run = .ok item run' ∧
      run'.bindings = run.bindings ∧ run'.body = (run.body.append [again]).2 := by
  unfold isGrowth at hitem
  split at hitem
  · obtain ⟨body, bindings, passState, fileState, notes, pass, applied, trace, history⟩ := run
    subst hbindings
    exact ⟨rfl, _, rfl, rfl, rfl⟩
  · cases hitem

theorem Growing.step {run : Run} {index : Nat} (h : Growing run index) (budget : Nat) :
    ∃ run', growing.expandItem (growing.walker budget) index (run.record (.walked index)) =
      .ok (index + 1) run' ∧ Growing run' (index + 1) := by
  obtain ⟨before, item, hitems, rfl, hgrowth⟩ := h.last
  have hdetach : (run.record (.walked before.length)).body.detach? before.length =
      some (item, ⟨before ++ [Node.emptyStatement], [before.length]⟩) := by
    change run.body.detach? before.length = _
    unfold Body.detach?
    rw [hitems, h.idle]
    simp
  let start : Run := { run.record (.walked before.length) with
    body := ⟨before ++ [Node.emptyStatement], [before.length]⟩ }
  have hstart : start.bindings = [.named "grow" "m" "grow" (some "grow")] := h.bindings
  obtain ⟨hremoved, mid, hvisit, hbindings, hbody⟩ := visit_growing hgrowth hstart
  have hbody' : mid.body = ⟨before ++ [Node.emptyStatement, again], [before.length]⟩ := by
    rw [hbody]
    change (Body.append ⟨before ++ [Node.emptyStatement], [before.length]⟩ [again]).2 = _
    have htake : (before ++ [Node.emptyStatement]).take (before.length + 1) =
        before ++ [Node.emptyStatement] := List.take_of_length_le (by simp)
    simp [Body.append, Body.insertAll, Body.size, htake]
  have hreattach : mid.body.reattach? item.sweep =
      some (before.length, ⟨before ++ [item.sweep, again], []⟩) := by
    rw [hbody', Body.reattach?]
    simp [Body.size]
  refine ⟨{ mid with body := ⟨before ++ [item.sweep, again], []⟩ }, ?_, rfl, ?_, ?_⟩
  · change growing.visit (growing.walker budget) item { run.record (.walked before.length) with
      body := ⟨before ++ [Node.emptyStatement], [before.length]⟩ } = _ at hvisit
    unfold expandItem
    simp only [hdetach, hvisit, hremoved, reattach, hreattach]
    rfl
  · exact hbindings.trans hstart
  · exact ⟨before ++ [item.sweep], again, by simp, by simp, rfl⟩

/-- No budget is enough for such a walk. -/
theorem Growing.out {run : Run} {index : Nat} (h : Growing run index) (budget : Nat) :
    ∃ run', growing.expandFrom budget index run = .error .outOfBudget run' := by
  have hlt {run : Run} {index : Nat} (h : Growing run index) : index < run.body.size := by
    obtain ⟨before, item, hitems, hlength, -⟩ := h.last
    rw [Body.size, hitems, List.length_append, hlength]
    exact Nat.lt_succ_self index
  induction budget generalizing run index with
  | zero =>
    refine ⟨run, ?_⟩
    change (if index < run.body.size then throw .outOfBudget else pure () : Expansion Unit) run = _
    rw [if_pos (hlt h)]
    rfl
  | succ budget ih =>
    obtain ⟨mid, hitem, hmid⟩ := h.step budget
    obtain ⟨run', hrun'⟩ := ih hmid
    exact ⟨run', by rw [expandFrom_of_lt (hlt h), bind_of_ok hitem, hrun']⟩

/-- The limit on passes does not help where a pass has no end. -/
theorem growing_never_ends : ¬ growing.Terminates := by
  rintro ⟨budget, hresult⟩
  have hstart : (growing.source.parse.toOption.any fun module =>
      (growing.start module.items).bindings == [.named "grow" "m" "grow" (some "grow")] &&
        (growing.start module.items).body.items.length == 1 &&
        (growing.start module.items).body.items.all isGrowth) = true := by decide +kernel
  cases hparse : growing.source.parse with
  | error failure =>
    rw [hparse] at hstart
    cases hstart
  | ok module =>
    rw [hparse] at hstart
    obtain ⟨hfront, hgrowth⟩ := (Bool.and_eq_true _ _).mp hstart
    obtain ⟨hbindings, hlength⟩ := (Bool.and_eq_true _ _).mp hfront
    obtain ⟨item, hitems⟩ := List.length_eq_one_iff.mp (eq_of_beq hlength)
    rw [hitems] at hgrowth
    have hbegin : Growing (beginPass (growing.start module.items)) 0 :=
      ⟨rfl, eq_of_beq hbindings, [], item, hitems, rfl, List.all_eq_true.mp hgrowth item (by simp)⟩
    obtain ⟨run', hrun'⟩ := hbegin.out budget
    refine Bool.eq_false_iff.mp ((isConclusive_eq_false hparse).mpr ⟨?_, run', ?_⟩) hresult
    · rw [eq_of_beq hbindings]
      rfl
    · change growing.settle budget 5 0 _ = _
      rw [settle_succ]
      exact bind_of_error hrun'

end Job

end CallExpander
