import CallExpander.Proofs.Expansion.Local

/-!
# Keeping imports

Whether macro imports are kept as bare imports or dropped is seen in the imports of the result only, as
long as no macro can see the program. The two expansions of a file go side by side: the program of the one
that keeps imports is that of the other with bare imports in it. A bare import declares nothing, calls
nothing and has nothing left to retire, so the walk over the longer program passes it by.
-/

namespace CallExpander

open Expansion Node

/-- An import of a macro module that imports nothing from it. -/
def Node.isBareImport (exports : Exports) (n : Node) : Bool :=
  match n.importDecl? with
  | some decl => decl.specifiers.isEmpty && !decl.typeOnly && (exports decl.source.value).isSome
  | none => false

def withoutBare (exports : Exports) (items : List Node) : List Node :=
  items.filter fun n => !n.isBareImport exports

/-- Items, and the same ones with bare imports of macro modules between them. -/
inductive Padded (exports : Exports) : List Node → List Node → Prop
  | nil : Padded exports [] []
  | keep {as bs : List Node} (n : Node) (h : Padded exports as bs) :
      Padded exports (n :: as) (n :: bs)
  | pad {as bs : List Node} {decl : ImportDecl} {origin : Origin}
      (hbare : (Node.mk (.importDecl decl) origin []).isBareImport exports = true)
      (h : Padded exports as bs) : Padded exports as (.mk (.importDecl decl) origin [] :: bs)

variable {exports : Exports} {as bs items : List Node}

theorem Padded.refl (items : List Node) : Padded exports items items := by
  induction items with
  | nil => exact .nil
  | cons n rest ih => exact .keep n ih

theorem bare_specifiers {decl : ImportDecl} {origin : Origin} {parts : List Node}
    (h : (Node.mk (.importDecl decl) origin parts).isBareImport exports = true) :
    decl.specifiers = [] ∧ decl.typeOnly = false ∧ ∃ macros, exports decl.source.value = some macros := by
  simp only [isBareImport, importDecl?, form, Bool.and_eq_true, Bool.not_eq_true',
    List.isEmpty_iff, Option.isSome_iff_exists] at h
  exact ⟨h.1.1, h.1.2, h.2⟩

theorem isBareImport_congr {a b : Node} (h : b.importDecl? = a.importDecl?) :
    b.isBareImport exports = a.isBareImport exports := by
  unfold isBareImport
  rw [h]

/-! ## Retiring imports -/

theorem not_bare_of_retire {keepImports : Bool} {n : Node}
    (h : retireImport exports keepImports n = none) : n.isBareImport exports = false := by
  unfold retireImport at h
  unfold isBareImport
  cases hdecl : n.importDecl? with
  | none => rfl
  | some decl =>
    simp only [hdecl] at h ⊢
    cases htype : decl.typeOnly with
    | true => simp
    | false =>
      cases hexports : exports decl.source.value with
      | none => simp
      | some macros => simp [htype, hexports] at h

/-- A bare import has nothing left to retire, where imports are kept. -/
theorem retire_of_bare {decl : ImportDecl} {origin : Origin}
    (h : (Node.mk (.importDecl decl) origin []).isBareImport exports = true) :
    retireImport exports true (.mk (.importDecl decl) origin []) =
      some ⟨[], some (.mk (.importDecl decl) origin [])⟩ := by
  obtain ⟨hspecifiers, htype, macros, hmacros⟩ := bare_specifiers h
  obtain ⟨specifiers, source, typeOnly, phase, sourceOrigin⟩ := decl
  simp only at hspecifiers htype hmacros
  subst hspecifiers htype
  simp [retireImport, importDecl?, form, Node.origin, hmacros, Binding.ofDecl]

/-- Whether an import is kept makes no difference but that a bare one remains of it. -/
theorem retire_keepImports (n : Node) :
    (retireImport exports false n = none ∧ retireImport exports true n = none) ∨
    ∃ dropped kept, retireImport exports false n = some dropped ∧
      retireImport exports true n = some kept ∧ kept.bindings = dropped.bindings ∧
      dropped.remains.toList = withoutBare exports kept.remains.toList := by
  unfold retireImport
  cases hdecl : n.importDecl? with
  | none => exact .inl ⟨rfl, rfl⟩
  | some decl =>
    cases htype : decl.typeOnly with
    | true => exact .inl (by simp [htype])
    | false =>
      cases hexports : exports decl.source.value with
      | none => exact .inl (by simp [hexports])
      | some macros =>
        right
        simp only [htype, hexports, Bool.false_eq_true, if_false, Bool.true_or, Bool.false_or, if_true]
        refine ⟨_, _, rfl, rfl, rfl, ?_⟩
        cases hkept : decl.specifiers.filter Binding.isTypeOnly with
        | nil => simp [withoutBare, isBareImport, importDecl?, form, hexports]
        | cons s rest => simp [withoutBare, isBareImport, importDecl?, form]

theorem withoutBare_append (as bs : List Node) :
    withoutBare exports (as ++ bs) = withoutBare exports as ++ withoutBare exports bs :=
  List.filter_append ..

/-- Both expansions find the same names, and the program of one is that of the other without its bare
imports. -/
theorem Padded.collect (h : Padded exports as bs) :
    (collectBindings exports false as).1 = (collectBindings exports true bs).1 ∧
      (collectBindings exports false as).2 =
        withoutBare exports (collectBindings exports true bs).2 := by
  induction h with
  | nil => exact ⟨rfl, rfl⟩
  | keep n h ih =>
    obtain ⟨hbindings, hitems⟩ := ih
    rcases @retire_keepImports exports n with ⟨hdropped, hkept⟩ | ⟨dropped, kept, hdropped,
      hkept, hfound, hremains⟩
    · have hnot := not_bare_of_retire hkept
      simp [collectBindings, hdropped, hkept, hbindings, hitems, withoutBare, hnot]
    · simp [collectBindings, hdropped, hkept, hbindings, hitems, hfound, hremains, withoutBare_append]
  | @pad as bs decl origin hbare h ih =>
    obtain ⟨hbindings, hitems⟩ := ih
    have hretire := retire_of_bare hbare
    simp [collectBindings, hretire, hbindings, hitems, withoutBare, hbare]

/-- Where nothing is left to retire, bare imports have no attributes left. -/
theorem padded_of_spent (h : ∀ item ∈ items, Retired.Spent exports true item) :
    Padded exports (withoutBare exports items) items := by
  induction items with
  | nil => exact .nil
  | cons n rest ih =>
    obtain ⟨hn, hrest⟩ := List.forall_mem_cons.mp h
    cases hbare : n.isBareImport exports with
    | false =>
      have hkeep : withoutBare exports (n :: rest) = n :: withoutBare exports rest := by
        simp [withoutBare, hbare]
      rw [hkeep]
      exact .keep n (ih hrest)
    | true =>
      have hpad : withoutBare exports (n :: rest) = withoutBare exports rest := by
        simp [withoutBare, hbare]
      rw [hpad]
      rcases hn with hnone | hsome
      · rw [not_bare_of_retire hnone] at hbare
        cases hbare
      · obtain ⟨decl, origin, rfl⟩ := import_of_remains hsome
        exact .pad hbare (ih hrest)

/-! ## Resolving names -/

theorem hoist_of_bare {decl : ImportDecl} {origin : Origin} (depth : Depth) (found : Hoist)
    (h : (Node.mk (.importDecl decl) origin []).isBareImport exports = true) :
    hoist depth (.mk (.importDecl decl) origin []) found = found := by
  obtain ⟨hspecifiers, -⟩ := bare_specifiers h
  simp [hoist, hspecifiers, Hoist.addAll]

/-- Bare imports declare nothing. -/
theorem Padded.hoistItems_eq (h : Padded exports as bs) (env : Env) :
    env.hoistItems as = env.hoistItems bs := by
  have hearly : ∀ depth found, hoistEarly depth as found = hoistEarly depth bs found := by
    intro depth
    induction h with
    | nil => intro found; rfl
    | keep n h ih => intro found; simp only [hoistEarly, ih]
    | pad hbare h ih => intro found; rw [ih]; rfl
  have hlate : ∀ depth found, hoistLate depth as found = hoistLate depth bs found := by
    intro depth
    clear hearly
    induction h with
    | nil => intro found; rfl
    | keep n h ih => intro found; simp only [hoistLate, ih]
    | pad hbare h ih =>
      intro found
      rw [ih, hoistLate, hoist_of_bare depth found hbare]
      rfl
  simp only [Env.hoistItems, declaredNames, hearly, hlate]

theorem Padded.markAll_rel (h : Padded exports as bs) (env : Env) :
    Padded exports (markAll env as).1 (markAll env bs).1 := by
  induction h generalizing env with
  | nil => exact .nil
  | keep n h ih => exact .keep _ (ih _)
  | pad hbare h ih => exact .pad hbare (ih env)

theorem Padded.resolve_rel (h : Padded exports as bs) : Padded exports (resolve as) (resolve bs) := by
  unfold resolve
  rw [h.hoistItems_eq]
  exact h.markAll_rel _

theorem withoutBare_markAll (h : Padded exports as bs) (hnot : ∀ n ∈ as, n.isBareImport exports = false)
    (env : Env) : (markAll env as).1 = withoutBare exports (markAll env bs).1 := by
  induction h generalizing env with
  | nil => rfl
  | keep n h ih =>
    obtain ⟨hn, hrest⟩ := List.forall_mem_cons.mp hnot
    have hmark : (mark env n).1.isBareImport exports = false :=
      (isBareImport_congr (importDecl?_mark env n)).trans hn
    simp only [markAll, withoutBare, List.filter_cons, hmark, Bool.not_false, if_true]
    exact congrArg _ (ih hrest _)
  | @pad as bs decl origin hbare h ih =>
    have hrest := ih hnot env
    rw [hrest]
    simp only [markAll, mark, withoutBare, List.filter_cons, hbare, Bool.not_true, Bool.false_eq_true,
      if_false]

/-- Once imports are collected and names resolved, the program without kept imports is that with them
but for the bare ones. -/
theorem Padded.refresh (h : Padded exports as bs) :
    (collectBindings exports false as).1 = (collectBindings exports true bs).1 ∧
      Padded exports (resolve (collectBindings exports false as).2)
        (resolve (collectBindings exports true bs).2) ∧
      resolve (collectBindings exports false as).2 =
        withoutBare exports (resolve (collectBindings exports true bs).2) := by
  obtain ⟨hfound, hitems⟩ := h.collect
  have hpadded := padded_of_spent (spent_collectBindings exports true bs)
  rw [← hitems] at hpadded
  refine ⟨hfound, hpadded.resolve_rel, ?_⟩
  have hnot : ∀ n ∈ (collectBindings exports false as).2, n.isBareImport exports = false := by
    intro n hn
    rw [hitems] at hn
    simpa using (List.mem_filter.mp hn).2
  have hmark := withoutBare_markAll hpadded hnot
  unfold resolve
  rw [hpadded.hoistItems_eq]
  exact hmark _

/-! ## The two expansions -/

namespace Job

variable {job : Job} {keep : Bool} {a b a' b' : Run}

def withKeepImports (job : Job) (keep : Bool) : Job :=
  { job with options := { job.options with keepImports := keep } }

theorem visit_withKeepImports (job : Job) (keep : Bool) (w : Walker) :
    (job.withKeepImports keep).visit w = job.visit w := by
  delta visit
  rfl

/-- The states of the two expansions between passes: the first drops imports, the second keeps them. -/
structure Tracks (job : Job) (a b : Run) : Prop where
  same : a.Same b
  idle : a.Idle
  idle' : b.Idle
  padded : Padded job.registry.exports a.body.items b.body.items

/-- Bare imports are passed by, for one step of the budget each. -/
theorem expandItems_of_padded (hlocal : job.registry.All (·.handler.tier ≠ .helper))
    (h : Padded job.registry.exports as bs) {less more : Nat} (hle : less ≤ more) (hsame : b.Same a) :
    Follows (· ≠ .outOfBudget)
      (fun bs' b' as' a' => b'.Same a' ∧ Padded job.registry.exports as' bs')
      ((job.withKeepImports true).expandItems less bs b)
      ((job.withKeepImports false).expandItems more as a) := by
  induction h generalizing less more a b with
  | nil =>
    rw [expandItems, expandItems]
    exact .of_ok ⟨hsame, .nil⟩
  | @keep as bs n h ih =>
    cases less with
    | zero => exact .of_outOfBudget
    | succ less =>
      obtain ⟨more, rfl⟩ := Nat.exists_eq_succ_of_ne_zero (Nat.ne_of_gt (Nat.lt_of_lt_of_le
        (Nat.succ_pos less) hle))
      rw [expandItems, expandItems, visit_withKeepImports, visit_withKeepImports]
      have hagree := agree_visit hlocal ((job.withKeepImports true).walker less)
        ((job.withKeepImports false).walker more) n
      refine (hagree.follows hsame).bind fun {n' _ _ _} hvisited => ?_
      obtain ⟨rfl, -, hmid⟩ := hvisited
      refine (ih (Nat.le_of_succ_le_succ hle) hmid).bind fun hrest => ?_
      obtain ⟨hend, hpadded⟩ := hrest
      refine .of_ok ⟨hend, ?_⟩
      cases n'.isRemovedStatement with
      | true => exact hpadded
      | false => exact .keep _ hpadded
  | @pad as bs decl origin hbare h ih =>
    cases less with
    | zero => exact .of_outOfBudget
    | succ less =>
      have hvisit : (job.withKeepImports true).visit ((job.withKeepImports true).walker less)
          (.mk (.importDecl decl) origin []) b = .ok (.mk (.importDecl decl) origin []) b := by
        rw [visit]
        rfl
      rw [expandItems, bind_of_ok hvisit]
      exact (ih (Nat.le_of_succ_le hle) hsame).map fun hrest => ⟨hrest.1, .pad hbare hrest.2⟩

theorem runPass_of_tracks (hlocal : job.registry.All (·.handler.tier ≠ .helper)) {budget : Nat}
    (h : job.Tracks a b) :
    Follows (· ≠ .outOfBudget) (fun _ b' _ a' => job.Tracks a' b')
      ((job.withKeepImports true).runPass budget b) ((job.withKeepImports false).runPass budget a) := by
  have hkept : (job.withKeepImports true).registry.All (·.handler.tier ≠ .helper) := hlocal
  have hdropped : (job.withKeepImports false).registry.All (·.handler.tier ≠ .helper) := hlocal
  have hitems := expandItems_of_padded hlocal h.padded (Nat.le_refl budget) h.same.symm.beginPass
  -- From the pass that keeps imports to its walk, to the other walk, and on to the pass of that.
  refine ((runPass_of_expandItems hkept h.idle').symm.trans hitems
    (T := fun _ b' as' a' => b'.Idle ∧ b'.Same a' ∧ Padded job.registry.exports as' b'.body.items) ?_).trans
    (runPass_of_expandItems hdropped h.idle) ?_
  · rintro v b' items mid items' mid' ⟨hsame, hidle, rfl⟩ ⟨hmid, hpadded⟩
    exact ⟨hidle, hsame.symm.trans hmid, hpadded⟩
  · rintro v b' items' mid' v' a' ⟨hidle, hmid, hpadded⟩ ⟨hsame, hidle', rfl⟩
    exact ⟨(hmid.trans hsame).symm, hidle', hidle, hpadded⟩

/-- Between passes both find the same names. -/
theorem tracks_refresh (h : job.Tracks a b) :
    job.Tracks ((job.withKeepImports false).refresh a) ((job.withKeepImports true).refresh b) := by
  obtain ⟨hfound, hpadded, -⟩ := h.padded.refresh
  refine ⟨?_, h.idle, h.idle', hpadded⟩
  refine ⟨?_, h.same.passState, h.same.fileState, h.same.notes, h.same.pass, h.same.applied, h.same.trace⟩
  change b.bindings ++ _ = a.bindings ++ _
  rw [h.same.bindings]
  exact congrArg _ hfound.symm

theorem tracks_start (job : Job) (items : List Node) :
    job.Tracks ((job.withKeepImports false).start items) ((job.withKeepImports true).start items) := by
  obtain ⟨hfound, hpadded, -⟩ := (@Padded.refl job.registry.exports items).refresh
  exact ⟨⟨hfound.symm, rfl, rfl, rfl, rfl, rfl, rfl⟩, rfl, rfl, hpadded⟩

/-- The two expansions make the same passes. -/
theorem settle_of_tracks (hlocal : job.registry.All (·.handler.tier ≠ .helper))
    {budget remaining count : Nat} (h : job.Tracks a b) :
    Follows (· ≠ .outOfBudget)
      (fun passes b' passes' a' => passes' = passes ∧ job.Tracks a' b' ∧
        a'.body.items = withoutBare job.registry.exports b'.body.items)
      ((job.withKeepImports true).settle budget remaining count b)
      ((job.withKeepImports false).settle budget remaining count a) := by
  induction remaining generalizing count a b with
  | zero => exact .of_error fun _ => h.same.symm
  | succ remaining ih =>
    rw [settle_succ, settle_succ]
    refine (runPass_of_tracks hlocal h).bind fun htracks => ?_
    have hnext := tracks_refresh htracks
    unfold afterPass
    rw [hnext.same.applied]
    split
    · exact .of_ok ⟨rfl, hnext, htracks.padded.refresh.2.2⟩
    · exact ih hnext

/-- What becomes of a program with its imports kept and dropped is the same but for bare imports; or the
expansion that keeps them, which has more items to walk over, runs out of steps. -/
theorem expand_keepImports (hlocal : job.registry.All (·.handler.tier ≠ .helper)) (budget : Nat)
    (items : List Node) :
    (∃ b, (job.withKeepImports true).expand budget items = some (.error .outOfBudget b)) ∨
    ((job.withKeepImports true).expand budget items = none ∧
      (job.withKeepImports false).expand budget items = none) ∨
    (∃ failure a b, (job.withKeepImports true).expand budget items = some (.error (.failure failure) b) ∧
      (job.withKeepImports false).expand budget items = some (.error (.failure failure) a) ∧
      a.Same b) ∨
    ∃ passes a b, (job.withKeepImports true).expand budget items = some (.ok passes b) ∧
      (job.withKeepImports false).expand budget items = some (.ok passes a) ∧ a.Same b ∧
      a.body.items = withoutBare job.registry.exports b.body.items := by
  have hstart := tracks_start job items
  by_cases hbindings : ((job.withKeepImports true).start items).bindings = []
  · have hbindings' : ((job.withKeepImports false).start items).bindings = [] :=
      hstart.same.bindings.symm.trans hbindings
    exact .inr (.inl ⟨by simp [expand, hbindings], by simp [expand, hbindings']⟩)
  have hbindings' : ((job.withKeepImports false).start items).bindings ≠ [] :=
    fun hnil => hbindings (hstart.same.bindings.trans hnil)
  rw [expand_of_bindings hbindings, expand_of_bindings hbindings']
  have hsettle := @settle_of_tracks job _ _ hlocal budget job.options.effectiveMaxPasses 0 hstart
  have hlimit : ∀ keep, (job.withKeepImports keep).options.effectiveMaxPasses =
      job.options.effectiveMaxPasses := fun _ => rfl
  rw [hlimit, hlimit]
  cases hres : (job.withKeepImports true).settle budget job.options.effectiveMaxPasses 0
      ((job.withKeepImports true).start items) with
  | ok passes b =>
    obtain ⟨passes, a, hres', rfl, htracks, hitems⟩ := hsettle.ok hres
    exact .inr (.inr (.inr ⟨passes, a, b, rfl, congrArg some hres', htracks.same, hitems⟩))
  | error halt b =>
    cases halt with
    | failure failure =>
      obtain ⟨a, hres', hsame⟩ := hsettle.error hres Halt.noConfusion
      exact .inr (.inr (.inl ⟨failure, a, b, rfl, congrArg some hres', hsame.symm⟩))
    | outOfBudget => exact .inl ⟨b, rfl⟩
    | lostItem => exact absurd hres (settle_ne_lostItem hstart.idle')

/-- What becomes of a file with its imports kept and with its imports dropped is the same, but for the bare
imports of macro modules in the result. -/
inductive AgreeButImports (job : Job) (budget : Nat) : Prop
  | untouched (kept : ((job.withKeepImports true).run budget).outcome = .ok .untouched)
      (dropped : ((job.withKeepImports false).run budget).outcome = .ok .untouched)
  | failed {halt : Halt} (kept : ((job.withKeepImports true).run budget).outcome = .error halt)
      (dropped : ((job.withKeepImports false).run budget).outcome = .error halt)
  | transformed {module : Code.Module} {items : List Node} {passes : Nat} {trace : List Step}
      (hparse : job.source.parse = .ok module)
      (hexpand : ∃ run, (job.withKeepImports true).expand budget module.items = some (.ok passes run) ∧
        run.body.items = items)
      (hexpand' : ∃ run, (job.withKeepImports false).expand budget module.items =
        some (.ok passes run) ∧ run.body.items = withoutBare job.registry.exports items)
      (kept : ((job.withKeepImports true).run budget).outcome =
        .ok (.transformed ⟨Code.printModule { module with items }, passes, trace⟩))
      (dropped : ((job.withKeepImports false).run budget).outcome = .ok (.transformed
        ⟨Code.printModule { module with items := withoutBare job.registry.exports items },
          passes, trace⟩))

/-- If no macro can reach beyond its own call, whether imports are kept changes nothing but the imports:
both expansions of a file leave it alone, or fail in the same way, or go through the same passes and
apply the same macros, and their programs are the same but for bare imports of macro modules. Handlers
note down the same. One step for each item is enough for either of them. -/
theorem keepImports_changes_imports_only (job : Job) (hlocal : job.registry.All (·.handler.tier ≠ .helper))
    (budget : Nat) :
    (((job.withKeepImports true).run budget).outcome = .error .outOfBudget ∨
      job.AgreeButImports budget ∧
        ((job.withKeepImports false).run budget).notes =
          ((job.withKeepImports true).run budget).notes) ∧
    ∀ module, job.source.parse = .ok module → module.items.length ≤ budget →
      ∀ keep, ((job.withKeepImports keep).run budget).outcome ≠ .error .outOfBudget := by
  constructor
  · cases hparse : job.source.parse with
    | error failure =>
      have hfails : ∀ keep, (job.withKeepImports keep).run budget =
          { outcome := .error (.failure failure) } := fun _ => run_of_parse_error hparse
      rw [hfails, hfails]
      exact .inr ⟨.failed (by rw [hfails]) (by rw [hfails]), rfl⟩
    | ok module =>
      have hparse' : ∀ keep, (job.withKeepImports keep).source.parse = .ok module := fun _ => hparse
      rcases expand_keepImports hlocal budget module.items with ⟨b, hkept⟩ | ⟨hkept, hdropped⟩ |
        ⟨failure, a, b, hkept, hdropped, hsame⟩ | ⟨passes, a, b, hkept, hdropped, hsame, hitems⟩
      · left
        rw [run_of_error (hparse' true) hkept]
      · right
        have hrun := run_of_none (hparse' true) hkept
        have hrun' := run_of_none (hparse' false) hdropped
        exact ⟨.untouched (by rw [hrun]) (by rw [hrun']), by rw [hrun, hrun']⟩
      · right
        have hrun := run_of_error (hparse' true) hkept
        have hrun' := run_of_error (hparse' false) hdropped
        exact ⟨.failed (by rw [hrun]) (by rw [hrun']), by rw [hrun, hrun', hsame.notes]⟩
      · right
        have hrun := run_of_ok (hparse' true) hkept
        have hrun' := run_of_ok (hparse' false) hdropped
        refine ⟨.transformed hparse ⟨b, hkept, rfl⟩ ⟨a, hdropped, hitems⟩ (by rw [hrun]) ?_, ?_⟩
        · rw [hrun', hitems, hsame.trace]
        · rw [hrun, hrun', hsame.notes]
  · intro module hparse hle keep houtcome
    have hlocal' : (job.withKeepImports keep).registry.All (·.handler.tier ≠ .helper) := hlocal
    rcases outcome_eq_error.mp houtcome with ⟨_, -, hfailure⟩ | ⟨module', run, hparse', hexpand⟩
    · cases hfailure
    · cases hparse.symm.trans hparse'
      exact expand_ne_outOfBudget hlocal' hle hexpand

/-- A file with an import of a macro and a type, a bare one, and one of a macro that becomes a call of the
other. -/
def keeping : Job where
  registry := passing.registry
  source := Source.ofPath "a.ts"
    "import \x7b id, type T \x7d from 'm';\nimport 'm';\nimport \x7b wrap \x7d from 'm';\nwrap(id(x));\n"

/-- What becomes of it with its imports kept. -/
def kept : Output where
  code := "import \x7b type T \x7d from 'm';\nimport 'm';\nimport 'm';\nx;\n"
  passes := 2
  trace := [⟨1, "wrap", "m", some ⟨4, 1⟩⟩, ⟨1, "id", "m", some ⟨4, 6⟩⟩, ⟨2, "id", "m", none⟩]

theorem keeping_changes_imports_only : passing.registry.All (·.handler.tier ≠ .helper) ∧
    ((keeping.withKeepImports true).run 4).outcome = .ok (.transformed kept) ∧
    keeping.AgreeButImports 4 := by
  have houtcome : ((keeping.withKeepImports true).run 4).outcome = .ok (.transformed kept) := by
    decide +kernel
  refine ⟨passing_local, houtcome, ?_⟩
  rcases (keepImports_changes_imports_only keeping passing_local 4).1 with hout | ⟨hagree, -⟩
  · cases houtcome.symm.trans hout
  · exact hagree

end Job

end CallExpander
