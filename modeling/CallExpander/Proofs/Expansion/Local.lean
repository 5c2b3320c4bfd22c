import CallExpander.Proofs.Expansion.Preorder
import CallExpander.Proofs.Expansion.Rounds

/-!
# Macros that see only their call

Where no macro can reach beyond its own call, what a pass does to an item depends on the item, the names
that are bound and what is remembered, and on nothing else: not on the other items, not on where the item
stands, not on the budget of the requests that nobody makes. A pass then is a walk over a list.
-/

namespace CallExpander

/-- Two states differ at most in the program and in the record of what happened. -/
structure Run.Same (a b : Run) : Prop where
  bindings : b.bindings = a.bindings
  passState : b.passState = a.passState
  fileState : b.fileState = a.fileState
  notes : b.notes = a.notes
  pass : b.pass = a.pass
  applied : b.applied = a.applied
  trace : b.trace = a.trace

namespace Run.Same

variable {a b c : Run}

theorem refl (run : Run) : run.Same run := ⟨rfl, rfl, rfl, rfl, rfl, rfl, rfl⟩

theorem symm (h : a.Same b) : b.Same a where
  bindings := h.bindings.symm
  passState := h.passState.symm
  fileState := h.fileState.symm
  notes := h.notes.symm
  pass := h.pass.symm
  applied := h.applied.symm
  trace := h.trace.symm

theorem trans (hab : a.Same b) (hbc : b.Same c) : a.Same c where
  bindings := hbc.bindings.trans hab.bindings
  passState := hbc.passState.trans hab.passState
  fileState := hbc.fileState.trans hab.fileState
  notes := hbc.notes.trans hab.notes
  pass := hbc.pass.trans hab.pass
  applied := hbc.applied.trans hab.applied
  trace := hbc.trace.trans hab.trace

theorem context_eq (h : a.Same b) (slot : Node) : b.context slot = a.context slot := by
  simp only [Run.context, h.passState, h.fileState, h.notes]

theorem withContext (h : a.Same b) (context : Context) :
    (a.withContext context).Same (b.withContext context) :=
  ⟨h.bindings, rfl, rfl, rfl, h.pass, h.applied, h.trace⟩

theorem withBody (h : a.Same b) (body : Body) : a.Same { b with body } :=
  ⟨h.bindings, h.passState, h.fileState, h.notes, h.pass, h.applied, h.trace⟩

theorem dropping (h : a.Same b) (index : Nat) (body : Body) : a.Same (b.dropping index body) :=
  ⟨h.bindings, h.passState, h.fileState, h.notes, h.pass, h.applied, h.trace⟩

theorem record (h : a.Same b) (event : Event) : a.Same (b.record event) :=
  ⟨h.bindings, h.passState, h.fileState, h.notes, h.pass, h.applied, h.trace⟩

theorem beginPass (h : a.Same b) : (Job.beginPass a).Same (Job.beginPass b) :=
  ⟨h.bindings, rfl, h.fileState, h.notes, congrArg (· + 1) h.pass, rfl, h.trace⟩

end Run.Same

namespace Expansion

variable {α β : Type}

/-- Two parts do the same in states that belong together and leave states that do, and neither touches
the program or halts for anything but a failure. -/
structure Agree (near : Run → Run → Prop) (x y : Expansion α) : Prop where
  ok : ∀ {a b v a'}, near a b → x a = .ok v a' →
    a'.body = a.body ∧ ∃ b', y b = .ok v b' ∧ b'.body = b.body ∧ near a' b'
  error : ∀ {a b halt a'}, near a b → x a = .error halt a' →
    (∃ failure, halt = .failure failure) ∧ a'.body = a.body ∧
      ∃ b', y b = .error halt b' ∧ b'.body = b.body ∧ near a' b'

variable {near : Run → Run → Prop} {x y : Expansion α} {f g : α → Expansion β}

theorem Agree.pure (v : α) : Agree near (Pure.pure v) (Pure.pure v) where
  ok h hx := by
    obtain ⟨rfl, rfl⟩ := ok_pure hx
    exact ⟨rfl, _, rfl, rfl, h⟩
  error _ hx := (error_pure hx).elim

theorem Agree.bind (hx : Agree near x y)
    (hf : ∀ {v a a'}, x a = .ok v a' → Agree near (f v) (g v)) :
    Agree near (x >>= f) (y >>= g) where
  ok h hres := by
    obtain ⟨v, mid, hfirst, hthen⟩ := ok_bind hres
    obtain ⟨hbody, mid', hfirst', hbody', hmid⟩ := hx.ok h hfirst
    obtain ⟨hlast, b', hthen', hlast', hend⟩ := (hf hfirst).ok hmid hthen
    exact ⟨hlast.trans hbody, b', (bind_of_ok hfirst').trans hthen', hlast'.trans hbody', hend⟩
  error h hres := by
    rcases error_bind hres with hfirst | ⟨v, mid, hfirst, hthen⟩
    · obtain ⟨hfailure, hbody, b', hfirst', hbody', hend⟩ := hx.error h hfirst
      exact ⟨hfailure, hbody, b', bind_of_error hfirst', hbody', hend⟩
    · obtain ⟨hbody, mid', hfirst', hbody', hmid⟩ := hx.ok h hfirst
      obtain ⟨hfailure, hlast, b', hthen', hlast', hend⟩ := (hf hfirst).error hmid hthen
      exact ⟨hfailure, hlast.trans hbody, b', (bind_of_ok hfirst').trans hthen',
        hlast'.trans hbody', hend⟩

/-! ## Two runs side by side -/

/-- The second of two runs follows the first one: it succeeds where that does, with what belongs together
in the end, and halts as that does, if that is a halt of the kind that counts. -/
structure Follows (counts : Halt → Prop) (R : α → Run → β → Run → Prop) (x : EStateM.Result Halt Run α)
    (y : EStateM.Result Halt Run β) : Prop where
  ok : ∀ {v a}, x = .ok v a → ∃ w b, y = .ok w b ∧ R v a w b
  error : ∀ {halt a}, x = .error halt a → counts halt → ∃ b, y = .error halt b ∧ a.Same b

section

variable {γ δ : Type} {counts : Halt → Prop} {R : α → Run → β → Run → Prop} {a b : Run}

theorem Agree.follows (h : Agree Run.Same x y) (hsame : a.Same b) :
    Follows counts (fun v a' w b' => v = w ∧ b'.body = b.body ∧ a'.Same b') (x a) (y b) where
  ok hres := by
    obtain ⟨-, b', hres', hbody, hend⟩ := h.ok hsame hres
    exact ⟨_, b', hres', rfl, hbody, hend⟩
  error hres _ := by
    obtain ⟨-, -, b', hres', -, hend⟩ := h.error hsame hres
    exact ⟨b', hres', hend⟩

namespace Follows

theorem of_ok {v : α} {w : β} (h : R v a w b) : Follows counts R (.ok v a) (.ok w b) where
  ok hres := by
    cases hres
    exact ⟨w, b, rfl, h⟩
  error hres := by cases hres

theorem of_error {halt : Halt} (h : counts halt → a.Same b) :
    Follows counts R (.error halt a) (.error halt b) where
  ok hres := by cases hres
  error hres hcounts := by
    cases hres
    exact ⟨b, rfl, h hcounts⟩

/-- A run for which there were too few steps is followed by any other one, if that does not count. -/
theorem of_outOfBudget {y : EStateM.Result Halt Run β} :
    Follows (· ≠ .outOfBudget) R (.error .outOfBudget a) y where
  ok hres := by cases hres
  error hres hcounts := by
    cases hres
    exact absurd rfl hcounts

theorem bind {x : Expansion α} {y : Expansion β} {f : α → Expansion γ} {g : β → Expansion δ}
    {S : γ → Run → δ → Run → Prop} (h : Follows counts R (x a) (y b))
    (hnext : ∀ {v a' w b'}, R v a' w b' → Follows counts S (f v a') (g w b')) :
    Follows counts S ((x >>= f) a) ((y >>= g) b) where
  ok hres := by
    obtain ⟨v, a', hfirst, hthen⟩ := ok_bind hres
    obtain ⟨w, b', hfirst', hmid⟩ := h.ok hfirst
    rw [bind_of_ok hfirst']
    exact (hnext hmid).ok hthen
  error hres hcounts := by
    rcases error_bind hres with hfirst | ⟨v, a', hfirst, hthen⟩
    · obtain ⟨b', hfirst', hend⟩ := h.error hfirst hcounts
      exact ⟨b', bind_of_error hfirst', hend⟩
    · obtain ⟨w, b', hfirst', hmid⟩ := h.ok hfirst
      rw [bind_of_ok hfirst']
      exact (hnext hmid).error hthen hcounts

/-- What is done with the answer of the first run alone. -/
theorem map {x : Expansion α} {y : EStateM.Result Halt Run β} {f : α → γ} {S : γ → Run → β → Run → Prop}
    (h : Follows counts R (x a) y) (hS : ∀ {v a' w b'}, R v a' w b' → S (f v) a' w b') :
    Follows counts S ((x >>= fun v => Pure.pure (f v)) a) y where
  ok hres := by
    obtain ⟨v, a', hfirst, hthen⟩ := ok_bind hres
    obtain ⟨w, b', hres', hend⟩ := h.ok hfirst
    obtain ⟨rfl, rfl⟩ := ok_pure hthen
    exact ⟨w, b', hres', hS hend⟩
  error hres hcounts := h.error (error_bind_pure hres) hcounts

theorem trans {x : EStateM.Result Halt Run α} {y : EStateM.Result Halt Run β}
    {z : EStateM.Result Halt Run γ} {S : β → Run → γ → Run → Prop} {T : α → Run → γ → Run → Prop}
    (hxy : Follows counts R x y) (hyz : Follows counts S y z)
    (hT : ∀ {v a w b u c}, R v a w b → S w b u c → T v a u c) : Follows counts T x z where
  ok hres := by
    obtain ⟨w, b, hres', hR⟩ := hxy.ok hres
    obtain ⟨u, c, hres'', hS⟩ := hyz.ok hres'
    exact ⟨u, c, hres'', hT hR hS⟩
  error hres hcounts := by
    obtain ⟨b, hres', hsame⟩ := hxy.error hres hcounts
    obtain ⟨c, hres'', hsame'⟩ := hyz.error hres' hcounts
    exact ⟨c, hres'', hsame.trans hsame'⟩

/-- Where all halts count, the first run follows the second one, too. -/
theorem symm {x : EStateM.Result Halt Run α} {y : EStateM.Result Halt Run β}
    (h : Follows (fun _ => True) R x y) : Follows counts (fun w b v a => R v a w b) y x where
  ok {w b} hres := by
    cases x with
    | ok v a =>
      obtain ⟨w', b', hres', hend⟩ := h.ok rfl
      cases hres.symm.trans hres'
      exact ⟨v, a, rfl, hend⟩
    | error halt a =>
      obtain ⟨b', hres', -⟩ := h.error rfl trivial
      cases hres.symm.trans hres'
  error {halt b} hres _ := by
    cases x with
    | ok v a =>
      obtain ⟨w', b', hres', -⟩ := h.ok rfl
      cases hres.symm.trans hres'
    | error halt' a =>
      obtain ⟨b', hres', hend⟩ := h.error rfl trivial
      cases hres.symm.trans hres'
      exact ⟨a, rfl, hend.symm⟩

end Follows

end

end Expansion

open Expansion Node

namespace Job

variable {job : Job} {w w' : Walker} {a b run run' : Run}

theorem identify_of_bindings (h : b.bindings = a.bindings) (n : Node) :
    (∀ {found a'}, job.identify n a = .ok found a' → job.identify n b = .ok found b) ∧
      ∀ {halt a'}, job.identify n a = .error halt a' → job.identify n b = .error halt b := by
  unfold identify
  rw [get_bind, get_bind, h]
  rcases resolveCall a.bindings n with _ | ⟨module, name⟩ | ⟨module, name⟩
  · exact ⟨fun h => by cases h; rfl, fun h => by cases h⟩
  · simp only
    rcases job.registry.find? module name with _ | callee
    · exact ⟨fun h => (by cases h), fun h => by cases h; rfl⟩
    · exact ⟨fun h => by cases h; rfl, fun h => by cases h⟩
  · exact ⟨fun h => (by cases h), fun h => by cases h; rfl⟩

/-- Whatever else the states that belong together differ in, the same names are bound in them, macros
can be applied in both, and the handlers, none of which is a task, do the same in both. -/
structure Lockstep (job : Job) (near : Run → Run → Prop) : Prop where
  bindings : ∀ {a b}, near a b → b.bindings = a.bindings
  applying : ∀ {a b}, near a b → ∀ name module location slot,
    near (a.applying ⟨a.pass, name, module, location⟩ slot)
      (b.applying ⟨b.pass, name, module, location⟩ slot)
  eager : job.registry.All (·.handler.isCooperative = false)
  apply : ∀ (w w' : Walker) {invocation : Invocation} {module name : String},
    job.registry.find? module name = some invocation.callee →
    ∀ slot, Agree near (job.apply w invocation slot) (job.apply w' invocation slot)

namespace Lockstep

variable {near : Run → Run → Prop}

theorem agree_identify (h : job.Lockstep near) (n : Node) :
    Agree near (job.identify n) (job.identify n) where
  ok {a b _ _} hnear hres := by
    have hres' := (identify_of_bindings (h.bindings hnear) n).1 hres
    obtain ⟨rfl, -⟩ := ok_identify hres
    exact ⟨rfl, b, hres', rfl, hnear⟩
  error {a b _ _} hnear hres := by
    have hres' := (identify_of_bindings (h.bindings hnear) n).2 hres
    obtain ⟨rfl, _, _, rfl, -⟩ := error_identify hres
    exact ⟨⟨_, rfl⟩, rfl, b, hres', rfl, hnear⟩

theorem agree_begin (h : job.Lockstep near) (callee : Macro) (module : String) (n : Node) :
    Agree near (job.begin callee module n) (job.begin callee module n) where
  ok {a b _ _} hnear hres := by
    cases hres
    exact ⟨rfl, b.applying ⟨b.pass, callee.name, module, (job.source.site? n).map (·.location)⟩ n,
      rfl, rfl, h.applying hnear _ _ _ _⟩
  error _ hres := by cases hres

mutual

/-- Visiting a tree does the same in states that belong together, however requests are served. -/
theorem visit (h : job.Lockstep near) (w w' : Walker) : ∀ n, Agree near (job.visit w n) (job.visit w' n)
  | .mk form origin parts => by
    rw [Job.visit, Job.visit]
    refine (h.agree_identify _).bind fun {found _ _} hid => ?_
    obtain ⟨-, ⟨rfl, -⟩ | ⟨callee, module, name, rfl, -, hfind⟩⟩ := ok_identify hid
    · exact (h.visitParts w w' parts).bind fun _ => .pure _
    · refine (h.agree_begin callee module _).bind fun {invocation _ _} hbegin => ?_
      cases hbegin
      simp only [h.eager.of_find? hfind, Bool.false_eq_true, if_false]
      exact (h.visitCall w w' parts).bind fun _ => h.apply w w' hfind _

theorem visitParts (h : job.Lockstep near) (w w' : Walker) :
    ∀ parts, Agree near (job.visitParts w parts) (job.visitParts w' parts)
  | [] => by
    rw [Job.visitParts, Job.visitParts]
    exact .pure _
  | n :: rest => by
    rw [Job.visitParts, Job.visitParts]
    refine (h.visit w w' n).bind fun _ => ?_
    exact (h.visitParts w w' rest).bind fun _ => .pure _

theorem visitCall (h : job.Lockstep near) (w w' : Walker) :
    ∀ parts, Agree near (job.visitCall w parts) (job.visitCall w' parts)
  | [callee, group, typeArgs] => by
    rw [Job.visitCall, Job.visitCall]
    exact (h.visitGroup w w' group).bind fun _ => .pure _
  | [] | [_] | [_, _] | _ :: _ :: _ :: _ :: _ => .pure _

theorem visitGroup (h : job.Lockstep near) (w w' : Walker) :
    ∀ n, Agree near (job.visitGroup w n) (job.visitGroup w' n)
  | .mk form origin args => by
    by_cases hgroup : form = .group
    · subst hgroup
      rw [Job.visitGroup, Job.visitGroup]
      exact (h.visitArguments w w' args).bind fun _ => .pure _
    · have hother : ∀ w, job.visitGroup w (.mk form origin args) = Pure.pure (.mk form origin args) :=
        fun w => visitGroup.eq_2 _ _ _ fun _ _ heq => hgroup (Node.mk.inj heq).1
      rw [hother, hother]
      exact .pure _

theorem visitArguments (h : job.Lockstep near) (w w' : Walker) :
    ∀ args, Agree near (job.visitArguments w args) (job.visitArguments w' args)
  | [] => by
    rw [Job.visitArguments, Job.visitArguments]
    exact .pure _
  | n :: rest => by
    rw [Job.visitArguments, Job.visitArguments]
    refine (h.visit w w' n).bind fun _ => ?_
    exact (h.visitArguments w w' rest).bind fun _ => .pure _

end

end Lockstep

theorem agree_onContext (invocation : Invocation) (slot : Node)
    (handler : Call → EStateM String Context Unit) :
    Agree Run.Same (job.onContext invocation slot handler) (job.onContext invocation slot handler) where
  ok {a b _ _} h hres := by
    unfold onContext at hres ⊢
    rw [h.context_eq]
    cases hhandler : handler (job.facts invocation slot) (a.context slot) with
    | ok _ context =>
      rw [hhandler] at hres
      cases hres
      exact ⟨rfl, _, rfl, rfl, h.withContext context⟩
    | error cause context =>
      rw [hhandler] at hres
      cases hres
  error {a b _ _} h hres := by
    unfold onContext at hres ⊢
    rw [h.context_eq]
    cases hhandler : handler (job.facts invocation slot) (a.context slot) with
    | ok _ context =>
      rw [hhandler] at hres
      cases hres
    | error cause context =>
      rw [hhandler] at hres
      cases hres
      exact ⟨⟨_, rfl⟩, rfl, _, rfl, rfl, h.withContext context⟩

/-- If no macro can reach beyond its own call, states that differ in nothing but the program and the
record belong together. -/
theorem lockstep_same (hlocal : job.registry.All (·.handler.tier ≠ .helper)) :
    job.Lockstep Run.Same where
  bindings h := h.bindings
  applying {a b} h name module location slot := by
    refine ⟨h.bindings, h.passState, h.fileState, h.notes, h.pass, congrArg (· + 1) h.applied, ?_⟩
    simp only [Run.applying, h.trace, h.pass]
  eager entry hentry callee hcallee := Handler.isCooperative_of_tier (hlocal entry hentry callee hcallee)
  apply w w' {invocation _ _} hfind slot := by
    have htier := hlocal.of_find? hfind
    unfold Job.apply
    cases hhandler : invocation.callee.handler with
    | context handler => exact agree_onContext invocation slot _
    | toolkit handler => exact agree_onContext invocation slot _
    | helper handler => rw [hhandler] at htier; exact absurd rfl htier
    | task start => rw [hhandler] at htier; exact absurd rfl htier

/-- What visiting a tree does depends neither on the program around it nor on how requests are
served. -/
theorem agree_visit (hlocal : job.registry.All (·.handler.tier ≠ .helper)) (w w' : Walker) (n : Node) :
    Agree Run.Same (job.visit w n) (job.visit w' n) :=
  (lockstep_same hlocal).visit w w' n

/-- Expands a list of items one after the other, and drops those that are nothing but a removed call. -/
def expandItems (job : Job) : Nat → List Node → Expansion (List Node)
  | _, [] => return []
  | 0, _ :: _ => throw .outOfBudget
  | budget + 1, item :: rest => do
    let item ← job.visit (job.walker budget) item
    let rest ← job.expandItems budget rest
    return if item.isRemovedStatement then rest else item.sweep :: rest

theorem agree_expandItems (hlocal : job.registry.All (·.handler.tier ≠ .helper)) :
    ∀ (items : List Node) (budget : Nat), items.length ≤ budget →
      Agree Run.Same (job.expandItems budget items) (job.expandItems budget items)
  | [], budget, _ => by
    rw [expandItems]
    exact .pure _
  | item :: rest, 0, hle => absurd hle (Nat.not_succ_le_zero _)
  | item :: rest, budget + 1, hle => by
    rw [expandItems]
    refine (agree_visit hlocal _ _ item).bind fun _ => ?_
    exact (agree_expandItems hlocal rest budget (Nat.le_of_succ_le_succ hle)).bind fun _ => .pure _

/-- The items around one that is put back, or dropped. -/
theorem take_drop_of_detached {items : List Node} {index : Nat} (hlt : index < items.length) (n : Node) :
    (items.set index n).take (index + 1) = items.take index ++ [n] ∧
      (items.set index n).drop (index + 1) = items.drop (index + 1) ∧
      (items.eraseIdx index).take index = items.take index ∧
      (items.eraseIdx index).drop index = items.drop (index + 1) := by
  have hlength : (items.take index).length = index := List.length_take_of_le (Nat.le_of_lt hlt)
  have hlength' : (items.take index ++ [n]).length = index + 1 := by
    rw [List.length_append, hlength, List.length_singleton]
  refine ⟨?_, List.drop_set_of_lt (Nat.lt_succ_self index), ?_, ?_⟩
  · rw [List.set_eq_take_append_cons_drop, if_pos hlt, List.append_cons, List.take_left' hlength']
  · rw [List.eraseIdx_eq_take_drop_succ, List.take_left' hlength]
  · rw [List.eraseIdx_eq_take_drop_succ, List.drop_left' hlength]

/-- Between two others, what becomes of an item is what visiting it gives. -/
theorem expandItem_of_visit {counts : Halt → Prop} (hlocal : job.registry.All (·.handler.tier ≠ .helper))
    {index : Nat} {item : Node} (hidle : run.Idle) (hitem : run.body.items[index]? = some item)
    (hsame : a.Same run) :
    Follows counts (fun item' mid next run' => mid.Same run' ∧ run'.Idle ∧
        run'.body.items.take next = run.body.items.take index ++
          (if item'.isRemovedStatement then [] else [item'.sweep]) ∧
        run'.body.items.drop next = run.body.items.drop (index + 1))
      (job.visit w item a) (job.expandItem w index run) := by
  obtain ⟨hlt, -⟩ := List.getElem?_eq_some_iff.mp hitem
  have hdetach : run.body.detach? index =
      some (item, ⟨run.body.items.set index emptyStatement, [index]⟩) := by
    rw [Body.detach?, hitem, hidle]
    rfl
  have hplace : index < (run.body.items.set index emptyStatement).length := by
    rw [List.length_set]
    exact hlt
  have hsame' := hsame.withBody ⟨run.body.items.set index emptyStatement, [index]⟩
  unfold expandItem
  constructor
  · intro item' mid hvisit
    obtain ⟨htake, hdrop, htake', hdrop'⟩ := take_drop_of_detached hlt item'.sweep
    obtain ⟨-, last, hvisit', hbody, hend⟩ := (agree_visit hlocal w w item).ok hsame' hvisit
    simp only [hdetach, hvisit', reattach, hbody]
    cases hremoved : item'.isRemovedStatement with
    | true =>
      have hdiscard : Body.discard? ⟨run.body.items.set index emptyStatement, [index]⟩ =
          some (index, ⟨run.body.items.eraseIdx index, []⟩) := by
        simp only [Body.discard?, Body.remove?, Body.size, hplace, if_true, List.eraseIdx_set_eq]
        rfl
      simp only [hdiscard, if_true, List.append_nil]
      exact ⟨_, _, rfl, hend.dropping index _, rfl, htake', hdrop'⟩
    | false =>
      have hreattach : Body.reattach? ⟨run.body.items.set index emptyStatement, [index]⟩ item'.sweep =
          some (index, ⟨run.body.items.set index item'.sweep, []⟩) := by
        simp only [Body.reattach?, Body.size, hplace, if_true, List.set_set]
      simp only [hreattach, Bool.false_eq_true, if_false]
      exact ⟨_, _, rfl, hend.withBody _, rfl, htake, hdrop⟩
  · intro halt mid hvisit _
    obtain ⟨-, -, last, hvisit', hbody, hend⟩ := (agree_visit hlocal w w item).error hsame' hvisit
    simp only [hdetach, hvisit', reattach, hbody, Body.reattach?, Body.size, hplace, if_true]
    exact ⟨_, rfl, hend.withBody _⟩

/-- At the end of the program nothing is left to walk over. -/
theorem expandFrom_at_end {counts : Halt → Prop} {budget index : Nat} (hidle : run.Idle)
    (hge : run.body.size ≤ index) (hsame : a.Same run) :
    Follows counts (fun items mid _ run' => mid.Same run' ∧ run'.Idle ∧
        run'.body.items = run.body.items.take index ++ items)
      (job.expandItems budget (run.body.items.drop index) a) (job.expandFrom budget index run) := by
  have hge' : run.body.items.length ≤ index := hge
  rw [List.drop_eq_nil_of_le hge', expandFrom_of_le hge, expandItems]
  exact .of_ok ⟨hsame, hidle, by rw [List.take_of_length_le hge', List.append_nil]⟩

/-- A walk over the items that are left is a walk over the list of them. -/
theorem expandFrom_of_expandItems {counts : Halt → Prop}
    (hlocal : job.registry.All (·.handler.tier ≠ .helper)) {budget index : Nat} (hidle : run.Idle)
    (hsame : a.Same run) :
    Follows counts (fun items mid _ run' => mid.Same run' ∧ run'.Idle ∧
        run'.body.items = run.body.items.take index ++ items)
      (job.expandItems budget (run.body.items.drop index) a) (job.expandFrom budget index run) := by
  induction budget generalizing a run index with
  | zero =>
    rcases Nat.lt_or_ge index run.body.size with hlt | hge
    · have hlt' : index < run.body.items.length := hlt
      have hout : job.expandFrom 0 index run = .error .outOfBudget run := by
        change (if index < run.body.size then _ else pure () : Expansion Unit) run = _
        rw [if_pos hlt]
        rfl
      rw [List.drop_eq_getElem_cons hlt', expandItems, hout]
      exact .of_error fun _ => hsame
    · exact expandFrom_at_end hidle hge hsame
  | succ budget ih =>
    rcases Nat.lt_or_ge index run.body.size with hlt | hge
    · have hlt' : index < run.body.items.length := hlt
      have hidle' : (run.record (.walked index)).Idle := hidle
      have hitem : (run.record (.walked index)).body.items[index]? = some run.body.items[index] :=
        List.getElem?_eq_getElem hlt'
      rw [List.drop_eq_getElem_cons hlt', expandItems, expandFrom_of_lt hlt]
      refine (expandItem_of_visit hlocal hidle' hitem (hsame.record (.walked index))).bind
        fun {item' _ _ _} hnext => ?_
      obtain ⟨hmid, hmore, htake, hdrop⟩ := hnext
      refine (hdrop ▸ ih hmore hmid).map fun hwalk => ?_
      obtain ⟨hend, hfree, hitems⟩ := hwalk
      refine ⟨hend, hfree, ?_⟩
      rw [hitems, htake, List.append_assoc]
      cases item'.isRemovedStatement <;> rfl
    · exact expandFrom_at_end hidle hge hsame

/-- A pass is a walk over the list of items. -/
theorem runPass_of_expandItems {counts : Halt → Prop}
    (hlocal : job.registry.All (·.handler.tier ≠ .helper)) {budget : Nat} (hidle : run.Idle) :
    Follows counts (fun items mid _ run' => mid.Same run' ∧ run'.Idle ∧ run'.body.items = items)
      (job.expandItems budget run.body.items (beginPass run)) (job.runPass budget run) := by
  have hidle' : (beginPass run).Idle := hidle
  exact @expandFrom_of_expandItems job _ (beginPass run) counts hlocal budget 0 hidle' (.refl _)

/-! ## One step for each item is enough -/

theorem length_expandItems {items items' : List Node} {budget : Nat}
    (h : job.expandItems budget items run = .ok items' run') : items'.length ≤ items.length := by
  induction items generalizing budget items' run run' with
  | nil =>
    rw [expandItems] at h
    obtain ⟨rfl, -⟩ := ok_pure h
    exact Nat.le_refl 0
  | cons item rest ih =>
    cases budget with
    | zero => cases h
    | succ budget =>
      rw [expandItems] at h
      obtain ⟨item', mid, -, h⟩ := ok_bind h
      obtain ⟨rest', last, hrest, h⟩ := ok_bind h
      obtain ⟨rfl, -⟩ := ok_pure h
      have hle := ih hrest
      split
      · exact Nat.le_succ_of_le hle
      · exact Nat.succ_le_succ hle

theorem length_collectBindings (exports : Exports) (keepImports : Bool) (items : List Node) :
    (collectBindings exports keepImports items).2.length ≤ items.length := by
  induction items with
  | nil => exact Nat.le_refl 0
  | cons item rest ih =>
    simp only [collectBindings]
    cases retireImport exports keepImports item with
    | none => exact Nat.succ_le_succ ih
    | some retired =>
      obtain ⟨bindings, _ | remains⟩ := retired
      · exact Nat.le_succ_of_le ih
      · exact Nat.succ_le_succ ih

theorem length_resolve (items : List Node) : (resolve items).length = items.length :=
  (rel_markAll alike _ items).length_eq

/-- A pass needs no more steps than there are items, and leaves no more of them. -/
theorem runPass_within (hlocal : job.registry.All (·.handler.tier ≠ .helper)) {budget : Nat}
    (hidle : run.Idle) (hle : run.body.items.length ≤ budget) :
    (∀ {v}, job.runPass budget run = .ok v run' → run'.body.items.length ≤ budget) ∧
    ∀ {halt}, job.runPass budget run = .error halt run' → ∃ failure, halt = .failure failure := by
  have hwalk : Follows (fun _ => True) _ (job.runPass budget run) _ :=
    (runPass_of_expandItems hlocal hidle).symm
  constructor
  · intro v hpass
    obtain ⟨items, mid, hres, -, -, rfl⟩ := hwalk.ok hpass
    exact Nat.le_trans (length_expandItems hres) hle
  · intro halt hpass
    obtain ⟨mid, hres, -⟩ := hwalk.error hpass trivial
    exact ((agree_expandItems hlocal _ budget hle).error (.refl _) hres).1

/-- An expansion does not run out of steps if it may take one for each item. -/
theorem expand_ne_outOfBudget (hlocal : job.registry.All (·.handler.tier ≠ .helper)) {budget : Nat}
    {items : List Node} (hle : items.length ≤ budget) :
    job.expand budget items ≠ some (.error .outOfBudget run) := by
  intro h
  rw [expand_of_bindings (bindings_of_expand h)] at h
  have hrefresh : ∀ {items : List Node}, items.length ≤ budget →
      (resolve (collectBindings job.registry.exports job.options.keepImports items).2).length ≤
        budget := by
    intro items hle
    rw [length_resolve]
    exact Nat.le_trans (length_collectBindings _ _ items) hle
  have hstart : (job.start items).Idle ∧ (job.start items).body.items.length ≤ budget :=
    ⟨rfl, hrefresh hle⟩
  have hend := error_settle (Q := fun run => run.Idle ∧ run.body.items.length ≤ budget)
    (E := fun halt _ => ∃ failure, halt = Halt.failure failure) ?_ ?_ (fun failure _ => ⟨failure, rfl⟩)
    hstart (Option.some.inj h)
  · obtain ⟨failure, hfailure⟩ := hend
    cases hfailure
  · rintro run v run' ⟨hidle, hle⟩ hpass
    exact ⟨idle_refresh hidle hpass, hrefresh ((runPass_within hlocal hidle hle).1 hpass)⟩
  · rintro run halt run' ⟨hidle, hle⟩ hpass
    exact (runPass_within hlocal hidle hle).2 hpass

end Job

end CallExpander
