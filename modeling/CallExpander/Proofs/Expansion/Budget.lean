import CallExpander.Proofs.Expansion.FixedPoint

/-!
# More budget changes no result

The budget only says how deep requests may lead and how many items a pass may take up. With more of
it an expansion goes the same way and further: what ends for another reason than the lack of budget
ends like that with any larger budget.
-/

namespace CallExpander

/-- A halt that says nothing about the program: the budget was too small, or an item was lost. -/
def Halt.isLack : Halt → Bool
  | .failure _ => false
  | .outOfBudget | .lostItem => true

/-- Whether a report says what became of the file: untouched, transformed or failed. -/
def Report.isConclusive (report : Report) : Bool :=
  match report.outcome with
  | .ok _ => true
  | .error halt => !halt.isLack

/-- The second part ends like the first, unless the first halts for a lack. -/
def Expansion.Below {α : Type} (x y : Expansion α) : Prop :=
  ∀ run, (∃ halt run', halt.isLack = true ∧ x run = .error halt run') ∨ y run = x run

namespace Expansion

variable {α β : Type} {x y z : Expansion α}

theorem Below.refl (x : Expansion α) : Below x x := fun _ => .inr rfl

theorem Below.trans (hxy : Below x y) (hyz : Below y z) : Below x z := by
  intro run
  rcases hxy run with hlack | hxy
  · exact .inl hlack
  · rcases hyz run with ⟨halt, run', hlack, hy⟩ | hyz
    · exact .inl ⟨halt, run', hlack, hxy ▸ hy⟩
    · exact .inr (hyz.trans hxy)

theorem Below.bind {f g : α → Expansion β} (hx : Below x y) (hf : ∀ a, Below (f a) (g a)) :
    Below (x >>= f) (y >>= g) := by
  intro run
  rcases hx run with ⟨halt, run', hlack, h⟩ | h
  · exact .inl ⟨halt, run', hlack, bind_of_error h⟩
  cases hres : x run with
  | ok a mid =>
    rw [bind_of_ok hres, bind_of_ok (h.trans hres)]
    exact hf a mid
  | error halt mid =>
    rw [bind_of_error hres, bind_of_error (h.trans hres)]
    exact .inr rfl

/-- A part that ends, and not for a lack, ends in the same way above. -/
theorem Below.eq {run : Run} {result : EStateM.Result Halt Run α} (h : Below x y)
    (hresult : ∀ halt run', result = .error halt run' → halt.isLack = false)
    (hx : x run = result) : y run = result := by
  rcases h run with ⟨halt, run', hlack, herror⟩ | heq
  · rw [hresult halt run' (hx.symm.trans herror)] at hlack
    cases hlack
  · exact heq.trans hx

end Expansion

/-- A walker that serves every request like another, unless that one lacks something. -/
structure Walker.Below (w w' : Walker) : Prop where
  expression : ∀ n, (w.expression n).Below (w'.expression n)
  item : ∀ index, (w.item index).Below (w'.item index)
  task : ∀ invocation task slot, (w.task invocation task slot).Below (w'.task invocation task slot)

namespace Job

open Expansion

variable {job : Job} {w w' : Walker}

theorem below_apply (h : w.Below w') (invocation : Invocation) (slot : Node) :
    (job.apply w invocation slot).Below (job.apply w' invocation slot) := by
  unfold Job.apply
  split
  · exact .refl _
  · exact .refl _
  · exact .refl _
  · exact h.task invocation _ slot

mutual

theorem below_visit (h : w.Below w') : ∀ n, (job.visit w n).Below (job.visit w' n)
  | .mk form origin parts => by
    rw [visit, visit]
    refine (Below.refl _).bind ?_
    rintro (_ | ⟨callee, module⟩)
    · exact (below_visitParts h parts).bind fun _ => .refl _
    · refine (Below.refl _).bind fun invocation => ?_
      split
      · exact below_apply h invocation _
      · exact (below_visitCall h parts).bind fun _ => below_apply h invocation _

theorem below_visitParts (h : w.Below w') :
    ∀ parts, (job.visitParts w parts).Below (job.visitParts w' parts)
  | [] => by
    rw [visitParts, visitParts]
    exact .refl _
  | n :: rest => by
    rw [visitParts, visitParts]
    exact (below_visit h n).bind fun _ => (below_visitParts h rest).bind fun _ => .refl _

theorem below_visitCall (h : w.Below w') :
    ∀ parts, (job.visitCall w parts).Below (job.visitCall w' parts)
  | [callee, group, typeArgs] => by
    rw [visitCall, visitCall]
    exact (below_visitGroup h group).bind fun _ => .refl _
  | [] | [_] | [_, _] | _ :: _ :: _ :: _ :: _ => by
    simp only [visitCall]
    exact .refl _

theorem below_visitGroup (h : w.Below w') :
    ∀ n, (job.visitGroup w n).Below (job.visitGroup w' n)
  | .mk form origin args => by
    unfold visitGroup
    split
    · next heq =>
      cases heq
      exact (below_visitArguments h args).bind fun _ => .refl _
    · exact .refl _

theorem below_visitArguments (h : w.Below w') :
    ∀ args, (job.visitArguments w args).Below (job.visitArguments w' args)
  | [] => by
    rw [visitArguments, visitArguments]
    exact .refl _
  | n :: rest => by
    rw [visitArguments, visitArguments]
    exact (below_visit h n).bind fun _ => (below_visitArguments h rest).bind fun _ => .refl _

end

theorem below_expandItem (h : w.Below w') (index : Nat) :
    (job.expandItem w index).Below (job.expandItem w' index) := by
  intro run
  unfold expandItem
  rcases hdetach : run.body.detach? index with _ | ⟨item, body⟩
  · exact .inr rfl
  have hbelow : (job.visit w item).Below (job.visit w' item) := below_visit h item
  rcases hbelow { run with body } with ⟨halt, mid, hlack, hvisit⟩ | hvisit
  · -- A lack stays one, also if the item cannot be put back.
    left
    rcases hplace : mid.body.reattach? item with _ | ⟨place, body'⟩
    · exact ⟨.lostItem, mid, rfl, by simp only [hvisit, reattach, hplace]⟩
    · exact ⟨halt, { mid with body := body' }, hlack, by simp only [hvisit, reattach, hplace]⟩
  · exact .inr (by simp only [hvisit])

theorem below_expandArguments (h : w.Below w') :
    ∀ args, (expandArguments w args).Below (expandArguments w' args)
  | [] => .refl _
  | arg :: rest =>
    ((h.expression arg).bind fun _ => .refl _).bind fun _ =>
      (below_expandArguments h rest).bind fun _ => .refl _

theorem below_fulfil (h : w.Below w') (invocation : Invocation) (slot : Node) :
    ∀ request, (job.fulfil w invocation slot request).Below (job.fulfil w' invocation slot request)
  | .argument index => by
    rw [fulfil, fulfil]
    split
    · exact .refl _
    rcases slot.args[index]? with _ | arg
    · exact .refl _
    · exact ((h.expression arg).bind fun _ => .refl _).bind fun _ => .refl _
  | .arguments => by
    rw [fulfil, fulfil]
    split
    · exact .refl _
    · exact (below_expandArguments h slot.args).bind fun _ => .refl _
  | .item index => (Below.refl _).bind fun _ => (h.item index).bind fun _ => .refl _
  | .import _ => .refl _

theorem below_fulfilAll (h : w.Below w') (invocation : Invocation) :
    ∀ (requests : List Request) (slot : Node),
      (job.fulfilAll w invocation slot requests).Below (job.fulfilAll w' invocation slot requests)
  | [], _ => .refl _
  | request :: rest, slot =>
    (below_fulfil h invocation slot request).bind (below_fulfilAll h invocation rest)

theorem below_drive (h : w.Below w') (invocation : Invocation) (task : Task) (slot : Node) :
    (job.drive w invocation task slot).Below (job.drive w' invocation task slot) := by
  refine (Below.refl _).bind ?_
  rintro ⟨_ | ⟨requests, next⟩, slot'⟩
  · exact .refl _
  · exact (below_fulfilAll h invocation requests slot').bind (h.task invocation next)

/-- One step more serves every request alike. -/
theorem below_walker (job : Job) : ∀ budget, (job.walker budget).Below (job.walker (budget + 1))
  | 0 => by
    have hlack {α : Type} {y : Expansion α} : Below (throw .outOfBudget) y :=
      fun run => .inl ⟨.outOfBudget, run, rfl, rfl⟩
    exact ⟨fun _ => hlack, fun _ => hlack, fun _ _ _ => hlack⟩
  | budget + 1 => by
    have ih := job.below_walker budget
    exact ⟨below_visit ih, below_expandItem ih, below_drive ih⟩

theorem below_expandFrom (job : Job) : ∀ budget index,
    (job.expandFrom budget index).Below (job.expandFrom (budget + 1) index)
  | 0, index => by
    intro run
    by_cases hlt : index < run.body.size
    · refine .inl ⟨.outOfBudget, run, rfl, ?_⟩
      change (if index < run.body.size then throw .outOfBudget else pure () : Expansion Unit) run = _
      rw [if_pos hlt]
      rfl
    · have hle := Nat.not_lt.mp hlt
      exact .inr (by rw [expandFrom_of_le hle, expandFrom_of_le hle])
  | budget + 1, index => by
    rw [expandFrom, expandFrom]
    refine (Below.refl _).bind fun run => ?_
    split
    · refine (Below.refl _).bind fun _ => ?_
      refine ((job.below_walker (budget + 1)).item index).bind fun next => ?_
      exact job.below_expandFrom budget next
    · exact .refl _

theorem below_settle (job : Job) (budget : Nat) : ∀ remaining count,
    (job.settle budget remaining count).Below (job.settle (budget + 1) remaining count)
  | 0, _ => .refl _
  | remaining + 1, count => by
    rw [settle, settle]
    refine ((Below.refl _).bind fun _ => job.below_expandFrom budget 0).bind fun _ => ?_
    refine (Below.refl _).bind fun _ => (Below.refl _).bind fun run => ?_
    split
    · exact .refl _
    · exact job.below_settle budget remaining (count + 1)

/-- What ends, and not for a lack, ends like that with any larger budget. -/
theorem settle_of_le {budget more remaining count : Nat} (hle : budget ≤ more) :
    (job.settle budget remaining count).Below (job.settle more remaining count) := by
  induction hle with
  | refl => exact .refl _
  | step _ ih => exact ih.trans (job.below_settle _ remaining count)

theorem settle_of_isConclusive {budget more : Nat} {module : Code.Module}
    (hparse : job.source.parse = .ok module)
    (hbindings : (job.start module.items).bindings.isEmpty = false)
    (h : (job.run budget).isConclusive = true) (hle : budget ≤ more) :
    job.settle more job.options.effectiveMaxPasses 0 (job.start module.items) =
      job.settle budget job.options.effectiveMaxPasses 0 (job.start module.items) := by
  refine (settle_of_le hle).eq (fun halt run' hres => ?_) rfl
  unfold Job.run expand at h
  simp only [hparse, hbindings, Bool.false_eq_true, if_false, hres] at h
  cases halt with
  | failure failure => rfl
  | outOfBudget => cases h
  | lostItem => cases h

/-- A file that has a result with some budget has the same one with every larger budget. -/
theorem run_of_le {budget more : Nat} (h : (job.run budget).isConclusive = true)
    (hle : budget ≤ more) : job.run more = job.run budget := by
  cases hparse : job.source.parse with
  | error failure =>
    unfold Job.run
    simp only [hparse]
  | ok module =>
    cases hbindings : (job.start module.items).bindings.isEmpty with
    | true =>
      unfold Job.run expand
      simp only [hparse, hbindings, if_true]
    | false =>
      have hsettle := settle_of_isConclusive hparse hbindings h hle
      unfold Job.run expand
      simp only [hparse, hbindings, Bool.false_eq_true, if_false, hsettle]

end Job

end CallExpander
