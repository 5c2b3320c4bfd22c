import CallExpander.Proofs.Expansion.Sequence
import CallExpander.Proofs.Handler

/-!
# Properties that an expansion keeps

Whatever is carried through an expansion is carried through the same parts of it: calls are counted,
handlers leave trees and edits, imports are retired, and items are taken out and put back. A
discipline says what is carried and that each of these changes keeps it; then every part of an
expansion does, for any handlers, any budget and any nesting of requests. A discipline can count on
handlers to make certain edits only, if all those of the registry do.
-/

namespace CallExpander

/-- Where any edit is allowed, every macro makes allowed ones. -/
theorem Job.makes_anything (job : Job) {module name : String} {callee : Macro}
    (_ : job.registry.find? module name = some callee) : callee.handler.Makes fun _ => True :=
  Handler.makes_of_forall (fun _ => trivial) callee.handler

/-- A property of expansions that every single change keeps. -/
structure Discipline (job : Job) where
  /-- Holds of the states in which a part starts, or ends well. -/
  inv : Run → Prop
  /-- Relates the state in which a part starts to the one in which it ends well. -/
  rel : Run → Run → Prop
  /-- Relates the state in which a part starts to the one in which it halts. -/
  fails : Halt → Run → Run → Prop
  /-- Holds of the trees that are worked on. -/
  tree : Run → Node → Prop
  /-- Holds of the edits that handlers make. -/
  allows : Edit → Prop
  handlers : ∀ {module name callee}, job.registry.find? module name = some callee →
    callee.handler.Makes allows
  rel_refl : ∀ run, rel run run
  rel_trans : ∀ {a b c}, rel a b → rel b c → rel a c
  fails_refl : ∀ {halt run}, halt ≠ .lostItem → inv run → fails halt run run
  fails_trans : ∀ {halt a b c}, rel a b → fails halt b c → fails halt a c
  tree_mono : ∀ {a b n}, rel a b → tree a n → tree b n
  tree_parts : ∀ {run form origin parts}, tree run (.mk form origin parts) →
    ∀ n ∈ parts, tree run n
  tree_mk : ∀ {run form origin parts parts'}, tree run (.mk form origin parts) →
    (∀ n ∈ parts', tree run n) → tree run (.mk form origin parts')
  tree_sweep : ∀ {run n}, tree run n → tree run n.sweep
  applying : ∀ {run call module name callee step}, inv run → tree run call →
    resolveCall run.bindings call = some (.known module name) →
    job.registry.find? module name = some callee →
    step = ⟨run.pass, callee.name, module, (job.source.site? call).map (·.location)⟩ →
    inv (run.applying step call) ∧ rel run (run.applying step call)
  withContext : ∀ {run} (context : Context), inv run →
    inv (run.withContext context) ∧ rel run (run.withContext context) ∧
      tree (run.withContext context) context.slot
  edit : ∀ {run} (edit : Edit), allows edit → inv run →
    inv (run.edit edit) ∧ rel run (run.edit edit)
  retiring : ∀ {run run' index item retired}, inv run → index ∉ run.body.pending →
    run.body.items[index]? = some item →
    retireImport job.registry.exports job.options.keepImports item = some retired →
    run.retiring? index retired = some run' → inv run' ∧ rel run run'
  detach : ∀ {run index item body}, inv run → index ∉ run.body.pending →
    run.body.detach? index = some (item, body) →
    inv { run with body } ∧ tree { run with body } item
  reattach : ∀ {run index item body mid item' index' body'}, inv run →
    index ∉ run.body.pending → run.body.detach? index = some (item, body) →
    rel { run with body } mid → inv mid → tree mid item' →
    (item.form = .call ∨ ∃ n : Node, n.form = item.form ∧ item' = n.sweep) →
    mid.body.reattach? item' = some (index', body') →
    inv { mid with body := body' } ∧ rel run { mid with body := body' }
  discard : ∀ {run index item body mid index' body'}, inv run →
    index ∉ run.body.pending → run.body.detach? index = some (item, body) →
    rel { run with body } mid → inv mid → item.importDecl? = none →
    mid.body.discard? = some (index', body') →
    inv (mid.dropping index' body') ∧ rel run (mid.dropping index' body')
  /-- An item goes back into its place when visiting it halts. -/
  restore : ∀ {halt run index item body mid index' body'}, inv run → index ∉ run.body.pending →
    run.body.detach? index = some (item, body) → fails halt { run with body } mid →
    mid.body.reattach? item = some (index', body') → fails halt run { mid with body := body' }
  lost : ∀ {halt run index item body mid}, inv run → index ∉ run.body.pending →
    run.body.detach? index = some (item, body) → fails halt { run with body } mid →
    ¬ mid.body.HasPlace → fails .lostItem run mid

namespace Discipline

variable {job : Job} (d : Discipline job) {α β : Type}

/-- A part of an expansion keeps a discipline: started in a good state that meets a condition, it
ends well in a good state with an answer that meets another, or halts as it may. -/
structure Keeps (pre : Run → Prop) (x : Expansion α) (post : Run → α → Prop) : Prop where
  ok : ∀ {run a run'}, d.inv run → pre run → x run = .ok a run' →
    d.inv run' ∧ d.rel run run' ∧ post run' a
  error : ∀ {run halt run'}, d.inv run → pre run → x run = .error halt run' →
    d.fails halt run run'

variable {d} {pre : Run → Prop} {x : Expansion α} {post : Run → α → Prop}

theorem Keeps.pure {a : α} (h : ∀ run, pre run → post run a) : d.Keeps pre (Pure.pure a) post where
  ok hi hp hx := by
    obtain ⟨rfl, rfl⟩ := Expansion.ok_pure hx
    exact ⟨hi, d.rel_refl _, h _ hp⟩
  error _ _ hx := (Expansion.error_pure hx).elim

theorem Keeps.throw {halt : Halt} (hhalt : halt ≠ .lostItem) :
    d.Keeps pre (throw halt : Expansion α) post where
  ok _ _ hx := by cases hx
  error hi _ hx := by cases hx; exact d.fails_refl hhalt hi

/-- A part that halts in the state it found, and does not for want of an item. -/
theorem fails_same {halt : Halt} {run run' : Run} (hi : d.inv run)
    (h : run' = run ∧ ∃ failure, halt = .failure failure) : d.fails halt run run' := by
  obtain ⟨rfl, failure, rfl⟩ := h
  exact d.fails_refl (fun h => by cases h) hi

theorem Keeps.bind {f : α → Expansion β} {after : Run → β → Prop} (hx : d.Keeps pre x post)
    (hf : ∀ a, d.Keeps (post · a) (f a) after) : d.Keeps pre (x >>= f) after where
  ok hi hp h := by
    obtain ⟨a, mid, h1, h2⟩ := Expansion.ok_bind h
    obtain ⟨hi1, hr1, hm⟩ := hx.ok hi hp h1
    obtain ⟨hi2, hr2, ha⟩ := (hf a).ok hi1 hm h2
    exact ⟨hi2, d.rel_trans hr1 hr2, ha⟩
  error hi hp h := by
    rcases Expansion.error_bind h with h | ⟨a, mid, h1, h2⟩
    · exact hx.error hi hp h
    · obtain ⟨hi1, hr1, hm⟩ := hx.ok hi hp h1
      exact d.fails_trans hr1 ((hf a).error hi1 hm h2)

theorem Keeps.mono {pre' : Run → Prop} {post' : Run → α → Prop} (h : d.Keeps pre x post)
    (hpre : ∀ run, pre' run → pre run) (hpost : ∀ run a, post run a → post' run a) :
    d.Keeps pre' x post' where
  ok hi hp hx := by
    obtain ⟨hi', hr, hq⟩ := h.ok hi (hpre _ hp) hx
    exact ⟨hi', hr, hpost _ _ hq⟩
  error hi hp hx := h.error hi (hpre _ hp) hx

/-- What does not depend on the state can be taken out of a condition. -/
theorem Keeps.fact {p : Prop} (h : p → d.Keeps pre x post) :
    d.Keeps (fun run => pre run ∧ p) x post where
  ok hi hp hx := (h hp.2).ok hi hp.1 hx
  error hi hp hx := (h hp.2).error hi hp.1 hx

/-- What holds of all later states can be carried past a part. -/
theorem Keeps.frame {q : Run → Prop} (hq : ∀ {a b}, d.rel a b → q a → q b)
    (h : d.Keeps pre x post) :
    d.Keeps (fun run => pre run ∧ q run) x (fun run a => post run a ∧ q run) where
  ok hi hp hx := by
    obtain ⟨hi', hr, hpost⟩ := h.ok hi hp.1 hx
    exact ⟨hi', hr, hpost, hq hr hp.2⟩
  error hi hp hx := h.error hi hp.1 hx

def trees (d : Discipline job) (run : Run) (parts : List Node) : Prop := ∀ n ∈ parts, d.tree run n

theorem trees_mono {a b : Run} {parts : List Node} (hr : d.rel a b) (h : d.trees a parts) :
    d.trees b parts :=
  fun n hn => d.tree_mono hr (h n hn)

theorem trees_cons {run : Run} {n : Node} {parts : List Node} :
    d.trees run (n :: parts) ↔ d.tree run n ∧ d.trees run parts := by
  simp only [trees, List.forall_mem_cons]

/-- Serving the requests of tasks keeps a discipline. -/
structure Serves (d : Discipline job) (w : Walker) : Prop where
  expression : ∀ n, d.Keeps (d.tree · n) (w.expression n) d.tree
  item : ∀ index, d.Keeps (fun run => index < run.body.size ∧ index ∉ run.body.pending)
    (w.item index) fun _ _ => True
  task : ∀ invocation task slot, task.Makes d.allows →
    d.Keeps (d.tree · slot) (w.task invocation task slot) d.tree

/-- What is known of a call once it is identified. -/
def Identified (job : Job) (n : Node) (run : Run) (found : Option (Macro × String)) : Prop :=
  ∀ callee module, found = some (callee, module) → ∃ name,
    resolveCall run.bindings n = some (.known module name) ∧
      job.registry.find? module name = some callee

theorem keeps_identify (n : Node) :
    d.Keeps (d.tree · n) (job.identify n)
      fun run found => d.tree run n ∧ Identified job n run found where
  ok hi hp h := by
    obtain ⟨rfl, ⟨rfl, hres⟩ | ⟨callee, module, name, rfl, hres, hfind⟩⟩ := Job.ok_identify h
    · exact ⟨hi, d.rel_refl _, hp, fun _ _ h => by cases h⟩
    · refine ⟨hi, d.rel_refl _, hp, fun callee' module' h => ?_⟩
      cases h
      exact ⟨name, hres, hfind⟩
  error hi _ h := by
    obtain ⟨hrun, _, _, hhalt, -⟩ := Job.error_identify h
    exact fails_same hi ⟨hrun, _, hhalt⟩

theorem keeps_begin (callee : Macro) (module : String) (n : Node) :
    d.Keeps (fun run => d.tree run n ∧ Identified job n run (some (callee, module)))
      (job.begin callee module n)
      fun run invocation => d.tree run n ∧ invocation.callee.handler.Makes d.allows where
  ok hi hp h := by
    cases h
    obtain ⟨name, hres, hfind⟩ := hp.2 callee module rfl
    obtain ⟨hi', hr⟩ := d.applying hi hp.1 hres hfind rfl
    exact ⟨hi', hr, d.tree_mono hr hp.1, d.handlers hfind⟩
  error _ _ h := by cases h

theorem keeps_onContext (invocation : Invocation) (slot : Node)
    (handler : Call → EStateM String Context Unit) :
    d.Keeps (d.tree · slot) (job.onContext invocation slot handler) d.tree where
  ok hi hp h := by
    unfold Job.onContext at h
    split at h
    · next context _ => cases h; exact d.withContext context hi
    · cases h
  error hi hp h := by
    unfold Job.onContext at h
    split at h
    · cases h
    · next context _ =>
      cases h
      obtain ⟨hi', hr, -⟩ := d.withContext context hi
      exact d.fails_trans hr (fails_same hi' ⟨rfl, _, rfl⟩)

/-- The edits of a handler are made one after the other, and each keeps the discipline. -/
theorem inv_edits {edits : List Edit} (hedits : ∀ edit ∈ edits, d.allows edit) {run : Run}
    (hi : d.inv run) :
    d.inv (edits.foldl Run.edit run) ∧ d.rel run (edits.foldl Run.edit run) := by
  induction edits generalizing run with
  | nil => exact ⟨hi, d.rel_refl run⟩
  | cons edit rest ih =>
    obtain ⟨hedit, hrest⟩ := List.forall_mem_cons.mp hedits
    obtain ⟨hi', hr⟩ := d.edit edit hedit hi
    obtain ⟨hi'', hr'⟩ := ih hrest hi'
    exact ⟨hi'', d.rel_trans hr hr'⟩

theorem withChanges {changes : Changes} (hedits : ∀ edit ∈ changes.edits, d.allows edit) {run : Run}
    (hi : d.inv run) :
    d.inv (run.withChanges changes) ∧ d.rel run (run.withChanges changes) ∧
      d.tree (run.withChanges changes) changes.slot := by
  obtain ⟨hi', hr⟩ := inv_edits hedits hi
  obtain ⟨hi'', hr', ht⟩ := d.withContext changes.toContext hi'
  exact ⟨hi'', d.rel_trans hr hr', ht⟩

theorem keeps_onWorkspace (invocation : Invocation) (slot : Node)
    {handler : Call → List Binding → Workspace → EStateM.Result String Changes α}
    (hmakes : ∀ call bindings workspace,
      ∀ edit ∈ (Changes.ofResult (handler call bindings workspace)).edits, d.allows edit) :
    d.Keeps (d.tree · slot) (job.onWorkspace invocation slot handler)
      fun run answer => d.tree run answer.2 ∧ ∃ call bindings workspace changes,
        handler call bindings workspace = .ok answer.1 changes where
  ok {run _ _} hi hp h := by
    unfold Job.onWorkspace at h
    have hedits := hmakes (job.facts invocation slot) run.bindings (run.workspace slot)
    split at h
    · next changes heq =>
      cases h
      rw [heq] at hedits
      obtain ⟨hi', hr, ht⟩ := withChanges hedits hi
      exact ⟨hi', hr, ht, _, _, _, changes, heq⟩
    · cases h
  error {run _ _} hi hp h := by
    unfold Job.onWorkspace at h
    have hedits := hmakes (job.facts invocation slot) run.bindings (run.workspace slot)
    split at h
    · cases h
    · next changes heq =>
      cases h
      rw [heq] at hedits
      obtain ⟨hi', hr, -⟩ := withChanges hedits hi
      exact d.fails_trans hr (fails_same hi' ⟨rfl, _, rfl⟩)

theorem keeps_apply {w : Walker} (hw : d.Serves w) {invocation : Invocation}
    (hmakes : invocation.callee.handler.Makes d.allows) (slot : Node) :
    d.Keeps (d.tree · slot) (job.apply w invocation slot) d.tree := by
  unfold Job.apply
  cases hhandler : invocation.callee.handler with
  | context run => exact keeps_onContext invocation slot _
  | toolkit run => exact keeps_onContext invocation slot _
  | helper run =>
    rw [hhandler] at hmakes
    have hrun := keeps_onWorkspace (d := d) invocation slot fun call => hmakes call job.source.dialect
    exact hrun.bind fun _ => .pure fun _ h => h.1
  | task start =>
    rw [hhandler] at hmakes
    exact hw.task invocation _ slot (hmakes job.source.dialect)

mutual

/-- Expanding the macro calls of a tree keeps every discipline. -/
theorem keeps_visit {w : Walker} (hw : d.Serves w) :
    ∀ n, d.Keeps (d.tree · n) (job.visit w n) d.tree
  | .mk form origin parts => by
    rw [Job.visit]
    refine (keeps_identify _).bind ?_
    rintro (_ | ⟨callee, module⟩)
    · have hparts := (keeps_visitParts hw parts).frame (q := (d.tree · (.mk form origin parts)))
        d.tree_mono
      refine (hparts.mono (fun run h => ⟨d.tree_parts h.1, h.1⟩) fun _ _ h => h).bind fun parts' => ?_
      exact .pure fun run h => d.tree_mk h.2 h.1
    · refine (keeps_begin callee module _).bind fun invocation => .fact fun hmakes => ?_
      split
      · exact keeps_apply hw hmakes _
      · have hparts := (keeps_visitCall hw parts).frame (q := (d.tree · (.mk form origin parts)))
          d.tree_mono
        refine (hparts.mono (fun run h => ⟨d.tree_parts h, h⟩) fun _ _ h => h).bind fun parts' => ?_
        exact (keeps_apply hw hmakes _).mono (fun run h => d.tree_mk h.2 h.1) fun _ _ h => h

theorem keeps_visitParts {w : Walker} (hw : d.Serves w) :
    ∀ parts, d.Keeps (d.trees · parts) (job.visitParts w parts) d.trees
  | [] => by
    rw [Job.visitParts]
    exact .pure fun _ _ => by simp [trees]
  | n :: rest => by
    rw [Job.visitParts]
    have hn := (keeps_visit hw n).frame (q := (d.trees · rest)) trees_mono
    refine (hn.mono (fun run h => trees_cons.mp h) fun _ _ h => h).bind fun n' => ?_
    have hrest := (keeps_visitParts hw rest).frame (q := (d.tree · n')) d.tree_mono
    refine (hrest.mono (fun run h => ⟨h.2, h.1⟩) fun _ _ h => h).bind fun rest' => ?_
    exact .pure fun run h => trees_cons.mpr ⟨h.2, h.1⟩

theorem keeps_visitCall {w : Walker} (hw : d.Serves w) :
    ∀ parts, d.Keeps (d.trees · parts) (job.visitCall w parts) d.trees
  | [callee, group, typeArgs] => by
    rw [Job.visitCall]
    have hgroup := (keeps_visitGroup hw group).frame (q := (d.trees · [callee, typeArgs])) trees_mono
    refine (hgroup.mono (fun run h => ?_) fun _ _ h => h).bind fun group' => ?_
    · simp only [trees_cons] at h ⊢
      exact ⟨h.2.1, h.1, h.2.2⟩
    · refine .pure fun run h => ?_
      simp only [trees_cons] at h ⊢
      exact ⟨h.2.1, h.1, h.2.2⟩
  | [] | [_] | [_, _] | _ :: _ :: _ :: _ :: _ => .pure fun _ h => h

theorem keeps_visitGroup {w : Walker} (hw : d.Serves w) :
    ∀ n, d.Keeps (d.tree · n) (job.visitGroup w n) d.tree
  | .mk form origin args => by
    unfold Job.visitGroup
    split
    · next heq =>
      cases heq
      have hargs := (keeps_visitArguments hw args).frame (q := (d.tree · (.mk .group origin args)))
        d.tree_mono
      refine (hargs.mono (fun run h => ⟨d.tree_parts h, h⟩) fun _ _ h => h).bind fun args' => ?_
      exact .pure fun run h => d.tree_mk h.2 h.1
    · exact .pure fun _ h => h

theorem keeps_visitArguments {w : Walker} (hw : d.Serves w) :
    ∀ args, d.Keeps (d.trees · args) (job.visitArguments w args) d.trees
  | [] => by
    rw [Job.visitArguments]
    exact .pure fun _ _ => by simp [trees]
  | n :: rest => by
    rw [Job.visitArguments]
    have hn := (keeps_visit hw n).frame (q := (d.trees · rest)) trees_mono
    refine (hn.mono (fun run h => trees_cons.mp h) fun _ _ h => h).bind fun n' => ?_
    have hrest := (keeps_visitArguments hw rest).frame (q := (d.tree · n')) d.tree_mono
    refine (hrest.mono (fun run h => ⟨h.2, h.1⟩) fun _ _ h => h).bind fun rest' => ?_
    exact .pure fun run h => trees_cons.mpr ⟨d.tree_sweep h.2, h.1⟩

end

/-- Expanding an item that is not pending keeps every discipline. -/
theorem keeps_expandItem {w : Walker} (hw : d.Serves w) (index : Nat) :
    d.Keeps (fun run => index < run.body.size ∧ index ∉ run.body.pending) (job.expandItem w index)
      fun _ _ => True where
  ok {run a run'} hi hp h := by
    replace hp := hp.2
    obtain ⟨item, body, item', mid, hdetach, hvisit, hend⟩ := Job.ok_expandItem h
    obtain ⟨hi1, ht1⟩ := d.detach hi hp hdetach
    obtain ⟨hi2, hr2, ht2⟩ := (keeps_visit hw item).ok hi1 ht1 hvisit
    obtain ⟨hremoved, body', hdiscard, rfl⟩ | ⟨-, place, body', hreattach, -, rfl⟩ := hend
    · have hother := Job.importDecl?_of_removed hvisit hremoved
      obtain ⟨hi3, hr3⟩ := d.discard hi hp hdetach hr2 hi2 hother hdiscard
      exact ⟨hi3, hr3, trivial⟩
    · have hform : item.form = .call ∨ ∃ n : Node, n.form = item.form ∧ item'.sweep = n.sweep :=
        (Job.form_of_visit hvisit).imp_right fun hsame => ⟨item', hsame, rfl⟩
      obtain ⟨hi3, hr3⟩ := d.reattach hi hp hdetach hr2 hi2 (d.tree_sweep ht2) hform hreattach
      exact ⟨hi3, hr3, trivial⟩
  error {run halt run'} hi hp h := by
    obtain ⟨hlt, hfree⟩ := hp
    rcases Job.error_expandItem h with ⟨hge, -, -⟩ | ⟨item, body, mid, hdetach, hend⟩
    · exact absurd hlt (Nat.not_lt.mpr hge)
    obtain ⟨hi1, ht1⟩ := d.detach hi hfree hdetach
    obtain ⟨hvisit, place, body', hreattach, rfl⟩ | ⟨rfl, rfl, hplace, hvisit⟩ := hend
    · have hf := (keeps_visit hw item).error hi1 ht1 hvisit
      exact d.restore hi hfree hdetach hf hreattach
    · obtain ⟨item', hvisit⟩ | ⟨halt', hvisit⟩ := hvisit
      · obtain ⟨hi2, hr2, -⟩ := (keeps_visit hw item).ok hi1 ht1 hvisit
        have hf : d.fails .outOfBudget { run with body } run' :=
          d.fails_trans hr2 (d.fails_refl (fun h => by cases h) hi2)
        exact d.lost hi hfree hdetach hf hplace
      · exact d.lost hi hfree hdetach ((keeps_visit hw item).error hi1 ht1 hvisit) hplace

theorem keeps_checkItem (pre : Run → Prop) (invocation : Invocation) (index : Nat) :
    d.Keeps pre (job.checkItem invocation index)
      fun run _ => pre run ∧ index < run.body.size ∧ index ∉ run.body.pending where
  ok hi hp h := by
    obtain ⟨rfl, hlt, hpending⟩ := Job.ok_checkItem h
    exact ⟨hi, d.rel_refl _, hp, hlt, hpending⟩
  error hi _ h := by
    obtain ⟨hrun, _, hhalt⟩ := Job.error_checkItem h
    exact fails_same hi ⟨hrun, _, hhalt⟩

theorem keeps_invalidRequest (invocation : Invocation) (reason : String) :
    d.Keeps pre (job.invalidRequest invocation reason : Expansion α) post :=
  .throw fun h => by cases h

theorem keeps_collectImport (invocation : Invocation) (index : Nat) :
    d.Keeps (fun run => index < run.body.size ∧ index ∉ run.body.pending)
      (job.collectImport invocation index) fun _ _ => True where
  ok hi hp h := by
    rcases Job.ok_collectImport h with rfl | ⟨item, retired, hitem, hretire, hnext⟩
    · exact ⟨hi, d.rel_refl _, trivial⟩
    · obtain ⟨hi', hr⟩ := d.retiring hi hp.2 hitem hretire hnext
      exact ⟨hi', hr, trivial⟩
  error hi hp h := by
    obtain ⟨hrun, _, hhalt⟩ := Job.error_collectImport hp.1 h
    exact fails_same hi ⟨hrun, _, hhalt⟩

theorem keeps_expandArgument {w : Walker} (hw : d.Serves w) (arg : Node) :
    d.Keeps (d.tree · arg) (Job.expandArgument w arg) d.tree :=
  (hw.expression arg).bind fun _ => .pure fun _ h => d.tree_sweep h

theorem keeps_expandArguments {w : Walker} (hw : d.Serves w) :
    ∀ args, d.Keeps (d.trees · args) (Job.expandArguments w args) d.trees
  | [] => .pure fun _ _ => by simp [trees]
  | arg :: rest => by
    rw [Job.expandArguments]
    have harg := (keeps_expandArgument hw arg).frame (q := (d.trees · rest)) trees_mono
    refine (harg.mono (fun run h => trees_cons.mp h) fun _ _ h => h).bind fun arg' => ?_
    have hrest := (keeps_expandArguments hw rest).frame (q := (d.tree · arg')) d.tree_mono
    refine (hrest.mono (fun run h => ⟨h.2, h.1⟩) fun _ _ h => h).bind fun rest' => ?_
    exact .pure fun run h => trees_cons.mpr ⟨h.2, h.1⟩

theorem trees_args {run : Run} {slot : Node} (h : d.tree run slot) : d.trees run slot.args := by
  unfold Node.args
  split
  · next callee o args typeArgs =>
    have hgroup := d.tree_parts h (.mk .group o args) (by simp)
    exact d.tree_parts hgroup
  · simp [trees]

theorem tree_withArgs {run : Run} {slot : Node} {args : List Node} (h : d.tree run slot)
    (hargs : d.trees run args) : d.tree run (slot.withArgs args) := by
  unfold Node.withArgs
  split
  · next callee o _ typeArgs =>
    have hparts := d.tree_parts h
    refine d.tree_mk h ?_
    simp only [List.forall_mem_cons] at hparts ⊢
    exact ⟨hparts.1, d.tree_mk hparts.2.1 hargs, hparts.2.2⟩
  · exact h

theorem keeps_fulfil {w : Walker} (hw : d.Serves w) (invocation : Invocation) (slot : Node) :
    ∀ request, d.Keeps (d.tree · slot) (job.fulfil w invocation slot request) d.tree
  | .argument index => by
    rw [Job.fulfil]
    split
    · exact keeps_invalidRequest invocation _
    rcases hget : slot.args[index]? with _ | arg
    · exact keeps_invalidRequest invocation _
    have hmem : arg ∈ slot.args := List.mem_of_getElem? hget
    have harg := (keeps_expandArgument hw arg).frame (q := (d.tree · slot)) d.tree_mono
    refine (harg.mono (fun run h => ⟨trees_args h arg hmem, h⟩) fun _ _ h => h).bind fun arg' => ?_
    refine .pure fun run h => tree_withArgs h.2 fun n hn => ?_
    rcases List.mem_or_eq_of_mem_set hn with hn | rfl
    · exact trees_args h.2 n hn
    · exact h.1
  | .arguments => by
    rw [Job.fulfil]
    split
    · exact keeps_invalidRequest invocation _
    have hargs := (keeps_expandArguments hw slot.args).frame (q := (d.tree · slot)) d.tree_mono
    refine (hargs.mono (fun run h => ⟨trees_args h, h⟩) fun _ _ h => h).bind fun args' => ?_
    exact .pure fun run h => tree_withArgs h.2 h.1
  | .item index => by
    have hcheck := keeps_checkItem (d := d) (d.tree · slot) invocation index
    refine hcheck.bind fun _ => ?_
    have hitem := (hw.item index).frame (q := (d.tree · slot)) d.tree_mono
    refine (hitem.mono (fun run h => ⟨h.2, h.1⟩) fun _ _ h => h).bind fun _ => ?_
    exact .pure fun run h => h.2
  | .import index => by
    have hcheck := keeps_checkItem (d := d) (d.tree · slot) invocation index
    refine hcheck.bind fun _ => ?_
    have himport := (keeps_collectImport (d := d) invocation index).frame (q := (d.tree · slot))
      d.tree_mono
    refine (himport.mono (fun run h => ⟨h.2, h.1⟩) fun _ _ h => h).bind fun _ => ?_
    exact .pure fun run h => h.2

theorem keeps_fulfilAll {w : Walker} (hw : d.Serves w) (invocation : Invocation) :
    ∀ (requests : List Request) (slot : Node),
      d.Keeps (d.tree · slot) (job.fulfilAll w invocation slot requests) d.tree
  | [], _ => .pure fun _ h => h
  | request :: rest, slot =>
    (keeps_fulfil hw invocation slot request).bind (keeps_fulfilAll hw invocation rest)

theorem keeps_drive {w : Walker} (hw : d.Serves w) (invocation : Invocation) (task : Task)
    (slot : Node) (hmakes : task.Makes d.allows) :
    d.Keeps (d.tree · slot) (job.drive w invocation task slot) d.tree := by
  obtain ⟨hedits, hnext⟩ := hmakes
  refine (keeps_onWorkspace invocation slot hedits).bind ?_
  rintro ⟨_ | ⟨requests, next⟩, slot'⟩
  · exact .pure fun _ h => h.1
  · refine .fact ?_
    rintro ⟨call, bindings, workspace, changes, heq⟩
    have hmakes := hnext call bindings workspace requests next changes heq
    refine (keeps_fulfilAll hw invocation requests slot').bind fun slot'' => ?_
    exact hw.task invocation next slot'' hmakes

/-- With any budget, serving requests keeps every discipline. -/
theorem serves_walker (d : Discipline job) : ∀ budget, d.Serves (job.walker budget)
  | 0 => by
    have hhalt : Halt.outOfBudget ≠ .lostItem := fun h => by cases h
    exact ⟨fun _ => .throw hhalt, fun _ => .throw hhalt, fun _ _ _ _ => .throw hhalt⟩
  | budget + 1 => by
    have ih := d.serves_walker budget
    exact ⟨keeps_visit ih, keeps_expandItem ih, keeps_drive ih⟩

end Discipline

end CallExpander
