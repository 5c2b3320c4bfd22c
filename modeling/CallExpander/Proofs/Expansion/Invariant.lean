import CallExpander.Proofs.Expansion.Moments

/-!
# Invariants that count on what handlers see

Some things hold throughout an expansion only because handlers do their part, and a handler may need
to see that all is well to do so: it can copy what it sees. An invariant therefore says what holds of
the trees that are given to be expanded and of what stands in the place of a call, and it is kept by
every change that is made where this holds. Parts that halt are left out; nothing is begun after one.
-/

namespace CallExpander

/-- Something that holds between the changes of an expansion. -/
structure Invariant (job : Job) where
  /-- Holds of the states in which a part starts, or ends well. -/
  holds : Run → Prop
  /-- Holds of the trees that are given to be expanded. -/
  given : Node → Prop
  /-- Holds of what stages of tasks leave in the place of their call. -/
  left : Node → Prop
  /-- Holds of the tasks that run. -/
  task : Task → Prop
  given_parts : ∀ {form origin parts}, given (.mk form origin parts) → ∀ n ∈ parts, given n
  given_withArgs : ∀ {n args}, given n → (∀ arg ∈ args, ∃ m : Node, arg = m.sweep) →
    given (n.withArgs args)
  left_given : ∀ {n}, given n → left n
  left_args : ∀ {n}, left n → ∀ arg ∈ n.args, given arg
  left_withArgs : ∀ {n args}, left n → (∀ arg ∈ args, arg ∈ n.args ∨ ∃ m : Node, arg = m.sweep) →
    left (n.withArgs args)
  started : ∀ {module name callee start}, job.registry.find? module name = some callee →
    callee.handler = .task start → task (start job.source.dialect)
  walked : ∀ {run} (index : Nat), holds run → holds (run.record (.walked index))
  applying : ∀ {run n module name callee}, holds run → given n →
    resolveCall run.bindings n = some (.known module name) →
    job.registry.find? module name = some callee →
    holds (run.applying
      ⟨run.pass, callee.name, module, (job.source.site? n).map (·.location)⟩ n)
  withContext : ∀ {run} (context : Context), holds run → holds (run.withContext context)
  helped : ∀ {run n module name callee helper call changes}, holds run → given n →
    job.registry.find? module name = some callee → callee.handler = .helper helper →
    helper call job.source.dialect run.bindings (run.workspace n) = .ok () changes →
    holds (run.withChanges changes)
  resumed : ∀ {run n t call answer changes}, holds run → left n → task t →
    t.resume call run.bindings (run.workspace n) = .ok answer changes →
    holds (run.withChanges changes) ∧ left changes.slot ∧
      ∀ requests next, answer = some (requests, next) → task next
  retiring : ∀ {run run' index item retired}, holds run → run.body.items[index]? = some item →
    retireImport job.registry.exports job.options.keepImports item = some retired →
    run.retiring? index retired = some run' → holds run'
  detach : ∀ {run index item body}, holds run → run.body.detach? index = some (item, body) →
    holds { run with body } ∧ given item
  reattach : ∀ {run index body} (n : Node), holds run →
    run.body.reattach? n.sweep = some (index, body) → holds { run with body }
  discard : ∀ {run index body}, holds run → run.body.discard? = some (index, body) →
    holds (run.dropping index body)

namespace Invariant

variable {job : Job} (v : Invariant job) {α β : Type}

/-- Started where the invariant holds, a part that ends well leaves it so, and gives an answer that
meets a condition. -/
structure Keeps (x : Expansion α) (post : α → Prop) : Prop where
  ok : ∀ {run a run'}, v.holds run → x run = .ok a run' → v.holds run' ∧ post a

variable {v} {x : Expansion α} {post : α → Prop}

theorem Keeps.pure {a : α} (h : post a) : v.Keeps (Pure.pure a) post := by
  refine ⟨fun hrun hx => ?_⟩
  obtain ⟨rfl, rfl⟩ := Expansion.ok_pure hx
  exact ⟨hrun, h⟩

theorem Keeps.throw {halt : Halt} : v.Keeps (MonadExcept.throw halt : Expansion α) post :=
  ⟨fun _ h => by cases h⟩

theorem Keeps.bind {f : α → Expansion β} {after : β → Prop} (hx : v.Keeps x post)
    (hf : ∀ a, post a → v.Keeps (f a) after) : v.Keeps (x >>= f) after := by
  refine ⟨fun hrun h => ?_⟩
  obtain ⟨a, mid, h1, h2⟩ := Expansion.ok_bind h
  obtain ⟨hmid, ha⟩ := hx.ok hrun h1
  exact (hf a ha).ok hmid h2

/-- Trees that were cleaned up. -/
def Swept (args : List Node) : Prop := ∀ arg ∈ args, ∃ m : Node, arg = m.sweep

/-- Serving the requests of tasks keeps an invariant. -/
structure Serves (v : Invariant job) (w : Walker) : Prop where
  expression : ∀ {n}, v.given n → v.Keeps (w.expression n) fun _ => True
  item : ∀ index, v.Keeps (w.item index) fun _ => True
  task : ∀ {invocation t n}, v.task t → v.left n → v.Keeps (w.task invocation t n) fun _ => True

theorem keeps_onContext (invocation : Invocation) (n : Node)
    (handler : Call → EStateM String Context Unit) :
    v.Keeps (job.onContext invocation n handler) fun _ => True := by
  refine ⟨fun hrun h => ?_⟩
  unfold Job.onContext at h
  split at h
  · next context _ => cases h; exact ⟨v.withContext context hrun, trivial⟩
  · cases h

/-- What a handler with access to the program gives it gives where the invariant holds. -/
theorem ok_onWorkspace {invocation : Invocation} {n n' : Node} {run run' : Run} {a : α}
    {handler : Call → List Binding → Workspace → EStateM.Result String Changes α}
    (h : job.onWorkspace invocation n handler run = .ok (a, n') run') :
    ∃ changes, handler (job.facts invocation n) run.bindings (run.workspace n) = .ok a changes ∧
      n' = changes.slot ∧ run' = run.withChanges changes := by
  unfold Job.onWorkspace at h
  split at h
  · next b changes heq => cases h; exact ⟨changes, heq, rfl, rfl⟩
  · cases h

theorem keeps_apply {w : Walker} (hw : v.Serves w) {invocation : Invocation} {module name : String}
    (hfind : job.registry.find? module name = some invocation.callee) {n : Node} (hn : v.given n) :
    v.Keeps (job.apply w invocation n) fun _ => True := by
  unfold Job.apply
  split
  · exact keeps_onContext invocation n _
  · exact keeps_onContext invocation n _
  · next helper hhandler =>
    refine ⟨fun hrun h => ?_⟩
    obtain ⟨⟨_, n'⟩, mid, hworkspace, rest⟩ := Expansion.ok_bind h
    obtain ⟨-, rfl⟩ := Expansion.ok_pure rest
    obtain ⟨changes, hhelper, rfl, rfl⟩ := ok_onWorkspace hworkspace
    exact ⟨v.helped hrun hn hfind hhandler hhelper, trivial⟩
  · next start hhandler => exact hw.task (v.started hfind hhandler) (v.left_given hn)

/-- What visiting the arguments of a call leaves of its parts: they are as they were, or the arguments
are cleaned up. -/
def Visited (parts parts' : List Node) : Prop :=
  parts' = parts ∨ ∃ args, Swept args ∧
    ∀ origin, Node.mk .call origin parts' = (Node.mk .call origin parts).withArgs args

theorem given_visited {form : Form} {origin : Origin} {parts parts' : List Node} (hform : form = .call)
    (hn : v.given (.mk form origin parts)) (h : Visited parts parts') :
    v.given (.mk form origin parts') := by
  subst hform
  obtain rfl | ⟨args, hswept, hargs⟩ := h
  · exact hn
  · rw [hargs]
    exact v.given_withArgs hn hswept

mutual

/-- Expanding the macro calls of a tree keeps every invariant. -/
theorem keeps_visit {w : Walker} (hw : v.Serves w) :
    ∀ {n}, v.given n → v.Keeps (job.visit w n) fun _ => True
  | .mk form origin parts, hn => by
    refine ⟨fun hrun h => ?_⟩
    rw [Job.visit] at h
    obtain ⟨found, mid, hid, rest⟩ := Expansion.ok_bind h
    obtain ⟨rfl, ⟨rfl, -⟩ | ⟨callee, module, name, rfl, hres, hfind⟩⟩ := Job.ok_identify hid
    · have hparts := keeps_visitParts hw (v.given_parts hn)
      obtain ⟨parts', mid, hvisit, rest⟩ := Expansion.ok_bind rest
      obtain ⟨-, rfl⟩ := Expansion.ok_pure rest
      exact ⟨(hparts.ok hrun hvisit).1, trivial⟩
    · obtain ⟨invocation, mid, hbegin, rest⟩ := Expansion.ok_bind rest
      cases hbegin
      have hmid := v.applying hrun hn hres hfind
      split at rest
      · exact (keeps_apply hw hfind hn).ok hmid rest
      · have hparts := keeps_visitCall hw (v.given_parts hn)
        refine (hparts.bind fun parts' hvisited => keeps_apply hw hfind ?_).ok hmid rest
        exact given_visited (Node.form_of_resolveCall hres) hn hvisited

theorem keeps_visitParts {w : Walker} (hw : v.Serves w) :
    ∀ {parts}, (∀ n ∈ parts, v.given n) → v.Keeps (job.visitParts w parts) fun _ => True
  | [], _ => by
    rw [Job.visitParts]
    exact .pure trivial
  | n :: rest, h => by
    obtain ⟨hn, hrest⟩ := List.forall_mem_cons.mp h
    rw [Job.visitParts]
    refine (keeps_visit hw hn).bind fun _ _ => ?_
    exact (keeps_visitParts hw hrest).bind fun _ _ => .pure trivial

theorem keeps_visitCall {w : Walker} (hw : v.Serves w) :
    ∀ {parts}, (∀ n ∈ parts, v.given n) → v.Keeps (job.visitCall w parts) (Visited parts)
  | [callee, group, typeArgs], h => by
    rw [Job.visitCall]
    refine (keeps_visitGroup hw (h group (by simp))).bind fun group' hgroup => .pure ?_
    obtain rfl | ⟨o, args, args', rfl, rfl, hswept⟩ := hgroup
    · exact .inl rfl
    · exact .inr ⟨args', hswept, fun _ => rfl⟩
  | [], _ | [_], _ | [_, _], _ | _ :: _ :: _ :: _ :: _, _ => .pure (.inl rfl)

theorem keeps_visitGroup {w : Walker} (hw : v.Serves w) :
    ∀ {n}, v.given n → v.Keeps (job.visitGroup w n) fun n' =>
      n' = n ∨ ∃ o args args', n = .mk .group o args ∧ n' = .mk .group o args' ∧ Swept args'
  | .mk form origin args, h => by
    unfold Job.visitGroup
    split
    · next heq =>
      cases heq
      refine (keeps_visitArguments hw (v.given_parts h)).bind fun args' hargs => .pure ?_
      exact .inr ⟨origin, args, args', rfl, rfl, hargs⟩
    · exact .pure (.inl rfl)

theorem keeps_visitArguments {w : Walker} (hw : v.Serves w) :
    ∀ {args}, (∀ n ∈ args, v.given n) → v.Keeps (job.visitArguments w args) Swept
  | [], _ => by
    rw [Job.visitArguments]
    exact .pure fun _ h => by cases h
  | n :: rest, h => by
    obtain ⟨hn, hrest⟩ := List.forall_mem_cons.mp h
    rw [Job.visitArguments]
    refine (keeps_visit hw hn).bind fun n' _ => ?_
    refine (keeps_visitArguments hw hrest).bind fun rest' hswept => .pure ?_
    exact List.forall_mem_cons.mpr ⟨⟨n', rfl⟩, hswept⟩

end

/-- Expanding an item keeps every invariant. -/
theorem keeps_expandItem {w : Walker} (hw : v.Serves w) (index : Nat) :
    v.Keeps (job.expandItem w index) fun _ => True := by
  refine ⟨fun hrun h => ?_⟩
  obtain ⟨item, body, item', mid, hdetach, hvisit, hend⟩ := Job.ok_expandItem h
  obtain ⟨hout, hitem⟩ := v.detach hrun hdetach
  obtain ⟨hmid, -⟩ := (keeps_visit hw hitem).ok hout hvisit
  obtain ⟨-, body', hdiscard, rfl⟩ | ⟨-, place, body', hreattach, -, rfl⟩ := hend
  · exact ⟨v.discard hmid hdiscard, trivial⟩
  · exact ⟨v.reattach item' hmid hreattach, trivial⟩

theorem keeps_checkItem (invocation : Invocation) (index : Nat) :
    v.Keeps (job.checkItem invocation index) fun _ => True := by
  refine ⟨fun hrun h => ?_⟩
  obtain ⟨rfl, -⟩ := Job.ok_checkItem h
  exact ⟨hrun, trivial⟩

theorem keeps_collectImport (invocation : Invocation) (index : Nat) :
    v.Keeps (job.collectImport invocation index) fun _ => True := by
  refine ⟨fun hrun h => ?_⟩
  rcases Job.ok_collectImport h with rfl | ⟨item, retired, hitem, hretire, hnext⟩
  · exact ⟨hrun, trivial⟩
  · exact ⟨v.retiring hrun hitem hretire hnext, trivial⟩

theorem keeps_expandArgument {w : Walker} (hw : v.Serves w) {arg : Node} (h : v.given arg) :
    v.Keeps (Job.expandArgument w arg) fun arg' => ∃ m : Node, arg' = m.sweep :=
  (hw.expression h).bind fun m _ => .pure ⟨m, rfl⟩

theorem keeps_expandArguments {w : Walker} (hw : v.Serves w) :
    ∀ {args}, (∀ n ∈ args, v.given n) → v.Keeps (Job.expandArguments w args) Swept
  | [], _ => .pure fun _ h => by cases h
  | arg :: rest, h => by
    obtain ⟨harg, hrest⟩ := List.forall_mem_cons.mp h
    refine (keeps_expandArgument hw harg).bind fun arg' hswept => ?_
    refine (keeps_expandArguments hw hrest).bind fun rest' hrest => .pure ?_
    exact List.forall_mem_cons.mpr ⟨hswept, hrest⟩

theorem keeps_invalidRequest (invocation : Invocation) (reason : String) :
    v.Keeps (job.invalidRequest invocation reason : Expansion α) post := .throw

theorem keeps_fulfil {w : Walker} (hw : v.Serves w) (invocation : Invocation) {n : Node}
    (hn : v.left n) : ∀ request, v.Keeps (job.fulfil w invocation n request) v.left
  | .argument index => by
    rw [Job.fulfil]
    split
    · exact keeps_invalidRequest invocation _
    rcases hget : n.args[index]? with _ | arg
    · exact keeps_invalidRequest invocation _
    have harg := v.left_args hn arg (List.mem_of_getElem? hget)
    refine (keeps_expandArgument hw harg).bind fun arg' hswept => .pure ?_
    refine v.left_withArgs hn fun other hother => ?_
    rcases List.mem_or_eq_of_mem_set hother with hother | rfl
    · exact .inl hother
    · exact .inr hswept
  | .arguments => by
    rw [Job.fulfil]
    split
    · exact keeps_invalidRequest invocation _
    refine (keeps_expandArguments hw (v.left_args hn)).bind fun args' hswept => .pure ?_
    exact v.left_withArgs hn fun arg harg => .inr (hswept arg harg)
  | .item index => by
    refine (keeps_checkItem invocation index).bind fun _ _ => ?_
    exact (hw.item index).bind fun _ _ => .pure hn
  | .import index => by
    refine (keeps_checkItem invocation index).bind fun _ _ => ?_
    exact (keeps_collectImport invocation index).bind fun _ _ => .pure hn

theorem keeps_fulfilAll {w : Walker} (hw : v.Serves w) (invocation : Invocation) :
    ∀ (requests : List Request) {n : Node}, v.left n →
      v.Keeps (job.fulfilAll w invocation n requests) v.left
  | [], _, hn => .pure hn
  | request :: rest, _, hn =>
    (keeps_fulfil hw invocation hn request).bind fun _ hn' => keeps_fulfilAll hw invocation rest hn'

/-- A stage of a task keeps every invariant, also of what it leaves and of the task that goes on. -/
theorem keeps_stage (invocation : Invocation) {t : Task} {n : Node} (ht : v.task t) (hn : v.left n) :
    v.Keeps (job.onWorkspace invocation n t.resume) fun answer => v.left answer.2 ∧
      ∀ requests next, answer.1 = some (requests, next) → v.task next := by
  constructor
  rintro run ⟨answer, n'⟩ run' hrun h
  obtain ⟨changes, hresume, rfl, rfl⟩ := ok_onWorkspace h
  exact v.resumed hrun hn ht hresume

theorem keeps_drive {w : Walker} (hw : v.Serves w) (invocation : Invocation) {t : Task} {n : Node}
    (ht : v.task t) (hn : v.left n) : v.Keeps (job.drive w invocation t n) fun _ => True := by
  refine (keeps_stage invocation ht hn).bind ?_
  rintro ⟨_ | ⟨requests, next⟩, n'⟩ ⟨hn', hnext⟩
  · exact .pure trivial
  · refine (keeps_fulfilAll hw invocation requests hn').bind fun n'' hn'' => ?_
    exact hw.task (hnext requests next rfl) hn''

/-- With any budget, serving requests keeps every invariant. -/
theorem serves_walker (v : Invariant job) : ∀ budget, v.Serves (job.walker budget)
  | 0 => ⟨fun _ => .throw, fun _ => .throw, fun _ _ => .throw⟩
  | budget + 1 => by
    have ih := v.serves_walker budget
    exact ⟨keeps_visit ih, keeps_expandItem ih, keeps_drive ih _⟩

/-- A walk over the items keeps every invariant. -/
theorem keeps_expandFrom (v : Invariant job) (budget index : Nat) :
    v.Keeps (job.expandFrom budget index) fun _ => True := by
  refine ⟨fun hrun h => ?_⟩
  obtain ⟨last, hend, -⟩ := Job.ok_expandFrom (P := fun run _ => v.holds run)
    (fun {budget index _ _ _} hrun _ hitem =>
      ((keeps_expandItem (v.serves_walker budget) index).ok (v.walked index hrun) hitem).1) hrun h
  exact ⟨hend, trivial⟩

/-! ## The moments of an expansion -/

/-- What an invariant says when a piece of work is begun. Between the edits of one handler it says
nothing. -/
def Ready (v : Invariant job) : Work → Run → Prop
  | .walk _, run | .item _, run => v.holds run
  | .tree n, run => v.holds run ∧ v.given n
  | .trees parts, run => v.holds run ∧ ∀ n ∈ parts, v.given n
  | .handler invocation n, run => v.holds run ∧ v.given n ∧
    ∃ module name, job.registry.find? module name = some invocation.callee
  | .stage _ t n, run => v.holds run ∧ v.left n ∧ v.task t
  | .requests _ n _, run | .request _ n _, run => v.holds run ∧ v.left n
  | .edits _, _ => True

/-- A macro call that is about to be applied. -/
theorem begun {run mid run' : Run} {n : Node} {callee : Macro} {module : String}
    {invocation : Invocation} (h : v.Ready (.tree n) run)
    (hcall : job.identify n run = .ok (some (callee, module)) mid)
    (hbegin : job.begin callee module n mid = .ok invocation run') :
    v.holds run' ∧ v.given n ∧ n.form = .call ∧
      ∃ module name, job.registry.find? module name = some invocation.callee := by
  obtain ⟨hrun, hn⟩ := h
  obtain ⟨rfl, ⟨hnone, -⟩ | ⟨_, _, name, hsome, hres, hfind⟩⟩ := Job.ok_identify hcall
  · cases hnone
  · cases hsome
    cases hbegin
    exact ⟨v.applying hrun hn hres hfind, hn, Node.form_of_resolveCall hres, module, name, hfind⟩

/-- An invariant of the states in which passes start is one of all moments of the expansion. -/
theorem begins {budget : Nat} {items : List Node}
    (start : ∀ {run}, job.Reaches budget items run → v.holds (Job.beginPass run))
    {level : Nat} {work : Work} {run : Run} (h : job.Begins budget items level work run) :
    v.Ready work run := by
  have hserves := v.serves_walker
  induction h with
  | pass h => exact start h
  | takeUp _ _ ih => exact v.walked _ ih
  | goOn _ _ hitem ih => exact ((keeps_expandItem (hserves _) _).ok (v.walked _ ih) hitem).1
  | detached _ hdetach ih => exact v.detach ih hdetach
  | parts _ hordinary ih =>
    obtain ⟨rfl, -⟩ := Job.ok_identify hordinary
    exact ⟨ih.1, v.given_parts ih.2⟩
  | first _ ih => exact ⟨ih.1, (List.forall_mem_cons.mp ih.2).1⟩
  | rest _ hvisit ih =>
    obtain ⟨hn, hrest⟩ := List.forall_mem_cons.mp ih.2
    exact ⟨((keeps_visit (hserves _) hn).ok ih.1 hvisit).1, hrest⟩
  | arguments _ hcall hbegin _ ih =>
    obtain ⟨hrun, hn, -⟩ := begun ih hcall hbegin
    exact ⟨hrun, v.left_args (v.left_given hn)⟩
  | eager _ hcall hbegin _ hparts ih =>
    obtain ⟨hrun, hn, hform, hfind⟩ := begun ih hcall hbegin
    obtain ⟨hrun', hvisited⟩ := (keeps_visitCall (hserves _) (v.given_parts hn)).ok hrun hparts
    exact ⟨hrun', given_visited hform hn hvisited, hfind⟩
  | cooperative _ hcall hbegin _ ih =>
    obtain ⟨hrun, hn, -, hfind⟩ := begun ih hcall hbegin
    exact ⟨hrun, hn, hfind⟩
  | helperEdits _ _ _ | stageEdits _ _ | edited _ _ => trivial
  | start _ hhandler ih =>
    obtain ⟨hrun, hn, module, name, hfind⟩ := ih
    exact ⟨hrun, v.left_given hn, v.started hfind hhandler⟩
  | asked _ hstage ih =>
    obtain ⟨hrun, hn, ht⟩ := ih
    obtain ⟨hrun', hn', -⟩ := (keeps_stage _ ht hn).ok hrun hstage
    exact ⟨hrun', hn'⟩
  | resumed _ hstage hserved ih =>
    obtain ⟨hrun, hn, ht⟩ := ih
    obtain ⟨hrun', hn', hnext⟩ := (keeps_stage _ ht hn).ok hrun hstage
    obtain ⟨hrun'', hn''⟩ := (keeps_fulfilAll (hserves _) _ _ hn').ok hrun' hserved
    exact ⟨hrun'', hn'', hnext _ _ rfl⟩
  | request _ ih => exact ih
  | served _ hserved ih => exact (keeps_fulfil (hserves _) _ ih.2 _).ok ih.1 hserved
  | argument _ harg ih => exact ⟨ih.1, v.left_args ih.2 _ (List.mem_of_getElem? harg)⟩
  | allArguments _ ih => exact ⟨ih.1, v.left_args ih.2⟩
  | requested _ hcheck ih =>
    obtain ⟨rfl, -⟩ := Job.ok_checkItem hcheck
    exact ih.1

end Invariant

end CallExpander
