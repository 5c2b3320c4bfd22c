import CallExpander.Proofs.Expansion.Order

/-!
# The moments of an expansion

An expansion is made of pieces of work: the walk of a pass, items, trees, handlers and what they
change, stages of tasks and what they ask for. Which piece is begun in which state follows from the
program alone. A discipline that the states at the starts of passes obey is obeyed whenever a piece
of work is begun, however deep in the requests of tasks that is.
-/

namespace CallExpander

/-- A piece of work that an expansion begins: the walk over the items from an index on, the expansion of
an item, the visit of one tree or of several, the handler of a call, the next stage of a task and what
follows it, changes of the program that a handler has not made yet, what a task asked for and was not
given yet, and one thing of that. -/
inductive Work where
  | walk (index : Nat)
  | item (index : Nat)
  | tree (n : Node)
  | trees (parts : List Node)
  | handler (invocation : Invocation) (slot : Node)
  | stage (invocation : Invocation) (task : Task) (slot : Node)
  | edits (edits : List Edit)
  | requests (invocation : Invocation) (slot : Node) (requests : List Request)
  | request (invocation : Invocation) (slot : Node) (request : Request)

namespace Job

variable {job : Job} {budget : Nat} {items : List Node}

/-- The expansion of a program begins a piece of work in a state, with a budget for the requests
inside it. -/
inductive Begins (job : Job) (budget : Nat) (items : List Node) : Nat → Work → Run → Prop
  | pass {run : Run} (h : job.Reaches budget items run) :
      Begins job budget items budget (.walk 0) (beginPass run)
  | takeUp {level index : Nat} {run : Run} (h : Begins job budget items (level + 1) (.walk index) run)
      (hlt : index < run.body.size) :
      Begins job budget items level (.item index) (run.record (.walked index))
  | goOn {level index next : Nat} {run run' : Run}
      (h : Begins job budget items (level + 1) (.walk index) run) (hlt : index < run.body.size)
      (hitem : job.expandItem (job.walker level) index (run.record (.walked index)) = .ok next run') :
      Begins job budget items level (.walk next) run'
  | detached {level index : Nat} {run : Run} {item : Node} {body : Body}
      (h : Begins job budget items level (.item index) run)
      (hdetach : run.body.detach? index = some (item, body)) :
      Begins job budget items level (.tree item) { run with body }
  /-- What is no macro call is visited part by part. -/
  | parts {level : Nat} {run run' : Run} {form : Form} {origin : Origin} {parts : List Node}
      (h : Begins job budget items level (.tree (.mk form origin parts)) run)
      (hordinary : job.identify (.mk form origin parts) run = .ok none run') :
      Begins job budget items level (.trees parts) run'
  | first {level : Nat} {run : Run} {n : Node} {rest : List Node}
      (h : Begins job budget items level (.trees (n :: rest)) run) :
      Begins job budget items level (.tree n) run
  | rest {level : Nat} {run run' : Run} {n n' : Node} {rest : List Node}
      (h : Begins job budget items level (.trees (n :: rest)) run)
      (hvisit : job.visit (job.walker level) n run = .ok n' run') :
      Begins job budget items level (.trees rest) run'
  /-- Of a macro call, the arguments are visited once its application is counted. -/
  | arguments {level : Nat} {run mid run' : Run} {n : Node} {callee : Macro} {module : String}
      {invocation : Invocation} (h : Begins job budget items level (.tree n) run)
      (hcall : job.identify n run = .ok (some (callee, module)) mid)
      (hbegin : job.begin callee module n mid = .ok invocation run')
      (heager : callee.handler.isCooperative = false) :
      Begins job budget items level (.trees n.args) run'
  | eager {level : Nat} {run mid mid' run' : Run} {form : Form} {origin : Origin}
      {parts parts' : List Node} {callee : Macro} {module : String} {invocation : Invocation}
      (h : Begins job budget items level (.tree (.mk form origin parts)) run)
      (hcall : job.identify (.mk form origin parts) run = .ok (some (callee, module)) mid)
      (hbegin : job.begin callee module (.mk form origin parts) mid = .ok invocation mid')
      (heager : callee.handler.isCooperative = false)
      (hparts : job.visitCall (job.walker level) parts mid' = .ok parts' run') :
      Begins job budget items level (.handler invocation (.mk form origin parts')) run'
  | cooperative {level : Nat} {run mid run' : Run} {n : Node} {callee : Macro} {module : String}
      {invocation : Invocation} (h : Begins job budget items level (.tree n) run)
      (hcall : job.identify n run = .ok (some (callee, module)) mid)
      (hbegin : job.begin callee module n mid = .ok invocation run')
      (hcooperative : callee.handler.isCooperative = true) :
      Begins job budget items level (.handler invocation n) run'
  | helperEdits {level : Nat} {run : Run} {invocation : Invocation} {slot : Node}
      {helper : Call → Dialect → List Binding → Workspace → EStateM.Result String Changes Unit}
      (h : Begins job budget items level (.handler invocation slot) run)
      (hhandler : invocation.callee.handler = .helper helper) :
      Begins job budget items level (.edits (Changes.ofResult (helper (job.facts invocation slot)
        job.source.dialect run.bindings (run.workspace slot))).edits) run
  | start {level : Nat} {run : Run} {invocation : Invocation} {slot : Node}
      {start : Dialect → Task}
      (h : Begins job budget items (level + 1) (.handler invocation slot) run)
      (hhandler : invocation.callee.handler = .task start) :
      Begins job budget items level (.stage invocation (start job.source.dialect) slot) run
  | stageEdits {level : Nat} {run : Run} {invocation : Invocation} {task : Task} {slot : Node}
      (h : Begins job budget items level (.stage invocation task slot) run) :
      Begins job budget items level (.edits (Changes.ofResult (task.resume (job.facts invocation slot)
        run.bindings (run.workspace slot))).edits) run
  | edited {level : Nat} {run : Run} {edit : Edit} {edits : List Edit}
      (h : Begins job budget items level (.edits (edit :: edits)) run) :
      Begins job budget items level (.edits edits) (run.edit edit)
  /-- A stage that asks for something is given it before the next one runs. -/
  | asked {level : Nat} {run run' : Run} {invocation : Invocation} {task next : Task}
      {slot slot' : Node} {requests : List Request}
      (h : Begins job budget items level (.stage invocation task slot) run)
      (hstage : job.onWorkspace invocation slot task.resume run =
        .ok (some (requests, next), slot') run') :
      Begins job budget items level (.requests invocation slot' requests) run'
  | resumed {level : Nat} {run mid run' : Run} {invocation : Invocation} {task next : Task}
      {slot slot' slot'' : Node} {requests : List Request}
      (h : Begins job budget items (level + 1) (.stage invocation task slot) run)
      (hstage : job.onWorkspace invocation slot task.resume run =
        .ok (some (requests, next), slot') mid)
      (hserved : job.fulfilAll (job.walker (level + 1)) invocation slot' requests mid =
        .ok slot'' run') :
      Begins job budget items level (.stage invocation next slot'') run'
  | request {level : Nat} {run : Run} {invocation : Invocation} {slot : Node} {request : Request}
      {requests : List Request}
      (h : Begins job budget items level (.requests invocation slot (request :: requests)) run) :
      Begins job budget items level (.request invocation slot request) run
  | served {level : Nat} {run run' : Run} {invocation : Invocation} {slot slot' : Node}
      {request : Request} {requests : List Request}
      (h : Begins job budget items level (.requests invocation slot (request :: requests)) run)
      (hserved : job.fulfil (job.walker level) invocation slot request run = .ok slot' run') :
      Begins job budget items level (.requests invocation slot' requests) run'
  | argument {level index : Nat} {run : Run} {invocation : Invocation} {slot arg : Node}
      (h : Begins job budget items (level + 1) (.request invocation slot (.argument index)) run)
      (harg : slot.args[index]? = some arg) : Begins job budget items level (.tree arg) run
  | allArguments {level : Nat} {run : Run} {invocation : Invocation} {slot : Node}
      (h : Begins job budget items (level + 1) (.request invocation slot .arguments) run) :
      Begins job budget items level (.trees slot.args) run
  | requested {level index : Nat} {run run' : Run} {invocation : Invocation} {slot : Node}
      (h : Begins job budget items (level + 1) (.request invocation slot (.item index)) run)
      (hcheck : job.checkItem invocation index run = .ok () run') :
      Begins job budget items level (.item index) run'

end Job

namespace Discipline

variable {job : Job} (d : Discipline job) {budget : Nat} {items : List Node}

/-- What a discipline asks of the state in which a piece of work is begun. -/
def Ready : Work → Run → Prop
  | .walk _, run => run.Idle
  | .item index, run => index < run.body.size ∧ index ∉ run.body.pending
  | .tree n, run => d.tree run n
  | .trees parts, run => d.trees run parts
  | .handler invocation slot, run => d.tree run slot ∧ invocation.callee.handler.Makes d.allows
  | .stage _ task slot, run => d.tree run slot ∧ task.Makes d.allows
  | .edits edits, _ => ∀ edit ∈ edits, d.allows edit
  | .requests _ slot _, run | .request _ slot _, run => d.tree run slot

variable {d}

/-- A macro call that is about to be applied. -/
theorem begun {run mid run' : Run} {n : Node} {callee : Macro} {module : String}
    {invocation : Invocation} (hi : d.inv run) (ht : d.tree run n)
    (hcall : job.identify n run = .ok (some (callee, module)) mid)
    (hbegin : job.begin callee module n mid = .ok invocation run') :
    d.inv run' ∧ d.tree run' n ∧ invocation.callee.handler.Makes d.allows := by
  obtain ⟨hi', -, hidentified⟩ := (keeps_identify n).ok hi ht hcall
  obtain ⟨hi'', -, hmakes⟩ := (keeps_begin callee module n).ok hi' hidentified hbegin
  exact ⟨hi'', hmakes⟩

/-- What the states at the starts of passes obey is obeyed whenever a piece of work is begun. -/
theorem begins (start : ∀ {run}, job.Reaches budget items run → d.inv (Job.beginPass run))
    (walked : ∀ {run} (index : Nat), d.inv run →
      d.inv (run.record (.walked index)) ∧ d.rel run (run.record (.walked index)))
    {level : Nat} {work : Work} {run : Run} (h : job.Begins budget items level work run) :
    d.inv run ∧ d.Ready work run := by
  have hserves := d.serves_walker
  induction h with
  | pass h => exact ⟨start h, h.fresh.idle⟩
  | takeUp _ hlt ih =>
    obtain ⟨hi, hidle⟩ := ih
    exact ⟨(walked _ hi).1, hlt, Run.Idle.free hidle _⟩
  | @goOn level index next run run' _ hlt hitem ih =>
    obtain ⟨hi, hidle⟩ := ih
    have hidle' : (run.record (.walked index)).Idle := hidle
    obtain ⟨hi', -, -⟩ := (keeps_expandItem (hserves level) index).ok (walked index hi).1
      ⟨hlt, hidle'.free index⟩ hitem
    exact ⟨hi', Job.idle_expandItem hidle' hitem⟩
  | detached _ hdetach ih =>
    obtain ⟨hi, -, hfree⟩ := ih
    exact d.detach hi hfree hdetach
  | parts _ hordinary ih =>
    obtain ⟨rfl, -⟩ := Job.ok_identify hordinary
    exact ⟨ih.1, d.tree_parts ih.2⟩
  | first _ ih => exact ⟨ih.1, (trees_cons.mp ih.2).1⟩
  | rest _ hvisit ih =>
    obtain ⟨ht, htrees⟩ := trees_cons.mp ih.2
    obtain ⟨hi, hr, -⟩ := (keeps_visit (hserves _) _).ok ih.1 ht hvisit
    exact ⟨hi, trees_mono hr htrees⟩
  | arguments _ hcall hbegin _ ih =>
    obtain ⟨hi, ht, -⟩ := begun ih.1 ih.2 hcall hbegin
    exact ⟨hi, trees_args ht⟩
  | eager _ hcall hbegin _ hparts ih =>
    obtain ⟨hi, ht, hmakes⟩ := begun ih.1 ih.2 hcall hbegin
    obtain ⟨hi', hr, htrees⟩ := (keeps_visitCall (hserves _) _).ok hi (d.tree_parts ht) hparts
    exact ⟨hi', d.tree_mk (d.tree_mono hr ht) htrees, hmakes⟩
  | cooperative _ hcall hbegin _ ih => exact begun ih.1 ih.2 hcall hbegin
  | helperEdits _ hhandler ih =>
    obtain ⟨hi, -, hmakes⟩ := ih
    rw [hhandler] at hmakes
    exact ⟨hi, hmakes _ _ _ _⟩
  | start _ hhandler ih =>
    obtain ⟨hi, ht, hmakes⟩ := ih
    rw [hhandler] at hmakes
    exact ⟨hi, ht, hmakes _⟩
  | stageEdits _ ih =>
    obtain ⟨hi, -, ⟨hedits, -⟩⟩ := ih
    exact ⟨hi, hedits _ _ _⟩
  | edited _ ih =>
    obtain ⟨hedit, hrest⟩ := List.forall_mem_cons.mp ih.2
    exact ⟨(d.edit _ hedit ih.1).1, hrest⟩
  | asked _ hstage ih =>
    obtain ⟨hi, ht, ⟨hedits, -⟩⟩ := ih
    obtain ⟨hi', -, ht', -⟩ := (keeps_onWorkspace _ _ hedits).ok hi ht hstage
    exact ⟨hi', ht'⟩
  | resumed _ hstage hserved ih =>
    obtain ⟨hi, ht, ⟨hedits, hnext⟩⟩ := ih
    obtain ⟨hi', -, ht', call, bindings, workspace, changes, heq⟩ :=
      (keeps_onWorkspace _ _ hedits).ok hi ht hstage
    obtain ⟨hi'', -, ht''⟩ := (keeps_fulfilAll (hserves _) _ _ _).ok hi' ht' hserved
    exact ⟨hi'', ht'', hnext call bindings workspace _ _ changes heq⟩
  | request _ ih => exact ih
  | served _ hserved ih =>
    obtain ⟨hi, -, ht⟩ := (keeps_fulfil (hserves _) _ _ _).ok ih.1 ih.2 hserved
    exact ⟨hi, ht⟩
  | argument _ harg ih => exact ⟨ih.1, trees_args ih.2 _ (List.mem_of_getElem? harg)⟩
  | allArguments _ ih => exact ⟨ih.1, trees_args ih.2⟩
  | requested _ hcheck ih =>
    obtain ⟨rfl, hlt, hfree⟩ := Job.ok_checkItem hcheck
    exact ⟨ih.1, hlt, hfree⟩

end Discipline

end CallExpander
