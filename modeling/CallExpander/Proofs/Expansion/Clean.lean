import CallExpander.Proofs.Expansion.Invariant
import CallExpander.Proofs.Expansion.Rounds
import CallExpander.Proofs.Tree.Marker

/-!
# No marker of a removed call leaks

Markers stand in trees that are being expanded only. Arguments are cleaned up before a handler sees
them, items before they go back into the program. As long as handlers leave markers nowhere but in the
place of their own call, none is in the program when a handler runs, and none is printed.
-/

namespace CallExpander

open Node

/-- No item of a program holds a marker. Pending places are held by empty statements. -/
def Body.Unmarked (body : Body) : Prop := ∀ item ∈ body.items, item.hasMarker = false

/-- An edit brings no marker into the program. -/
def Edit.Unmarked (edit : Edit) : Prop := ∀ tree ∈ edit.trees, tree.hasMarker = false

/-- A call that was removed, or a tree without markers. -/
def Node.Tidy (n : Node) : Prop := n = removedMarker ∨ n.hasMarker = false

/-- The stages of a task leave markers in the place of the call only, where they see none elsewhere. -/
inductive Task.Tidy : Task → Prop
  | stage {task : Task}
      (leaves : ∀ {call bindings workspace answer changes}, workspace.slot.Tidy →
        workspace.body.Unmarked → task.resume call bindings workspace = .ok answer changes →
        changes.slot.Tidy ∧ ∀ edit ∈ changes.edits, edit.Unmarked)
      (next : ∀ {call bindings workspace requests next changes}, workspace.slot.Tidy →
        workspace.body.Unmarked →
        task.resume call bindings workspace = .ok (some (requests, next)) changes → next.Tidy) :
      Task.Tidy task

/-- A handler leaves markers in the place of its call only, where it sees none. -/
def Handler.Tidy : Handler → Prop
  | .context _ | .toolkit _ => True
  | .helper run => ∀ {call dialect bindings workspace changes}, workspace.slot.hasMarker = false →
    workspace.body.Unmarked → run call dialect bindings workspace = .ok () changes →
    ∀ edit ∈ changes.edits, edit.Unmarked
  | .task start => ∀ dialect, (start dialect).Tidy

/-! ## Trees -/

theorem Node.unmarked_args {n : Node} (h : n.hasMarker = false) :
    ∀ arg ∈ n.args, arg.hasMarker = false := by
  unfold Node.args
  split
  · next callee o args typeArgs =>
    have hgroup := (unmarked_mk.mp h).2 (.mk .group o args) (by simp)
    exact (unmarked_mk.mp hgroup).2
  · simp

theorem Node.unmarked_withArgs {n : Node} {args : List Node} (h : n.hasMarker = false)
    (hargs : ∀ arg ∈ args, arg.hasMarker = false) : (n.withArgs args).hasMarker = false := by
  unfold Node.withArgs
  split
  · next callee o _ typeArgs =>
    have hparts := (unmarked_mk.mp h).2
    simp only [List.forall_mem_cons] at hparts
    have hgroup : (Node.mk .group o args).hasMarker = false := unmarked_mk.mpr ⟨rfl, hargs⟩
    refine unmarked_mk.mpr ⟨rfl, ?_⟩
    simp only [List.forall_mem_cons]
    exact ⟨hparts.1, hgroup, hparts.2.2⟩
  · exact h

theorem Node.Tidy.args {n : Node} (h : n.Tidy) : ∀ arg ∈ n.args, arg.hasMarker = false := by
  obtain rfl | h := h
  · intro arg harg
    cases harg
  · exact unmarked_args h

theorem Node.Tidy.withArgs {n : Node} {args : List Node} (h : n.Tidy)
    (hargs : ∀ arg ∈ args, arg.hasMarker = false) : (n.withArgs args).Tidy := by
  obtain rfl | h := h
  · exact .inl rfl
  · exact .inr (unmarked_withArgs h hargs)

/-! ## Programs -/

namespace Body.Unmarked

variable {body body' : Body}

theorem set (h : body.Unmarked) (index : Nat) {item : Node} (hitem : item.hasMarker = false)
    (heq : body'.items = body.items.set index item) : body'.Unmarked := by
  intro other hother
  rw [heq] at hother
  rcases List.mem_or_eq_of_mem_set hother with hother | rfl
  · exact h other hother
  · exact hitem

theorem edit (h : body.Unmarked) {edit : Edit} (hedit : edit.Unmarked) :
    (body.edit edit).2.Unmarked := by
  intro item hitem
  rcases Body.mem_edit hitem with hitem | hitem
  · exact h item hitem
  · exact hedit item hitem

theorem remove {index : Nat} (h : body.Unmarked) (hremove : body.remove? index = some body') :
    body'.Unmarked := by
  obtain ⟨-, hitems, -, -⟩ := Body.remove?_places hremove
  intro item hitem
  rw [hitems] at hitem
  exact h item (List.mem_of_mem_eraseIdx hitem)

theorem edits {run : Run} {edits : List Edit} (h : run.body.Unmarked)
    (hedits : ∀ edit ∈ edits, edit.Unmarked) : (edits.foldl Run.edit run).body.Unmarked := by
  induction edits generalizing run with
  | nil => exact h
  | cons first rest ih =>
    obtain ⟨hfirst, hrest⟩ := List.forall_mem_cons.mp hedits
    exact ih (h.edit hfirst) hrest

end Body.Unmarked

/-- While tidy handlers run, no marker is in the program. -/
def cleaning (job : Job) (h : job.registry.All (·.handler.Tidy)) : Invariant job where
  holds run := run.body.Unmarked
  given n := n.hasMarker = false
  left := Node.Tidy
  task := Task.Tidy
  given_parts hn := (unmarked_mk.mp hn).2
  given_withArgs hn hargs := by
    refine unmarked_withArgs hn fun arg harg => ?_
    obtain ⟨m, rfl⟩ := hargs arg harg
    exact unmarked_sweep m
  left_given hn := .inr hn
  left_args hn := hn.args
  left_withArgs hn hargs := by
    refine hn.withArgs fun arg harg => ?_
    rcases hargs arg harg with harg | ⟨m, rfl⟩
    · exact hn.args arg harg
    · exact unmarked_sweep m
  started hfind hhandler := by
    have htidy := h.of_find? hfind
    rw [hhandler] at htidy
    exact htidy _
  walked _ hrun := hrun
  applying hrun _ _ _ := hrun
  withContext _ hrun := hrun
  helped hrun hn hfind hhandler hhelper := by
    have htidy := h.of_find? hfind
    rw [hhandler] at htidy
    exact hrun.edits (htidy hn hrun hhelper)
  resumed hrun hn ht hresume := by
    obtain ⟨leaves, next⟩ := ht
    obtain ⟨hslot, hedits⟩ := leaves hn hrun hresume
    refine ⟨hrun.edits hedits, hslot, ?_⟩
    rintro requests task rfl
    exact next hn hrun hresume
  retiring {_ _ index _ _} hrun _ hretire hnext := by
    obtain ⟨rest, hrest, rfl⟩ | ⟨body, -, hremove, rfl⟩ := Run.retiring?_cases hnext
    · obtain ⟨decl, rfl⟩ := remains_eq hretire hrest
      exact hrun.set index rfl rfl
    · exact hrun.remove hremove
  detach {_ index _ _} hrun hdetach := by
    obtain ⟨hget, hitems, -⟩ := Body.detach?_places hdetach
    exact ⟨hrun.set index rfl hitems, hrun _ (List.mem_of_getElem? hget)⟩
  reattach n hrun hreattach := by
    obtain ⟨-, hitems, -⟩ := Body.reattach?_places hreattach
    exact hrun.set _ (unmarked_sweep n) hitems
  discard {run _ _} hrun hdiscard := by
    obtain ⟨rest, -, hremove⟩ := Body.discard?_places hdiscard
    have hbelow : Body.Unmarked { run.body with pending := rest } := hrun
    exact hbelow.remove hremove

namespace Job

variable {job : Job} {budget level : Nat} {items : List Node} {run run' : Run}

theorem unmarked_collect (h : ∀ item ∈ items, item.hasMarker = false) (exports : Exports)
    (keepImports : Bool) : ∀ item ∈ resolve (collectBindings exports keepImports items).2,
      item.hasMarker = false := by
  refine unmarked_resolve (forall_collectBindings (fun item hitem _ => h item hitem) ?_)
  intro item retired rest _ hretire hrest
  obtain ⟨decl, rfl⟩ := remains_eq hretire hrest
  rfl

theorem unmarked_runPass (htidy : job.registry.All (·.handler.Tidy)) (h : run.body.Unmarked) {a : Unit}
    (hpass : job.runPass budget run = .ok a run') : run'.body.Unmarked := by
  have hkeeps := Invariant.keeps_expandFrom (cleaning job htidy) budget 0
  have hbegin : (beginPass run).body.Unmarked := h
  exact (hkeeps.ok hbegin hpass).1

theorem Reaches.unmarked (h : job.Reaches budget items run)
    (htidy : job.registry.All (·.handler.Tidy)) (hitems : ∀ item ∈ items, item.hasMarker = false) :
    run.body.Unmarked := by
  induction h with
  | start => exact unmarked_collect hitems _ _
  | pass _ hpass ih => exact unmarked_collect (unmarked_runPass htidy ih hpass) _ _

/-- In a file without markers, as long as handlers leave them nowhere but in the place of their own
call, no marker is in the program when a handler or a stage of a task runs, nor between passes; what
is expanded for a handler holds none when it runs; and none is in the program that is printed. -/
theorem no_marker_leaks {module : Code.Module} (htidy : job.registry.All (·.handler.Tidy))
    (hparse : job.source.parse = .ok module)
    (hitems : ∀ item ∈ module.items, item.hasMarker = false) (budget : Nat) :
    (∀ {level invocation slot run},
      job.Begins budget module.items level (.handler invocation slot) run →
      (∀ item ∈ run.body.items, item.hasMarker = false) ∧
      (invocation.callee.handler.isCooperative = false →
        ∀ arg ∈ slot.args, arg.hasMarker = false)) ∧
    (∀ {level invocation task slot run},
      job.Begins budget module.items level (.stage invocation task slot) run →
      ∀ item ∈ run.body.items, item.hasMarker = false) ∧
    (∀ {run}, job.Reaches budget module.items run →
      (∀ item ∈ run.body.items, item.hasMarker = false) ∧
      ∀ {a run'}, job.runPass budget run = .ok a run' →
        ∀ item ∈ run'.body.items, item.hasMarker = false) ∧
    ∀ output, (job.run budget).outcome = .ok (.transformed output) →
      ∃ items, output.code = Code.printModule { module with items } ∧
        ∀ item ∈ items, item.hasMarker = false := by
  have hready : ∀ {level work run}, job.Begins budget module.items level work run →
      (cleaning job htidy).Ready work run :=
    Invariant.begins fun hreach => hreach.unmarked htidy hitems
  refine ⟨fun h => ?_, fun h => (hready h).1, fun h => ?_, fun output houtput => ?_⟩
  · obtain ⟨hbody, hslot, -⟩ := hready h
    exact ⟨hbody, fun _ => unmarked_args hslot⟩
  · have hbody := h.unmarked htidy hitems
    exact ⟨hbody, fun hpass => unmarked_runPass htidy hbody hpass⟩
  · obtain ⟨module', run, hparse', hexpand, hcode, -⟩ := outcome_eq_transformed.mp houtput
    cases hparse.symm.trans hparse'
    have hbindings := bindings_of_expand hexpand
    rw [expand_of_bindings hbindings] at hexpand
    have step : ∀ {run a run'}, job.Reaches budget module.items run →
        job.runPass budget run = .ok a run' → job.Reaches budget module.items (job.refresh run') :=
      fun hreach hpass => hreach.pass hpass
    -- What is printed is what the last pass left, with its names resolved.
    obtain ⟨last, a, mid, hlast, hpass, -, rfl⟩ := ok_settle step .start (Option.some.inj hexpand)
    exact ⟨_, hcode, (step hlast hpass).unmarked htidy hitems⟩

/-- A file with removed calls in an argument of an ordinary call, in one of a macro that moves its
arguments to the top, and in those that a task asks for before it removes its own call. -/
def discarding : Job where
  registry := ⟨[("m", ⟨.macros
    [⟨"drop", .context fun _ => modify Context.remove, "", compatVersion⟩,
    ⟨"lift", .helper fun _ _ _ workspace => .ok () { workspace.toContext.remove with
      edits := [.prepend (workspace.slot.args.map fun arg => build .exprStmt [arg])] },
      "", compatVersion⟩,
    ⟨"ask", .task fun _ => .stage fun _ _ workspace =>
      .ok (some ([.arguments, .item 0], .stage fun _ _ workspace =>
        .ok none { workspace.toContext.remove with })) { workspace with }, "", compatVersion⟩], []⟩)]⟩
  source := Source.ofPath "a.js"
    "import \x7b drop, lift, ask \x7d from 'm';\nf(drop());\nask(lift(drop()), 1);\ndrop();\n"

theorem discarding_tidy : discarding.registry.All (·.handler.Tidy) := by
  intro entry hentry callee hcallee
  obtain rfl := List.mem_singleton.mp hentry
  change callee ∈ [_, _, _] at hcallee
  simp only [List.mem_cons, List.not_mem_nil, or_false] at hcallee
  obtain rfl | rfl | rfl := hcallee
  · trivial
  · intro call dialect bindings workspace changes hslot _ hrun edit hedit
    cases hrun
    obtain rfl := List.mem_singleton.mp hedit
    intro tree htree
    obtain ⟨arg, harg, rfl⟩ := List.mem_map.mp htree
    have hmarker := unmarked_args hslot arg harg
    exact unmarked_mk.mpr ⟨rfl, fun n hn => List.mem_singleton.mp hn ▸ hmarker⟩
  · intro dialect
    refine .stage (fun hslot _ hrun => ?_) fun _ _ hrun => ?_
    · cases hrun
      exact ⟨hslot, fun edit hedit => by cases hedit⟩
    · cases hrun
      refine .stage (fun _ _ hrun => ?_) fun _ _ hrun => ?_
      · cases hrun
        exact ⟨.inl rfl, fun edit hedit => by cases hedit⟩
      · cases hrun

theorem discarding_leaks_no_marker : ∃ module items,
    discarding.source.parse = .ok module ∧ discarding.registry.All (·.handler.Tidy) ∧
    (∀ item ∈ module.items, item.hasMarker = false) ∧
    (discarding.run 5).outcome = .ok (.transformed ⟨"void 0;\nf(void 0);\n", 1,
      [⟨1, "drop", "m", some ⟨2, 3⟩⟩, ⟨1, "ask", "m", some ⟨3, 1⟩⟩, ⟨1, "lift", "m", some ⟨3, 5⟩⟩,
        ⟨1, "drop", "m", some ⟨3, 10⟩⟩, ⟨1, "drop", "m", some ⟨4, 1⟩⟩]⟩) ∧
    "void 0;\nf(void 0);\n" = Code.printModule { module with items } ∧
    ∀ item ∈ items, item.hasMarker = false := by
  have hunmarked : (match discarding.source.parse with
      | .ok module => module.items.all fun item => !item.hasMarker
      | .error _ => false) = true := by
    decide +kernel
  have houtcome : (discarding.run 5).outcome = .ok (.transformed ⟨"void 0;\nf(void 0);\n", 1,
      [⟨1, "drop", "m", some ⟨2, 3⟩⟩, ⟨1, "ask", "m", some ⟨3, 1⟩⟩, ⟨1, "lift", "m", some ⟨3, 5⟩⟩,
        ⟨1, "drop", "m", some ⟨3, 10⟩⟩, ⟨1, "drop", "m", some ⟨4, 1⟩⟩]⟩) := by
    decide +kernel
  cases hparse : discarding.source.parse with
  | error failure =>
    rw [hparse] at hunmarked
    cases hunmarked
  | ok module =>
    rw [hparse] at hunmarked
    have hitems : ∀ item ∈ module.items, item.hasMarker = false := by
      simpa using hunmarked
    obtain ⟨-, -, -, hprinted⟩ := no_marker_leaks discarding_tidy hparse hitems 5
    obtain ⟨items, hcode, hclean⟩ := hprinted _ houtcome
    exact ⟨module, items, rfl, discarding_tidy, hitems, houtcome, hcode, hclean⟩

end Job

end CallExpander
