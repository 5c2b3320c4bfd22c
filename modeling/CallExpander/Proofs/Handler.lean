import CallExpander.Macro.Handler

/-!
# The stages of a task and the edits of a handler

A task ends after finitely many stages, though how many depends on what it gets to see; what holds
of a task once it holds of all tasks that can go on for it holds of every task. Which edits a handler
makes, whatever it gets to see, is all that is known of a handler beyond its kind.
-/

namespace CallExpander

namespace Task

/-- Proofs about a task can use what they prove for the tasks that go on for it. -/
theorem induction {P : Task → Prop}
    (stage : ∀ task : Task, (∀ call bindings workspace requests next changes,
      task.resume call bindings workspace = .ok (some (requests, next)) changes → P next) → P task)
    (task : Task) : P task :=
  @Task.rec P
    (fun result => ∀ requests next changes, result = .ok (some (requests, next)) changes → P next)
    (fun answer => ∀ requests next, answer = some (requests, next) → P next)
    (fun pair => P pair.2)
    (fun resume ih => stage (.stage resume) ih)
    (fun answer changes ih requests next changes' h => by cases h; exact ih requests next rfl)
    (fun cause changes requests next changes' h => by cases h)
    (fun requests next h => by cases h)
    (fun pair ih requests next h => by cases h; exact ih)
    (fun requests next ih => ih)
    task

end Task

/-- What a handler leaves, whether it fails or not. -/
def Changes.ofResult {α : Type} : EStateM.Result String Changes α → Changes
  | .ok _ changes | .error _ changes => changes

/-- The stages of a task make certain edits only. -/
inductive Task.Makes (P : Edit → Prop) : Task → Prop
  | stage {task : Task}
      (edits : ∀ call bindings workspace,
        ∀ edit ∈ (Changes.ofResult (task.resume call bindings workspace)).edits, P edit)
      (next : ∀ call bindings workspace requests next changes,
        task.resume call bindings workspace = .ok (some (requests, next)) changes → next.Makes P) :
      Makes P task

def Handler.Makes (P : Edit → Prop) : Handler → Prop
  | .context _ | .toolkit _ => True
  | .helper run => ∀ call dialect bindings workspace,
    ∀ edit ∈ (Changes.ofResult (run call dialect bindings workspace)).edits, P edit
  | .task start => ∀ dialect, (start dialect).Makes P

theorem Task.makes_of_forall {P : Edit → Prop} (h : ∀ edit, P edit) (task : Task) : task.Makes P := by
  induction task using Task.induction with
  | stage task ih => exact .stage (fun _ _ _ edit _ => h edit) ih

theorem Handler.makes_of_forall {P : Edit → Prop} (h : ∀ edit, P edit) (handler : Handler) :
    handler.Makes P := by
  cases handler with
  | context run => trivial
  | toolkit run => trivial
  | helper run => exact fun _ _ _ _ edit _ => h edit
  | task start => exact fun dialect => Task.makes_of_forall h (start dialect)

end CallExpander
