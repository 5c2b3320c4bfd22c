import CallExpander.Proofs.Expansion.Pending

/-!
# Batches of requests

A task can ask for several things at once. They are given to it one after the other, and each is
found by the index that the task gave, in the program as it is when its turn comes. Unlike pending
places, the indices in requests are not moved: a request finds the item that the task meant if what
was done for the requests in front of it left that item where it was. This is so if they changed the
program behind it only. An import that goes away when it is collected moves the items behind it up,
though, and a request for one of these finds another item, or is refused.
-/

namespace CallExpander

open Event (follow)

/-- Whether an event leaves the items up to an index in their places. -/
def Event.IsBehind (index : Nat) : Event → Prop
  | .edited before edit => (edit.place before).2 = 0 ∨ index < (edit.place before).1
  | .dropped place => index < place
  | .resolved _ | .walked _ | .applied _ | .left _ => True

theorem Event.IsBehind.move {event : Event} {index : Nat} (h : event.IsBehind index) :
    event.move index = some index := by
  cases event with
  | edited before edit =>
    have hshift : Body.shift (edit.place before).1 (edit.place before).2 index = index := by
      unfold Body.shift
      rcases h with hnone | hlt
      · simp [hnone]
      · rw [if_neg (Nat.not_le.mpr hlt)]
    exact congrArg some hshift
  | dropped place =>
    have hlt : index < place := h
    rw [Event.move, if_neg (Nat.ne_of_lt hlt), Body.unshift, if_neg (Nat.not_lt_of_lt hlt)]
  | resolved _ | walked _ | applied _ | left _ => rfl

/-- Events behind an item leave it where it is. -/
theorem Event.follow_of_isBehind {events : List Event} {index : Nat}
    (h : ∀ event ∈ events, event.IsBehind index) : follow events index = some index := by
  induction events with
  | nil => rfl
  | cons event rest ih =>
    obtain ⟨hevent, hrest⟩ := List.forall_mem_cons.mp h
    rw [← List.singleton_append, Event.follow_append, Event.follow_singleton, hevent.move]
    exact ih hrest

namespace Job

variable {job : Job} {budget level : Nat} {items : List Node} {run mid : Run}

/-- The requests at the head of a batch are served before the others are. -/
theorem Begins.behind {invocation : Invocation} {slot slot' : Node} {before rest : List Request}
    (h : job.Begins budget items level (.requests invocation slot (before ++ rest)) run)
    (hserved : job.fulfilAll (job.walker level) invocation slot before run = .ok slot' mid) :
    job.Begins budget items level (.requests invocation slot' rest) mid := by
  induction before generalizing slot run with
  | nil =>
    obtain ⟨rfl, rfl⟩ := Expansion.ok_pure hserved
    exact h
  | cons request before ih =>
    obtain ⟨slot'', between, hrequest, hserved⟩ := Expansion.ok_bind hserved
    exact ih (h.served hrequest) hserved

theorem checkItem_of_free (invocation : Invocation) {index : Nat} (hlt : index < run.body.size)
    (hfree : index ∉ run.body.pending) : job.checkItem invocation index run = .ok () run := by
  have hpending : ¬ run.body.isPending index = true := by
    simpa only [Body.isPending, List.contains_iff_mem] using hfree
  change (if index ≥ run.body.size then job.invalidRequest invocation _ else
    if run.body.isPending index then job.invalidRequest invocation _ else pure () :
      Expansion Unit) run = _
  rw [if_neg (Nat.not_le.mpr hlt), if_neg hpending]
  rfl

/-- What is done for a request for an item that is not refused. -/
def grant (job : Job) (w : Walker) (invocation : Invocation) : Request → Expansion Unit
  | .item index => do let _ ← w.item index
  | .import index => job.collectImport invocation index
  | .argument _ | .arguments => pure ()

theorem fulfil_of_free {w : Walker} (invocation : Invocation) (slot : Node) {request : Request}
    {index : Nat} (hplace : request.place? = some index) (hlt : index < run.body.size)
    (hfree : index ∉ run.body.pending) :
    job.fulfil w invocation slot request run =
      (job.grant w invocation request >>= fun _ => pure slot) run := by
  have hcheck := job.checkItem_of_free invocation hlt hfree
  cases request with
  | item _ =>
    cases hplace
    simp only [grant, bind_assoc, pure_bind]
    exact Expansion.bind_of_ok hcheck
  | «import» _ =>
    cases hplace
    exact Expansion.bind_of_ok hcheck
  | argument _ | arguments => cases hplace

/-- A request of a batch, for an item that is there and not out when the task asks for it, is served
after the requests in front of it. If what these led to left the item in its place, as it did if all
of it happened behind the item, then the request finds that item, and is not refused. -/
theorem request_finds_item {invocation : Invocation} {slot slot' : Node}
    {before rest : List Request} {request : Request} {index : Nat}
    (h : job.Begins budget items level
      (.requests invocation slot (before ++ request :: rest)) run)
    (hplace : request.place? = some index) (hlt : index < run.body.size)
    (hfree : index ∉ run.body.pending)
    (hserved : job.fulfilAll (job.walker level) invocation slot before run = .ok slot' mid) :
    job.Begins budget items level (.request invocation slot' request) mid ∧
    ∃ events, Run.Moved events run mid ∧
      ((∀ event ∈ events, event.IsBehind index) → follow events index = some index) ∧
      (follow events index = some index → index < mid.body.size ∧ index ∉ mid.body.pending ∧
        job.fulfil (job.walker level) invocation slot' request mid =
          (job.grant (job.walker level) invocation request >>= fun _ => pure slot') mid) := by
  refine ⟨(h.behind hserved).request, ?_⟩
  have hserves := (holding job).serves_walker level
  obtain ⟨-, ⟨events, hmoved⟩, -⟩ :=
    (Discipline.keeps_fulfilAll hserves invocation before slot).ok h.held trivial hserved
  refine ⟨events, hmoved, Event.follow_of_isBehind, fun hfollow => ?_⟩
  have hlt' := hmoved.inRange hlt hfollow
  have hfree' := hmoved.free hfree hfollow
  exact ⟨hlt', hfree', fulfil_of_free invocation slot' hplace hlt' hfree'⟩

/-- A module with a task that imports two other macros of the module and asks for both imports. -/
def collecting (keepImports : Bool) : Job where
  registry := ⟨[("m", ⟨.macros [⟨"ask", .task fun _ => .stage fun _ _ workspace =>
    .ok (some ([.import 0, .import 1], .stage fun _ _ workspace =>
      .ok none { workspace.toContext.remove with })) { workspace with
        edits := [.prependImports [.named "m" "a", .named "m" "b"]] }, "", compatVersion⟩,
    ⟨"a", .context fun _ => modify Context.remove, "", compatVersion⟩,
    ⟨"b", .context fun _ => modify Context.remove, "", compatVersion⟩], []⟩)]⟩
  source := Source.ofPath "a.js" ""
  options := { keepImports }

def collected : List Node :=
  [(ImportSpec.named "m" "ask").toItem,
    Node.build .exprStmt [Node.callOf (Node.identifier "ask") []]]

/-- If imports stay in the program, collecting the first one moves nothing. The request for the
second one finds it where the task left it, and is served: both macros are bound after that. -/
theorem second_import_is_found : ∃ invocation slot run mid served,
    (collecting true).Begins 4 collected 1
      (.requests invocation slot [.import 0, .import 1]) run ∧
    (collecting true).fulfilAll ((collecting true).walker 1) invocation slot [.import 0] run =
      .ok slot mid ∧
    (∃ events, Run.Moved events run mid ∧ (∀ event ∈ events, event.IsBehind 1) ∧
      follow events 1 = some 1) ∧
    (1 < mid.body.size ∧ 1 ∉ mid.body.pending) ∧
    (collecting true).fulfil ((collecting true).walker 1) invocation slot (.import 1) mid =
      ((collecting true).grant ((collecting true).walker 1) invocation (.import 1) >>=
        fun _ => pure slot) mid ∧
    (collecting true).fulfil ((collecting true).walker 1) invocation slot (.import 1) mid =
      .ok slot served ∧
    served.bindings.map Binding.localName = ["ask", "a", "b"] := by
  have hbegins : (collecting true).Begins 4 collected 1
      (.requests _ _ ([.import 0] ++ .import 1 :: [])) _ :=
    .asked (.start (.cooperative (.first (.parts (.detached (.takeUp (.goOn (.pass .start)
      (by decide +kernel) rfl) (by decide +kernel)) rfl) rfl)) rfl rfl rfl) rfl) rfl
  obtain ⟨-, events, hmoved, hstays, hfinds⟩ :=
    request_finds_item hbegins rfl (by decide +kernel) (by decide +kernel) rfl
  obtain rfl : events = [] := List.append_right_eq_self.mp hmoved.history.symm
  have hbehind : ∀ event ∈ ([] : List Event), event.IsBehind 1 := fun _ h => absurd h List.not_mem_nil
  have hplace := hstays hbehind
  obtain ⟨hlt, hfree, hserved⟩ := hfinds hplace
  exact ⟨_, _, _, _, _, hbegins, rfl, ⟨[], hmoved, hbehind, hplace⟩, ⟨hlt, hfree⟩, hserved, rfl,
    by decide +kernel⟩

/-- If they do not, collecting the first one moves the second one to its place, and what is then at
the index of the second one is the item that contains the call. -/
theorem second_import_is_refused : ∃ invocation slot run mid,
    (collecting false).Begins 3 collected 1
      (.requests invocation slot [.import 0, .import 1]) run ∧
    (∀ index ∈ [0, 1], index ∉ run.body.pending ∧
      (run.body.items[index]?.bind Node.importDecl?).isSome = true) ∧
    (collecting false).fulfilAll ((collecting false).walker 1) invocation slot [.import 0] run =
      .ok slot mid ∧
    mid.history = run.history ++ [.dropped 0] ∧ follow [.dropped 0] 1 = some 0 ∧
    mid.body.pending = [1] ∧
    (collecting false).fulfil ((collecting false).walker 1) invocation slot (.import 1) mid =
      .error (.failure (.invalidRequest "ask" "a.js" "item 1 contains the call that requested it"
        invocation.site)) mid := by
  have hitem : (collecting false).Begins 3 collected 2 (.item 0) _ :=
    .takeUp (.pass .start) (by decide +kernel)
  have hbegins : (collecting false).Begins 3 collected 1
      (.requests _ _ [.import 0, .import 1]) _ :=
    .asked (.start (.cooperative (.first (.parts (.detached hitem rfl) rfl)) rfl rfl rfl) rfl) rfl
  exact ⟨_, _, _, _, hbegins, by decide +kernel, rfl, rfl, rfl, rfl, rfl⟩

end Job

end CallExpander
