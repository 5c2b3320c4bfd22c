import CallExpander.Proofs.Expansion.Order
import CallExpander.Proofs.Body.Imports
import Mathlib.Data.List.Induction

/-!
# What decides that a call is a macro call

A call is a macro call by an identifier that counts as unbound: its callee, or the object of a
member. Marks are only made when names are resolved, between two passes; so such an identifier is
one that the latest resolution found unbound, or it came in with a tree of a handler since then.
Declarations that come in with such a tree do not bind anything before the next resolution.
-/

namespace CallExpander

namespace Node

/-- The identifier that a node is, if it counts as unbound. -/
def unboundName? (n : Node) : Option Name :=
  match n.form with
  | .ident name false => some ⟨name, n.origin⟩
  | _ => none

mutual

/-- The identifiers of a tree that count as unbound. -/
def unbound : Node → List Name
  | .mk form origin parts => (mk form origin []).unboundName?.toList ++ unboundIn parts

def unboundIn : List Node → List Name
  | [] => []
  | n :: rest => unbound n ++ unboundIn rest

end

theorem mem_unboundIn {name : Name} {parts : List Node} :
    name ∈ unboundIn parts ↔ ∃ n ∈ parts, name ∈ n.unbound := by
  induction parts with
  | nil => simp [unboundIn]
  | cons n rest ih => simp [unboundIn, ih]

theorem mem_unbound {name : Name} {form : Form} {origin : Origin} {parts : List Node} :
    name ∈ (mk form origin parts).unbound ↔
      (mk form origin parts).unboundName? = some name ∨ ∃ n ∈ parts, name ∈ n.unbound := by
  rw [← mem_unboundIn, unbound, List.mem_append, Option.mem_toList]
  rfl

theorem unboundName?_mem {name : Name} : ∀ {n : Node}, n.unboundName? = some name → name ∈ n.unbound
  | .mk _ _ _, h => mem_unbound.mpr (.inl h)

theorem mem_unbound_of_part {name : Name} {part : Node} : ∀ {n : Node}, part ∈ n.parts →
    name ∈ part.unbound → name ∈ n.unbound
  | .mk _ _ _, hpart, h => mem_unbound.mpr (.inr ⟨part, hpart, h⟩)

mutual

/-- Cleaning up a tree brings no identifier about. -/
theorem unbound_sweep : ∀ n : Node, n.sweep.unbound ⊆ n.unbound
  | .mk form origin parts => by
    intro name h
    have hparts := unbound_sweepParts parts
    rcases sweep_cases form origin parts with
      ⟨_, heq, _⟩ | ⟨_, heq, _⟩ | ⟨_, _, _, heq, _⟩ | ⟨_, _, _, heq, _⟩ <;> rw [heq] at h
    · cases h
    · cases h
    · rcases mem_unbound.mp h with h | ⟨n, hn, h⟩
      · exact mem_unbound.mpr (.inl h)
      · obtain ⟨m, hm, rfl⟩ := mem_sweepStatements hn
        exact mem_unbound.mpr (.inr ⟨m, hm, hparts m hm h⟩)
    · rcases mem_unbound.mp h with h | ⟨n, hn, h⟩
      · exact mem_unbound.mpr (.inl h)
      · obtain ⟨m, hm, rfl⟩ := List.mem_map.mp hn
        exact mem_unbound.mpr (.inr ⟨m, hm, hparts m hm h⟩)

theorem unbound_sweepParts : ∀ parts : List Node, ∀ n ∈ parts, n.sweep.unbound ⊆ n.unbound
  | [] => by simp
  | n :: rest => List.forall_mem_cons.mpr ⟨unbound_sweep n, unbound_sweepParts rest⟩

end

/-- The identifier that decides what a call stands for: the callee, or the object of a member. -/
def decider? (call : Node) : Option Name :=
  call.callee?.bind fun callee =>
    match memberParts? callee with
    | some (object, _) => object.unboundName?
    | none => callee.unboundName?

theorem callee?_mem : ∀ {call callee : Node}, call.callee? = some callee → callee ∈ call.parts
  | .mk _ _ _, callee, h => by
    unfold callee? at h
    split at h
    · next heq => cases heq; cases h; exact List.mem_cons_self
    · cases h

theorem memberParts?_mem {object : Node} {property : Option String} : ∀ {n : Node},
    memberParts? n = some (object, property) → object ∈ n.parts
  | .mk _ _ _, h => by
    unfold memberParts? at h
    split at h
    · next heq => cases heq; cases h; exact List.mem_cons_self
    · next heq => cases heq; cases h; exact List.mem_cons_self
    · next heq => cases heq; cases h; exact List.mem_cons_self
    · cases h

theorem unboundName?_of_lookup {bindings : List Binding} {binding : Binding} {n : Node}
    (h : lookup bindings n = some binding) : ∃ name, n.unboundName? = some name := by
  unfold lookup at h
  split at h
  · next heq => exact ⟨_, by rw [unboundName?, heq]⟩
  · cases h

/-- A macro call is one by an unbound identifier of it. -/
theorem decider?_of_resolveCall {bindings : List Binding} {call : Node} {found : Resolution}
    (h : resolveCall bindings call = some found) :
    ∃ name, call.decider? = some name ∧ name ∈ call.unbound := by
  obtain ⟨callee, hcallee, hfound⟩ := Option.bind_eq_some_iff.mp h
  unfold resolveCallee at hfound
  split at hfound
  · next object property hparts =>
    have hdecider : call.decider? = object.unboundName? := by
      simp only [decider?, hcallee, Option.bind_some, hparts]
    split at hfound
    · next hlookup =>
      obtain ⟨name, hname⟩ := unboundName?_of_lookup hlookup
      refine ⟨name, hdecider.trans hname, ?_⟩
      have hobject := mem_unbound_of_part (memberParts?_mem hparts) (unboundName?_mem hname)
      exact mem_unbound_of_part (callee?_mem hcallee) hobject
    · cases hfound
  · next hparts =>
    have hdecider : call.decider? = callee.unboundName? := by
      simp only [decider?, hcallee, Option.bind_some, hparts]
    obtain ⟨binding, hlookup⟩ : ∃ binding, lookup bindings callee = some binding := by
      cases hl : lookup bindings callee with
      | some binding => exact ⟨binding, rfl⟩
      | none => rw [hl] at hfound; cases hfound
    obtain ⟨name, hname⟩ := unboundName?_of_lookup hlookup
    exact ⟨name, hdecider.trans hname,
      mem_unbound_of_part (callee?_mem hcallee) (unboundName?_mem hname)⟩

end Node

/-- The trees that an edit brings into the program. -/
def Edit.trees : Edit → List Node
  | .prepend items | .append items => items
  | .prependImports specs | .appendImports specs => specs.map ImportSpec.toItem
  | .overwrite _ item => [item]

/-- The trees that a handler brings in with an event. -/
def Event.trees : Event → List Node
  | .left slot => [slot]
  | .edited _ edit => edit.trees
  | _ => []

namespace Body

theorem mem_insertAll {body : Body} {index : Nat} {items : List Node} {item : Node}
    (h : item ∈ (body.insertAll index items).items) : item ∈ body.items ∨ item ∈ items := by
  rcases List.mem_append.mp h with h | h
  · rcases List.mem_append.mp h with h | h
    · exact .inl (List.mem_of_mem_take h)
    · exact .inr h
  · exact .inl (List.mem_of_mem_drop h)

theorem mem_ensureImports {body : Body} {index : Nat} {specs : List ImportSpec} {item : Node}
    (h : item ∈ (body.ensureImports index specs).2.items) :
    item ∈ body.items ∨ item ∈ specs.map ImportSpec.toItem := by
  rcases mem_insertAll h with h | h
  · exact .inl h
  · obtain ⟨spec, hspec, rfl⟩ := List.mem_map.mp h
    rcases mem_missingImports.mp hspec with hnil | ⟨hspec, -⟩
    · cases hnil
    · exact .inr (List.mem_map_of_mem hspec)

/-- Items come into the program by edits only. -/
theorem mem_edit {body : Body} {edit : Edit} {item : Node} (h : item ∈ (body.edit edit).2.items) :
    item ∈ body.items ∨ item ∈ edit.trees := by
  cases edit with
  | prepend items => exact mem_insertAll h
  | append items => exact mem_insertAll h
  | prependImports specs => exact mem_ensureImports h
  | appendImports specs => exact mem_ensureImports h
  | overwrite index new =>
    simp only [Body.edit] at h
    split at h
    · next body' hset =>
      unfold set? at hset
      split at hset
      · cases hset
      · split at hset
        · cases hset
          exact (List.mem_or_eq_of_mem_set h).imp_right List.mem_singleton.mpr
        · cases hset
    · exact .inl h

end Body

/-- Identifiers that count as unbound, after one more event. -/
def Event.offer (known : List Name) : Event → List Name
  | .resolved items => Node.unboundIn items
  | event => known ++ Node.unboundIn event.trees

/-- The identifiers that can count as unbound after some events: those that the latest resolution
found unbound, and those in trees of handlers since then. -/
def offered (events : List Event) : List Name := events.foldl Event.offer []

theorem offered_append (events : List Event) (event : Event) :
    offered (events ++ [event]) = event.offer (offered events) := by
  rw [offered, List.foldl_append]
  rfl

def Event.isResolution : Event → Bool
  | .resolved _ => true
  | _ => false

theorem Event.offer_of_not_resolution {event : Event} (h : event.isResolution = false)
    (known : List Name) : event.offer known = known ++ Node.unboundIn event.trees := by
  cases event <;> first | rfl | cases h

/-- What is offered, seen from the latest resolution. -/
theorem mem_offered {items : List Node} (rest : List Event) :
    ∃ past latest since, Event.resolved items :: rest = past ++ .resolved latest :: since ∧
      (∀ event ∈ since, event.isResolution = false) ∧
      ∀ name ∈ offered (.resolved items :: rest),
        name ∈ Node.unboundIn latest ∨ ∃ event ∈ since, name ∈ Node.unboundIn event.trees := by
  induction rest using List.reverseRecOn with
  | nil => exact ⟨[], items, [], rfl, by simp, fun name hname => .inl hname⟩
  | append_singleton rest event ih =>
    obtain ⟨past, latest, since, heq, hsince, hoffered⟩ := ih
    rw [← List.cons_append, offered_append]
    cases hevent : event.isResolution with
    | true =>
      obtain ⟨latest', rfl⟩ : ∃ latest', event = .resolved latest' := by
        cases event <;> first | exact ⟨_, rfl⟩ | cases hevent
      exact ⟨.resolved items :: rest, latest', [], rfl, by simp, fun name hname => .inl hname⟩
    | false =>
      refine ⟨past, latest, since ++ [event], by rw [heq]; simp, ?_, fun name hname => ?_⟩
      · intro e he
        rcases List.mem_append.mp he with he | he
        · exact hsince e he
        · rw [List.mem_singleton.mp he]
          exact hevent
      · rw [Event.offer_of_not_resolution hevent] at hname
        rcases List.mem_append.mp hname with hname | hname
        · rcases hoffered name hname with h | ⟨e, he, h⟩
          · exact .inl h
          · exact .inr ⟨e, List.mem_append_left _ he, h⟩
        · exact .inr ⟨event, by simp, hname⟩

/-- A history in which every application was decided by an identifier that was offered. -/
structure Sourced (history : List Event) : Prop where
  head : ∃ items rest, history = .resolved items :: rest
  resolved : ∀ items, .resolved items ∈ history → ∃ program, items = Node.resolve program
  applied : ∀ before call after, history = before ++ .applied call :: after →
    ∃ name, call.decider? = some name ∧ name ∈ offered before

theorem Sourced.snoc {history : List Event} {event : Event} (h : Sourced history)
    (hresolved : ∀ items, event = .resolved items → ∃ program, items = Node.resolve program)
    (happlied : ∀ call, event = .applied call →
      ∃ name, call.decider? = some name ∧ name ∈ offered history) :
    Sourced (history ++ [event]) where
  head := by
    obtain ⟨items, rest, rfl⟩ := h.head
    exact ⟨items, rest ++ [event], rfl⟩
  resolved items hmem := by
    rcases List.mem_append.mp hmem with hmem | hmem
    · exact h.resolved items hmem
    · exact hresolved items (List.mem_singleton.mp hmem).symm
  applied before call after heq := by
    rcases List.eq_nil_or_concat after with rfl | ⟨after, last, rfl⟩
    · obtain ⟨rfl, hlast⟩ := List.append_inj' heq rfl
      exact happlied call (List.cons.inj hlast).1
    · rw [List.concat_eq_append, ← List.cons_append, ← List.append_assoc] at heq
      obtain ⟨hhistory, -⟩ := List.append_inj' heq rfl
      exact h.applied before call after hhistory

/-- The history is sourced, and whatever counts as unbound in the program was offered. -/
structure Run.Sourced (run : Run) : Prop where
  history : CallExpander.Sourced run.history
  items : ∀ item ∈ run.body.items, item.unbound ⊆ offered run.history

/-- An event by which only trees of a handler come into the program. -/
theorem Run.Sourced.after {run run' : Run} (h : run.Sourced) (event : Event)
    (hevent : event.isResolution = false) (happlied : ∀ call, event ≠ .applied call)
    (hhistory : run'.history = run.history ++ [event])
    (hitems : ∀ item ∈ run'.body.items, item ∈ run.body.items ∨ item ∈ event.trees) :
    run'.Sourced ∧ offered run.history ⊆ offered run'.history := by
  have hmono : offered run'.history = offered run.history ++ Node.unboundIn event.trees := by
    rw [hhistory, offered_append, Event.offer_of_not_resolution hevent]
  refine ⟨⟨?_, fun item hitem => ?_⟩, ?_⟩
  · rw [hhistory]
    refine h.history.snoc (fun items heq => ?_) fun call heq => absurd heq (happlied call)
    rw [heq] at hevent
    cases hevent
  · rw [hmono]
    intro name hname
    rcases hitems item hitem with hitem | hitem
    · exact List.mem_append_left _ (h.items item hitem hname)
    · exact List.mem_append_right _ (Node.mem_unboundIn.mpr ⟨item, hitem, hname⟩)
  · rw [hmono]
    exact List.subset_append_left _ _

/-- A change by which only items go away or are made of what was offered. -/
theorem Run.Sourced.congr {run run' : Run} (h : run.Sourced) (hhistory : run'.history = run.history)
    (hitems : ∀ item ∈ run'.body.items,
      item ∈ run.body.items ∨ item.unbound ⊆ offered run.history) : run'.Sourced := by
  refine ⟨hhistory ▸ h.history, fun item hitem => ?_⟩
  rw [hhistory]
  rcases hitems item hitem with hitem | hsub
  · exact h.items item hitem
  · exact hsub

/-- What remains of a retired import holds no identifier. -/
theorem unbound_remains {exports : Exports} {keepImports : Bool} {item rest : Node}
    {retired : Retired} (h : retireImport exports keepImports item = some retired)
    (hrest : retired.remains = some rest) : rest.unbound = [] := by
  obtain ⟨decl, rfl⟩ := remains_eq h hrest
  rfl

/-- While an item is expanded, whatever counts as unbound was offered. -/
def sourcing (job : Job) : Discipline job where
  inv run := run.Sourced
  rel a b := offered a.history ⊆ offered b.history
  fails _ _ b := Sourced b.history
  tree run n := n.unbound ⊆ offered run.history
  allows _ := True
  handlers := @Job.makes_anything job
  rel_refl _ := List.Subset.refl _
  rel_trans hab hbc := List.Subset.trans hab hbc
  fails_refl _ hi := hi.history
  fails_trans _ h := h
  tree_mono hr h := List.Subset.trans h hr
  tree_parts h n hn := fun _ hname => h (Node.mem_unbound.mpr (.inr ⟨n, hn, hname⟩))
  tree_mk h hparts := by
    intro name hname
    rcases Node.mem_unbound.mp hname with hname | ⟨n, hn, hname⟩
    · exact h (Node.mem_unbound.mpr (.inl hname))
    · exact hparts n hn hname
  tree_sweep h := List.Subset.trans (Node.unbound_sweep _) h
  applying {run call _ _ _ _} hi ht hres _ _ := by
    obtain ⟨name, hname, hmem⟩ := Node.decider?_of_resolveCall hres
    have hoffered : offered (run.history ++ [.applied call]) = offered run.history := by
      rw [offered_append, Event.offer_of_not_resolution rfl]
      exact List.append_nil _
    -- The decider stands in the tree of the call, and what counts as unbound there was offered.
    refine ⟨⟨?_, ?_⟩, ?_⟩
    · refine hi.history.snoc (fun items h => by cases h) fun call' h => ?_
      cases h
      exact ⟨name, hname, ht hmem⟩
    · change ∀ item ∈ run.body.items, item.unbound ⊆ offered (run.history ++ [.applied call])
      rw [hoffered]
      exact hi.items
    · change offered run.history ⊆ offered (run.history ++ [.applied call])
      rw [hoffered]
      exact List.Subset.refl _
  withContext {run} context hi := by
    have hleft : (run.withContext context).Sourced ∧
        offered run.history ⊆ offered (run.withContext context).history :=
      hi.after (.left context.slot) rfl (fun _ h => by cases h) rfl fun item hitem => .inl hitem
    refine ⟨hleft.1, hleft.2, ?_⟩
    change _ ⊆ offered (run.history ++ [.left context.slot])
    rw [offered_append, Event.offer_of_not_resolution rfl]
    intro name hname
    exact List.mem_append_right _ (Node.mem_unboundIn.mpr ⟨_, List.mem_singleton_self _, hname⟩)
  edit {run} edit _ hi :=
    hi.after (.edited run.body edit) rfl (fun _ h => by cases h) rfl
      fun item hitem => Body.mem_edit hitem
  retiring {run _ index _ _} hi _ _ hretire h := by
    obtain ⟨rest, hrest, rfl⟩ | ⟨body, -, hremove, rfl⟩ := Run.retiring?_cases h
    · refine ⟨hi.congr rfl fun item hitem => ?_, List.Subset.refl _⟩
      rcases List.mem_or_eq_of_mem_set hitem with hitem | rfl
      · exact .inl hitem
      · rw [unbound_remains hretire hrest]
        exact .inr (List.nil_subset _)
    · obtain ⟨-, hitems, -, -⟩ := Body.remove?_places hremove
      refine hi.after (.dropped index) rfl (fun _ h => by cases h) rfl fun item hitem => ?_
      change item ∈ body.items at hitem
      rw [hitems] at hitem
      exact .inl (List.mem_of_mem_eraseIdx hitem)
  detach {run _ item _} hi _ hdetach := by
    obtain ⟨hget, hitems, -⟩ := Body.detach?_places hdetach
    refine ⟨hi.congr rfl fun other hother => ?_, hi.items item (List.mem_of_getElem? hget)⟩
    rw [hitems] at hother
    rcases List.mem_or_eq_of_mem_set hother with hother | rfl
    · exact .inl hother
    · exact .inr (List.nil_subset _)
  reattach _ _ _ hr hmid ht _ hreattach := by
    obtain ⟨-, hitems, -⟩ := Body.reattach?_places hreattach
    refine ⟨hmid.congr rfl fun other hother => ?_, hr⟩
    rw [hitems] at hother
    rcases List.mem_or_eq_of_mem_set hother with hother | rfl
    · exact .inl hother
    · exact .inr ht
  discard {_ _ _ _ mid index' body'} _ _ _ hr hmid _ hdiscard := by
    obtain ⟨rest, -, hremove⟩ := Body.discard?_places hdiscard
    obtain ⟨-, hitems, -, -⟩ := Body.remove?_places hremove
    have hdrop : (mid.dropping index' body').Sourced ∧
        offered mid.history ⊆ offered (mid.dropping index' body').history := by
      refine hmid.after (.dropped index') rfl (fun _ h => by cases h) rfl fun item hitem => ?_
      change item ∈ body'.items at hitem
      rw [hitems] at hitem
      exact .inl (List.mem_of_mem_eraseIdx hitem)
    exact ⟨hdrop.1, List.Subset.trans hr hdrop.2⟩
  restore _ _ _ hf _ := hf
  lost _ _ _ hf _ := hf

namespace Job

variable {job : Job} {run run' : Run}

theorem sourced_start (job : Job) (items : List Node) : (job.start items).Sourced where
  history := by
    refine ⟨⟨_, [], rfl⟩, fun resolved hmem => ?_, fun before call after heq => ?_⟩
    · cases List.mem_singleton.mp hmem
      exact ⟨_, rfl⟩
    · cases before with
      | nil => cases heq
      | cons first rest => cases rest <;> cases heq
  items item hitem := by
    intro name hname
    exact Node.mem_unboundIn.mpr ⟨item, hitem, hname⟩

theorem sourced_refresh (h : Sourced run.history) : (job.refresh run).Sourced where
  history := h.snoc (fun items heq => by cases heq; exact ⟨_, rfl⟩) fun call heq => by cases heq
  items item hitem := by
    change item.unbound ⊆ offered (run.history ++ [.resolved (job.refresh run).body.items])
    rw [offered_append]
    intro name hname
    exact Node.mem_unboundIn.mpr ⟨item, hitem, hname⟩

theorem sourced_expandFrom (job : Job) (budget index : Nat) :
    (sourcing job).Keeps Run.Idle (job.expandFrom budget index) fun run _ => run.Idle :=
  Discipline.keeps_expandFrom (d := sourcing job)
    (fun index hi => hi.after (.walked index) rfl (fun _ h => by cases h) rfl
      fun _ hitem => .inl hitem) budget index

/-- An expansion leaves a state, whether it ends well or halts. -/
def Leaves (job : Job) (budget : Nat) (items : List Node) (run : Run) : Prop :=
  (∃ passes, job.expand budget items = some (.ok passes run)) ∨
    ∃ halt, job.expand budget items = some (.error halt run)

theorem Leaves.sourced {budget : Nat} {items : List Node} (h : job.Leaves budget items run) :
    Sourced run.history := by
  have step : ∀ {run : Run} {a : Unit} {run' : Run}, run.Sourced ∧ run.Idle →
      job.runPass budget run = .ok a run' → (job.refresh run').Sourced ∧ (job.refresh run').Idle := by
    rintro run a run' ⟨hsourced, hidle⟩ hpass
    have hbegin : (beginPass run).Sourced := ⟨hsourced.history, hsourced.items⟩
    obtain ⟨hsourced', -, hidle'⟩ := (job.sourced_expandFrom budget 0).ok hbegin hidle hpass
    exact ⟨sourced_refresh hsourced'.history, hidle'⟩
  have hstart : (job.start items).Sourced ∧ (job.start items).Idle := ⟨job.sourced_start items, rfl⟩
  rcases h with ⟨passes, h⟩ | ⟨halt, h⟩
  · unfold expand at h
    simp only at h
    split at h
    · cases h
    obtain ⟨last, a, mid, ⟨hlast, hidle⟩, hpass, -, rfl⟩ := ok_settle step hstart (Option.some.inj h)
    have hbegin : (beginPass last).Sourced := ⟨hlast.history, hlast.items⟩
    obtain ⟨hmid, -, -⟩ := (job.sourced_expandFrom budget 0).ok hbegin hidle hpass
    exact (sourced_refresh hmid.history).history
  · unfold expand at h
    simp only at h
    split at h
    · cases h
    refine error_settle (E := fun _ run => Sourced run.history) step ?_ (fun _ hQ => hQ.1.history)
      hstart (Option.some.inj h)
    rintro run halt run' ⟨hsourced, hidle⟩ hpass
    have hbegin : (beginPass run).Sourced := ⟨hsourced.history, hsourced.items⟩
    exact (job.sourced_expandFrom budget 0).error hbegin hidle hpass

/-- A macro is applied by an identifier that the latest resolution found unbound, or that came in
with a tree of a handler since then. -/
theorem applied_by_unbound {budget : Nat} {items : List Node} (h : job.Leaves budget items run)
    {before after : List Event} {call : Node}
    (happlied : run.history = before ++ .applied call :: after) :
    ∃ past program since name, before = past ++ .resolved (Node.resolve program) :: since ∧
      (∀ event ∈ since, event.isResolution = false) ∧
      call.decider? = some name ∧
      (name ∈ Node.unboundIn (Node.resolve program) ∨
        ∃ event ∈ since, name ∈ Node.unboundIn event.trees) := by
  have hsourced := h.sourced
  obtain ⟨name, hname, hoffered⟩ := hsourced.applied before call after happlied
  obtain ⟨items', rest, hhead⟩ := hsourced.head
  cases before with
  | nil =>
    rw [happlied] at hhead
    cases hhead
  | cons first before =>
    rw [happlied] at hhead
    cases hhead
    obtain ⟨past, latest, since, heq, hsince, hcases⟩ := mem_offered before
    have hmem : .resolved latest ∈ run.history := by
      rw [happlied, heq]
      simp
    obtain ⟨program, rfl⟩ := hsourced.resolved latest hmem
    exact ⟨past, program, since, name, heq, hsince, hname, hcases name hoffered⟩

/-- Whether an expansion ended well, with an application as its third event. -/
def appliesThird : Option (EStateM.Result Halt Run Nat) → Bool
  | some (.ok _ run) =>
    match run.history with
    | _ :: _ :: .applied _ :: _ => true
    | _ => false
  | _ => false

theorem bracketing_applied_by_unbound : ∃ run first second call after,
    bracketing.Leaves 5 bracketed run ∧ run.history = [first, second] ++ .applied call :: after ∧
    ∃ past program since name, [first, second] = past ++ .resolved (Node.resolve program) :: since ∧
      (∀ event ∈ since, event.isResolution = false) ∧
      call.decider? = some name ∧
      (name ∈ Node.unboundIn (Node.resolve program) ∨
        ∃ event ∈ since, name ∈ Node.unboundIn event.trees) := by
  have hends : appliesThird (bracketing.expand 5 bracketed) = true := by decide +kernel
  unfold appliesThird at hends
  split at hends
  · next passes run hexpand =>
    split at hends
    · next first second call after hhistory =>
      have hleaves : bracketing.Leaves 5 bracketed run := .inl ⟨passes, hexpand⟩
      exact ⟨run, first, second, call, after, hleaves, hhistory,
        applied_by_unbound hleaves hhistory⟩
    · cases hends
  · cases hends

/-- A block that declares a name and calls it. -/
def shadowingText : String := "\x7b const echo = read; echo(); \x7d"

/-- A file whose macro puts that block at the end of the program; the name is imported, too. -/
def shadowing : Job where
  registry := ⟨[("m", ⟨.macros
    [⟨"emit", .helper fun _ dialect _ workspace =>
      match parseItems dialect shadowingText with
      | .ok items => .ok () { workspace.toContext.remove with edits := [.append items] }
      | .error _ => .error "no items" { workspace with }, "", compatVersion⟩,
    ⟨"echo", .context fun _ => modify Context.remove, "", compatVersion⟩], []⟩)]⟩
  source := Source.ofPath "a.js" "import \x7b emit, echo \x7d from 'm';\nemit();\n"

/-- The call is expanded in the pass that puts it into the program, although the block around it
declares its callee, as the next resolution would find. -/
theorem shadowed_call_is_applied :
    (shadowing.run 5).outcome = .ok (.transformed
      ⟨"\x7b\n    const echo = read;\n\x7d", 1,
        [⟨1, "emit", "m", some ⟨2, 1⟩⟩, ⟨1, "echo", "m", none⟩]⟩) ∧
    (parseItems .ecmascript shadowingText).toOption.map
      (fun block => (Node.callsIn (Node.resolve block)).map Node.decider?) = some [none] := by
  decide +kernel

end Job

end CallExpander
