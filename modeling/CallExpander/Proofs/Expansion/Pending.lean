import CallExpander.Proofs.Expansion.Moments

/-!
# Pending places

An item that is being expanded is out of the program, and an empty statement holds its place. Where
that place is by then is known from the events since: edits move it, and so does the loss of an item
in front of it. Whatever expanding another item leads to, it ends with the same places pending as it
began, each moved along; so there always is a place to put an item back into, and none is pending
between passes. A task that asks for an item that is out, or for none, is refused before anything
happens.
-/

namespace CallExpander

namespace Event

/-- Where the item at a place is after an event; none if it went away. -/
def move : Event → Nat → Option Nat
  | .edited before edit, place => some (Body.shift (edit.place before).1 (edit.place before).2 place)
  | .dropped index, place => if place = index then none else some (Body.unshift index place)
  | .resolved _, place | .walked _, place | .applied _, place | .left _, place => some place

/-- Where the item at a place is after events; none if it went away in one of them. -/
def follow (events : List Event) (place : Nat) : Option Nat :=
  events.foldlM (fun place event => event.move place) place

@[simp] theorem follow_nil (place : Nat) : follow [] place = some place := rfl

@[simp] theorem follow_append (events more : List Event) (place : Nat) :
    follow (events ++ more) place = (follow events place).bind (follow more) :=
  List.foldlM_append

@[simp] theorem follow_singleton (event : Event) (place : Nat) :
    follow [event] place = event.move place := by
  simp [follow]

/-- Two items are never moved to one place. -/
theorem move_injective {event : Event} {a b place : Nat} (ha : event.move a = some place)
    (hb : event.move b = some place) : a = b := by
  cases event with
  | edited before edit =>
    exact Body.shift_injective _ _ ((Option.some.inj ha).trans (Option.some.inj hb).symm)
  | dropped index =>
    simp only [move, Option.ite_none_left_eq_some, Option.some.injEq] at ha hb
    exact Body.unshift_injOn index ha.1 hb.1 (ha.2.trans hb.2.symm)
  | resolved _ | walked _ | applied _ | left _ =>
    exact (Option.some.inj ha).trans (Option.some.inj hb).symm

theorem follow_injective {events : List Event} {a b place : Nat} (ha : follow events a = some place)
    (hb : follow events b = some place) : a = b := by
  induction events generalizing a b with
  | nil => exact (Option.some.inj ha).trans (Option.some.inj hb).symm
  | cons event rest ih =>
    rw [← List.singleton_append, follow_append, follow_singleton] at ha hb
    obtain ⟨a', ha', ha⟩ := Option.bind_eq_some_iff.mp ha
    obtain ⟨b', hb', hb⟩ := Option.bind_eq_some_iff.mp hb
    obtain rfl := ih ha hb
    exact move_injective ha' hb'

end Event

open Event (follow)

/-- A state comes after another by some events, which moved every pending place of the one to one of
the other: as many, in the same order. No item was moved out of the program. -/
structure Run.Moved (events : List Event) (a b : Run) : Prop where
  history : b.history = a.history ++ events
  pending : b.body.pending.map some = a.body.pending.map (follow events)
  inRange : ∀ {place place'}, place < a.body.size → follow events place = some place' →
    place' < b.body.size

namespace Run.Moved

variable {events more : List Event} {a b c : Run}

theorem still (hhistory : b.history = a.history) (hsize : b.body.size = a.body.size)
    (hpending : b.body.pending = a.body.pending) : Moved [] a b where
  history := by rw [hhistory, List.append_nil]
  pending := by rw [hpending]; exact List.map_congr_left fun place _ => (Event.follow_nil place).symm
  inRange hlt hplace := by
    cases hplace
    rwa [hsize]

theorem trans (hab : Moved events a b) (hbc : Moved more b c) : Moved (events ++ more) a c where
  history := by rw [hbc.history, hab.history, List.append_assoc]
  pending := by
    have hfollow : a.body.pending.map (follow (events ++ more)) =
        (a.body.pending.map (follow events)).map (·.bind (follow more)) := by
      rw [List.map_map]
      exact List.map_congr_left fun place _ => Event.follow_append events more place
    rw [hfollow, ← hab.pending, List.map_map, hbc.pending]
    rfl
  inRange hlt hplace := by
    rw [Event.follow_append] at hplace
    obtain ⟨between, hbetween, hplace⟩ := Option.bind_eq_some_iff.mp hplace
    exact hbc.inRange (hab.inRange hlt hbetween) hplace

theorem silent {event : Event} (hmove : ∀ place, event.move place = some place)
    (hhistory : b.history = a.history ++ [event]) (hbody : b.body = a.body) :
    Moved [event] a b where
  history := hhistory
  pending := by
    rw [hbody]
    exact List.map_congr_left fun place _ =>
      ((Event.follow_singleton event place).trans (hmove place)).symm
  inRange hlt hplace := by
    rw [Event.follow_singleton, hmove] at hplace
    cases hplace
    rwa [hbody]

theorem edit (run : Run) (edit : Edit) : Moved [.edited run.body edit] run (run.edit edit) where
  history := rfl
  pending := by
    obtain ⟨-, -, hpending⟩ := run.body.edit_places edit
    change (run.body.edit edit).2.pending.map some = _
    rw [hpending, List.map_map]
    refine List.map_congr_left fun place _ => ?_
    rw [Event.follow_singleton]
    rfl
  inRange {place place'} hlt hplace := by
    obtain ⟨-, hsize, -⟩ := run.body.edit_places edit
    rw [Event.follow_singleton] at hplace
    change place' < (run.body.edit edit).2.size
    rw [hsize, ← Option.some.inj hplace]
    unfold Body.shift
    split <;> omega

theorem drop {index : Nat} {body : Body} (hfree : index ∉ a.body.pending)
    (hremove : a.body.remove? index = some body) (hhistory : b.history = a.history ++ [.dropped index])
    (hbody : b.body = body) : Moved [.dropped index] a b where
  history := hhistory
  pending := by
    obtain ⟨-, -, -, hpending⟩ := Body.remove?_places hremove
    rw [hbody, hpending, List.map_map]
    refine List.map_congr_left fun place hplace => ?_
    have hne : place ≠ index := fun heq => hfree (heq ▸ hplace)
    rw [Event.follow_singleton, Event.move, if_neg hne]
    rfl
  inRange hlt hplace := by
    obtain ⟨hindex, -, hsize, -⟩ := Body.remove?_places hremove
    simp only [Event.follow_singleton, Event.move, Option.ite_none_left_eq_some,
      Option.some.injEq] at hplace
    obtain ⟨hne, rfl⟩ := hplace
    rw [hbody]
    unfold Body.unshift
    split <;> omega

theorem length (h : Moved events a b) : b.body.pending.length = a.body.pending.length := by
  have hlength := congrArg List.length h.pending
  simpa only [List.length_map] using hlength

/-- An item that was taken out is put back where its place has moved to, and the places below it are
where they have moved to. -/
theorem pop {index place : Nat} {rest : List Nat} {body : Body}
    (hbody : body.pending = index :: a.body.pending) (h : Moved events { a with body } b)
    (hpending : b.body.pending = place :: rest) :
    follow events index = some place ∧ rest.map some = a.body.pending.map (follow events) := by
  have hmap := h.pending
  simp only [hbody, hpending, List.map_cons, List.cons.injEq] at hmap
  exact ⟨hmap.1.symm, hmap.2⟩

variable {index place : Nat} {item item' : Node} {body body' : Body}

theorem reattached (hdetach : a.body.detach? index = some (item, body))
    (h : Moved events { a with body } b) (hreattach : b.body.reattach? item' = some (place, body')) :
    Moved events a { b with body := body' } ∧ follow events index = some place := by
  obtain ⟨-, -, hpending⟩ := Body.detach?_places hdetach
  obtain ⟨-, hsize⟩ := Body.size_detach? hdetach
  obtain ⟨hpending', hitems, -⟩ := Body.reattach?_places hreattach
  obtain ⟨hplace, hrest⟩ := h.pop hpending hpending'
  refine ⟨⟨h.history, hrest, fun hlt hfollow => ?_⟩, hplace⟩
  have hrange := h.inRange (hsize ▸ hlt) hfollow
  simpa only [Body.size, hitems, List.length_set] using hrange

theorem discarded (hdetach : a.body.detach? index = some (item, body))
    (h : Moved events { a with body } b) (hsound : b.body.Sound)
    (hdiscard : b.body.discard? = some (place, body')) :
    Moved (events ++ [.dropped place]) a (b.dropping place body') ∧
      follow events index = some place := by
  obtain ⟨-, -, hpending⟩ := Body.detach?_places hdetach
  obtain ⟨-, hsize⟩ := Body.size_detach? hdetach
  obtain ⟨rest, hpending', hremove⟩ := Body.discard?_places hdiscard
  obtain ⟨hplace, hrest⟩ := h.pop hpending hpending'
  obtain ⟨-, hfree⟩ := hsound.tail hpending'
  -- First the latest place is no longer pending, then its item goes away.
  have hbelow : Moved events a { b with body := { b.body with pending := rest } } :=
    ⟨h.history, hrest, fun hlt hfollow => h.inRange (hsize ▸ hlt) hfollow⟩
  exact ⟨hbelow.trans (.drop hfree hremove rfl rfl), hplace⟩

/-- A place whose item was not out is not out after the events either. -/
theorem free (h : Moved events a b) (hfree : index ∉ a.body.pending)
    (hplace : follow events index = some place) : place ∉ b.body.pending := by
  intro hmem
  have hmem' : some place ∈ a.body.pending.map (follow events) :=
    h.pending ▸ List.mem_map_of_mem hmem
  obtain ⟨before, hbefore, heq⟩ := List.mem_map.mp hmem'
  exact hfree (Event.follow_injective heq hplace ▸ hbefore)

end Run.Moved

/-- Pending places are held, and only move. -/
def holding (job : Job) : Discipline job where
  inv run := run.body.Held
  rel a b := ∃ events, Run.Moved events a b
  fails halt a b := halt ≠ .lostItem ∧ b.body.Held ∧ ∃ events, Run.Moved events a b
  tree _ _ := True
  allows _ := True
  handlers := @Job.makes_anything job
  rel_refl run := ⟨[], .still rfl rfl rfl⟩
  rel_trans := fun ⟨_, hab⟩ ⟨_, hbc⟩ => ⟨_, hab.trans hbc⟩
  fails_refl hhalt hi := ⟨hhalt, hi, [], .still rfl rfl rfl⟩
  fails_trans := fun ⟨_, hab⟩ ⟨hhalt, hi, _, hbc⟩ => ⟨hhalt, hi, _, hab.trans hbc⟩
  tree_mono _ _ := trivial
  tree_parts _ _ _ := trivial
  tree_mk _ _ := trivial
  tree_sweep _ := trivial
  applying hi _ _ _ _ := ⟨hi, _, .silent (fun _ => rfl) rfl rfl⟩
  withContext context hi := ⟨hi, ⟨_, .silent (fun _ => rfl) rfl rfl⟩, trivial⟩
  edit {run} edit _ hi := ⟨hi.edit edit, _, .edit run edit⟩
  retiring hi hfree _ _ h := by
    obtain ⟨rest, -, rfl⟩ | ⟨body, -, hremove, rfl⟩ := Run.retiring?_cases h
    · exact ⟨hi.set hfree rest, _, .still rfl (Body.size_set _ _ rest) rfl⟩
    · exact ⟨hi.remove hfree hremove, _, .drop hfree hremove rfl rfl⟩
  detach hi hfree hdetach := ⟨hi.detach hfree hdetach, trivial⟩
  reattach := fun _ _ hdetach ⟨_, hmoved⟩ hmid _ _ hreattach =>
    ⟨hmid.reattach hreattach, _, (hmoved.reattached hdetach hreattach).1⟩
  discard := fun _ _ hdetach ⟨_, hmoved⟩ hmid _ hdiscard =>
    ⟨hmid.discard hdiscard, _, (hmoved.discarded hdetach hmid.toSound hdiscard).1⟩
  restore := fun _ _ hdetach ⟨hhalt, hmid, _, hmoved⟩ hreattach =>
    ⟨hhalt, hmid.reattach hreattach, _, (hmoved.reattached hdetach hreattach).1⟩
  lost := by
    rintro halt run index item body mid - - hdetach ⟨-, hmid, events, hmoved⟩ hplace
    obtain ⟨-, -, hpending⟩ := Body.detach?_places hdetach
    -- The place of the item that was taken out is still pending.
    have hne : mid.body.pending ≠ [] := by
      intro hnil
      have hlength := hmoved.length
      simp only [hpending, hnil, List.length_cons, List.length_nil] at hlength
      cases hlength
    exact absurd (hmid.hasPlace hne) hplace

def Request.place? : Request → Option Nat
  | .item index | .import index => some index
  | .argument _ | .arguments => none

namespace Job

variable {job : Job} {budget level : Nat} {items : List Node} {run run' : Run}

theorem Begins.ready {work : Work} (h : job.Begins budget items level work run) :
    run.body.Held ∧ (holding job).Ready work run :=
  (holding job).begins (fun h => Body.held_of_idle h.fresh.idle)
    (fun _ hi => ⟨hi, _, .silent (fun _ => rfl) rfl rfl⟩) h

/-- Whenever a piece of work is begun, pending places are different, in range, and held. -/
theorem Begins.held {work : Work} (h : job.Begins budget items level work run) : run.body.Held :=
  h.ready.1

/-- The expansion of an item is only begun for one that is there and not out. -/
theorem Begins.item_free {index : Nat} (h : job.Begins budget items level (.item index) run) :
    index < run.body.size ∧ index ∉ run.body.pending :=
  h.ready.2

theorem checkItem_of_refused (invocation : Invocation) {index : Nat}
    (h : run.body.size ≤ index ∨ index ∈ run.body.pending) :
    ∃ reason, job.checkItem invocation index run = .error (.failure
      (.invalidRequest invocation.callee.name job.source.path reason invocation.site)) run := by
  by_cases hsize : index ≥ run.body.size
  · refine ⟨"item " ++ toString index ++ " was requested, but the program has "
      ++ toString run.body.size, ?_⟩
    change (if index ≥ run.body.size then job.invalidRequest invocation _ else _) run = _
    rw [if_pos hsize]
    rfl
  · have hpending : run.body.isPending index = true := by
      simpa only [Body.isPending, List.contains_iff_mem] using
        h.resolve_left (Nat.not_le.mpr (Nat.lt_of_not_ge hsize))
    refine ⟨"item " ++ toString index ++ " contains the call that requested it", ?_⟩
    change (if index ≥ run.body.size then _ else if run.body.isPending index then
      job.invalidRequest invocation _ else _) run = _
    rw [if_neg hsize, if_pos hpending]
    rfl

/-- A request for an item that is out or missing is refused before anything happens. -/
theorem fulfil_of_refused {w : Walker} (invocation : Invocation) (slot : Node) {request : Request}
    {index : Nat} (hplace : request.place? = some index)
    (h : run.body.size ≤ index ∨ index ∈ run.body.pending) :
    ∃ reason, job.fulfil w invocation slot request run = .error (.failure
      (.invalidRequest invocation.callee.name job.source.path reason invocation.site)) run := by
  obtain ⟨reason, hcheck⟩ := job.checkItem_of_refused invocation h
  refine ⟨reason, ?_⟩
  cases request with
  | item _ | «import» _ =>
    cases hplace
    exact Expansion.bind_of_error hcheck
  | argument _ | arguments => cases hplace

/-- Expanding an item that is not out ends with the same places pending, and with the item where its
place has moved to, unless it went away. -/
theorem ok_expandItem_moved {index next : Nat} (hheld : run.body.Held)
    (hfree : index ∉ run.body.pending)
    (h : job.expandItem (job.walker level) index run = .ok next run') :
    run'.body.Held ∧ ∃ events, Run.Moved events run run' ∧
      (follow events index = none ∨ ∃ place, follow events index = some place ∧ next = place + 1) := by
  obtain ⟨item, body, item', mid, hdetach, hvisit, hend⟩ := ok_expandItem h
  have hvisits := Discipline.keeps_visit ((holding job).serves_walker level) item
  obtain ⟨hmid, ⟨events, hmoved⟩, -⟩ := hvisits.ok (hheld.detach hfree hdetach) trivial hvisit
  obtain ⟨-, body', hdiscard, rfl⟩ | ⟨-, place, body', hreattach, rfl, rfl⟩ := hend
  · obtain ⟨hmoved', hplace⟩ := hmoved.discarded hdetach hmid.toSound hdiscard
    refine ⟨hmid.discard hdiscard, _, hmoved', .inl ?_⟩
    rw [Event.follow_append, hplace]
    exact (Event.follow_singleton _ _).trans (if_pos rfl)
  · obtain ⟨hmoved', hplace⟩ := hmoved.reattached hdetach hreattach
    exact ⟨hmid.reattach hreattach, events, hmoved', .inr ⟨place, hplace, rfl⟩⟩

/-- Where expanding an item halts, the same places are pending, and the item itself stands where its
place has moved to. It is the item as it was detached, as `expandItem` keeps no half rewritten tree;
the place is the part of this that does not depend on that choice. -/
theorem error_expandItem_moved {index : Nat} {halt : Halt} (hheld : run.body.Held)
    (hlt : index < run.body.size) (hfree : index ∉ run.body.pending)
    (h : job.expandItem (job.walker level) index run = .error halt run') :
    halt ≠ .lostItem ∧ run'.body.Held ∧ ∃ events, Run.Moved events run run' ∧
      ∃ place, follow events index = some place ∧
        run'.body.items[place]? = run.body.items[index]? := by
  have hserves := (holding job).serves_walker level
  obtain ⟨hhalt, hheld', -⟩ := (Discipline.keeps_expandItem hserves index).error hheld ⟨hlt, hfree⟩ h
  refine ⟨hhalt, hheld', ?_⟩
  obtain ⟨hge, -, -⟩ | ⟨item, body, mid, hdetach, hend⟩ := error_expandItem h
  · exact absurd hlt (Nat.not_lt.mpr hge)
  obtain ⟨hvisit, place, body', hreattach, rfl⟩ | ⟨rfl, -, -, -⟩ := hend
  · obtain ⟨-, -, events, hmoved⟩ :=
      (Discipline.keeps_visit hserves item).error (hheld.detach hfree hdetach) trivial hvisit
    obtain ⟨hmoved', hplace⟩ := hmoved.reattached hdetach hreattach
    obtain ⟨-, hitems, hrange⟩ := Body.reattach?_places hreattach
    refine ⟨events, hmoved', place, hplace, ?_⟩
    rw [(Body.detach?_places hdetach).1]
    change body'.items[place]? = _
    rw [hitems]
    exact List.getElem?_set_self hrange
  · exact absurd rfl hhalt

/-- Whatever an expansion is about to do, pending places are different, in range, and held by empty
statements. Expanding an item, however it ends, leaves as many places pending as there were, each
where its item has moved to, and does not halt for want of an item or a place; neither does the whole
expansion. Where it halts, what stands at the place of the item is the item as it was detached: the
halted run is over, and `expandItem` does not keep how far the tree had been rewritten. Asking for an
item that is out or missing changes nothing and is refused. Between passes no place is pending. -/
theorem pending_places_hold (job : Job) (budget : Nat) (items : List Node) :
    (∀ {level work run}, job.Begins budget items level work run →
      run.body.pending.Nodup ∧ (∀ place ∈ run.body.pending, place < run.body.size) ∧
        ∀ place ∈ run.body.pending, run.body.items[place]? = some Node.emptyStatement) ∧
    (∀ {level index run}, job.Begins budget items level (.item index) run →
      (∀ {next run'}, job.expandItem (job.walker level) index run = .ok next run' →
        run'.body.pending.length = run.body.pending.length ∧
        ∃ events, Run.Moved events run run' ∧ (follow events index = none ∨
          ∃ place, follow events index = some place ∧ next = place + 1)) ∧
      ∀ {halt run'}, job.expandItem (job.walker level) index run = .error halt run' →
        halt ≠ .lostItem ∧ run'.body.pending.length = run.body.pending.length ∧
        ∃ events, Run.Moved events run run' ∧ ∃ place, follow events index = some place ∧
          run'.body.items[place]? = run.body.items[index]?) ∧
    (∀ run, job.expand budget items ≠ some (.error .lostItem run)) ∧
    (∀ {level invocation slot request run index},
      job.Begins budget items level (.request invocation slot request) run →
      request.place? = some index → run.body.size ≤ index ∨ index ∈ run.body.pending →
      ∃ reason, job.fulfil (job.walker level) invocation slot request run = .error (.failure
        (.invalidRequest invocation.callee.name job.source.path reason invocation.site)) run) ∧
    ∀ {run}, job.Reaches budget items run → run.body.pending = [] ∧
      ∀ {a run'}, job.runPass budget run = .ok a run' → run'.body.pending = [] := by
  refine ⟨fun h => ?_, fun h => ⟨fun hok => ?_, fun herror => ?_⟩, fun run h => ?_,
    fun _ hplace h => fulfil_of_refused _ _ hplace h, fun h => ⟨h.fresh.idle, fun hpass => ?_⟩⟩
  · obtain ⟨⟨hnodup, hrange⟩, hempty⟩ := h.held
    exact ⟨hnodup, hrange, hempty⟩
  · obtain ⟨-, events, hmoved, hitem⟩ := ok_expandItem_moved h.held h.item_free.2 hok
    exact ⟨hmoved.length, events, hmoved, hitem⟩
  · obtain ⟨hlt, hfree⟩ := h.item_free
    obtain ⟨hhalt, -, events, hmoved, hitem⟩ := error_expandItem_moved h.held hlt hfree herror
    exact ⟨hhalt, hmoved.length, events, hmoved, hitem⟩
  · unfold expand at h
    simp only at h
    split at h
    · cases h
    · exact settle_ne_lostItem (job.fresh_start items).idle (Option.some.inj h)
  · exact idle_refresh h.fresh.idle hpass

/-- A module with a task that asks for the second item before it removes its call, and a macro that
removes its call and puts a statement before all others. -/
def nesting : Job where
  registry := ⟨[("m", ⟨.macros
    [⟨"ask", .task fun _ => .stage fun _ _ workspace =>
      .ok (some ([.item 1], .stage fun _ _ workspace =>
        .ok none { workspace.toContext.remove with })) { workspace with }, "", compatVersion⟩,
    ⟨"lead", .helper fun _ _ _ workspace =>
      .ok () { workspace.toContext.remove with edits := [.prepend [Node.emptyStatement]] },
      "", compatVersion⟩], []⟩)]⟩
  source := Source.ofPath "a.js" ""

def nested : List Node :=
  [(ImportSpec.named "m" "ask").toItem, (ImportSpec.named "m" "lead").toItem,
    Node.build .exprStmt [Node.callOf (Node.identifier "ask") []],
    Node.build .exprStmt [Node.callOf (Node.identifier "lead") []]]

/-- While the second item is expanded for the first, the first moves down. -/
theorem nested_pending_place_moves : ∃ run next run',
    nesting.Begins 4 nested 1 (.item 1) run ∧ run.body.pending = [0] ∧
    run.body.items[0]? = some Node.emptyStatement ∧
    nesting.expandItem (nesting.walker 1) 1 run = .ok next run' ∧ run'.body.pending = [1] ∧
    run'.body.pending.length = run.body.pending.length ∧
    ∃ events, Run.Moved events run run' ∧ (follow events 1 = none ∨
      ∃ place, follow events 1 = some place ∧ next = place + 1) := by
  obtain ⟨hmoment, hitem, -⟩ := pending_places_hold nesting 4 nested
  have hbegins := Begins.requested (.request (.asked (.start (.cooperative (.first (.parts (.detached
    (.takeUp (.pass (.start : nesting.Reaches 4 nested _)) (by decide +kernel)) rfl) rfl)) rfl rfl rfl)
    rfl) rfl)) rfl
  obtain ⟨-, -, hempty⟩ := hmoment hbegins
  obtain ⟨hlength, hmoved⟩ := (hitem hbegins).1 rfl
  exact ⟨_, _, _, hbegins, rfl, hempty 0 List.mem_cons_self, rfl, rfl, hlength, hmoved⟩

end Job

end CallExpander
