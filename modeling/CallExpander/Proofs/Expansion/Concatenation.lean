import CallExpander.Proofs.Expansion.Local

/-!
# A pass goes item by item

Where handlers heed nothing but their calls, what becomes of an item depends on the item and the names
that are bound, and not on what was remembered or noted down before. So a pass over one list of items
and then another is a pass over each of them.
-/

namespace CallExpander

open Expansion

/-- What a handler makes of a call follows from the call and its facts: whatever is remembered or was
noted down, it leaves the same in the place of the call, or fails with the same message. -/
def Heedless (handler : Call → EStateM String Context Unit) : Prop :=
  ∀ (call : Call) (slot : Node),
    (∃ slot', ∀ context : Context, context.slot = slot →
      ∃ context', handler call context = .ok () context' ∧ context'.slot = slot') ∨
    ∃ cause, ∀ context : Context, context.slot = slot →
      ∃ context', handler call context = .error cause context'

/-- A handler sees only its call, and heeds nothing else. -/
def Handler.Heedless (dialect : Dialect) : Handler → Prop
  | .context run => CallExpander.Heedless run
  | .toolkit run => CallExpander.Heedless fun call => run call dialect
  | .helper _ | .task _ => False

theorem Handler.Heedless.tier_ne {dialect : Dialect} {handler : Handler}
    (h : handler.Heedless dialect) : handler.tier ≠ .helper := by
  cases handler with
  | context run | toolkit run => exact Tier.noConfusion
  | helper run | task start => exact h.elim

/-- The same state with other items and no pending place. -/
def Run.on (run : Run) (items : List Node) : Run := { run with body := { items } }

namespace Job

variable {job : Job} {bindings : List Binding} {a b run run' : Run}

/-- In both of two states, certain names are bound. -/
def BindBoth (bindings : List Binding) (a b : Run) : Prop :=
  a.bindings = bindings ∧ b.bindings = bindings

theorem agree_of_heedless {handler : Call → EStateM String Context Unit} (h : Heedless handler)
    (invocation : Invocation) (slot : Node) : Agree (BindBoth bindings)
      (job.onContext invocation slot handler) (job.onContext invocation slot handler) := by
  rcases h (job.facts invocation slot) slot with ⟨slot', hslot⟩ | ⟨cause, hcause⟩
  · have hok : ∀ run : Run, ∃ context', context'.slot = slot' ∧
        job.onContext invocation slot handler run = .ok slot' (run.withContext context') := by
      intro run
      obtain ⟨context', hres, rfl⟩ := hslot (run.context slot) rfl
      exact ⟨context', rfl, by rw [onContext, hres]⟩
    constructor
    · intro a b _ _ hboth hres
      obtain ⟨context, -, ha⟩ := hok a
      obtain ⟨context', -, hb⟩ := hok b
      cases ha.symm.trans hres
      exact ⟨rfl, _, hb, rfl, hboth⟩
    · intro a b _ _ _ hres
      obtain ⟨context, -, ha⟩ := hok a
      cases ha.symm.trans hres
  · have herror : ∀ run : Run, ∃ context', job.onContext invocation slot handler run =
        .error (job.handlerFailure invocation cause) (run.withContext context') := by
      intro run
      obtain ⟨context', hres⟩ := hcause (run.context slot) rfl
      exact ⟨context', by rw [onContext, hres]⟩
    constructor
    · intro a b _ _ _ hres
      obtain ⟨context, ha⟩ := herror a
      cases ha.symm.trans hres
    · intro a b _ _ hboth hres
      obtain ⟨context, ha⟩ := herror a
      obtain ⟨context', hb⟩ := herror b
      cases ha.symm.trans hres
      exact ⟨⟨_, rfl⟩, rfl, _, hb, rfl, hboth⟩

/-- If handlers heed nothing but their calls, states with the same names bound belong together. -/
theorem lockstep_of_heedless (h : job.registry.All (·.handler.Heedless job.source.dialect)) :
    job.Lockstep (BindBoth bindings) where
  bindings hboth := hboth.2.trans hboth.1.symm
  applying hboth _ _ _ _ := hboth
  eager entry hentry callee hcallee :=
    Handler.isCooperative_of_tier (h entry hentry callee hcallee).tier_ne
  apply w w' {invocation _ _} hfind slot := by
    have hheedless := h.of_find? hfind
    unfold Job.apply
    cases hhandler : invocation.callee.handler with
    | context handler =>
      rw [hhandler] at hheedless
      exact agree_of_heedless hheedless invocation slot
    | toolkit handler =>
      rw [hhandler] at hheedless
      exact agree_of_heedless hheedless invocation slot
    | helper handler => rw [hhandler] at hheedless; exact hheedless.elim
    | task start => rw [hhandler] at hheedless; exact hheedless.elim

namespace Lockstep

variable {near : Run → Run → Prop}

/-- Once the first items are expanded, be it in another state that belongs together with theirs, the
others are expanded as they are alone, with the steps to spare that the first ones did not need. -/
theorem expandItems_of_ok (h : job.Lockstep near) {m : Nat} {xs xs' : List Node} {a' : Run}
    (hnear : near a b) (hres : job.expandItems m xs a = .ok xs' a') (n : Nat) (ys : List Node) :
    ∃ more b', near a' b' ∧
      (∀ {ys' c}, job.expandItems (n + more) ys b' = .ok ys' c →
        job.expandItems (m + n) (xs ++ ys) b = .ok (xs' ++ ys') c) ∧
      ∀ {halt c}, job.expandItems (n + more) ys b' = .error halt c →
        job.expandItems (m + n) (xs ++ ys) b = .error halt c := by
  induction xs generalizing m a b xs' with
  | nil =>
    rw [expandItems] at hres
    obtain ⟨rfl, rfl⟩ := ok_pure hres
    rw [Nat.add_comm m]
    exact ⟨m, b, hnear, id, id⟩
  | cons item rest ih =>
    cases m with
    | zero => cases hres
    | succ m =>
      rw [expandItems] at hres
      obtain ⟨item', mid, hvisit, hres⟩ := ok_bind hres
      obtain ⟨rest', last, hrest, hres⟩ := ok_bind hres
      obtain ⟨rfl, rfl⟩ := ok_pure hres
      obtain ⟨-, mid', hvisit', -, hmid⟩ := (h.visit _ (job.walker (m + n)) item).ok hnear hvisit
      obtain ⟨more, b', hend, hok, herror⟩ := ih hmid hrest
      refine ⟨more, b', hend, fun {ys' c} hothers => ?_, fun hothers => ?_⟩ <;>
        rw [List.cons_append, Nat.succ_add, expandItems, bind_of_ok hvisit']
      · rw [bind_of_ok (hok hothers)]
        cases item'.isRemovedStatement <;> rfl
      · exact bind_of_error (herror hothers)

/-- Items that fail do so in front of others, too. -/
theorem expandItems_of_error (h : job.Lockstep near) {m : Nat} {xs : List Node} {a' : Run}
    {failure : Failure} (hnear : near a b) (hres : job.expandItems m xs a = .error (.failure failure) a')
    (n : Nat) (ys : List Node) :
    ∃ b', job.expandItems (m + n) (xs ++ ys) b = .error (.failure failure) b' := by
  induction xs generalizing m a b with
  | nil =>
    rw [expandItems] at hres
    exact (error_pure hres).elim
  | cons item rest ih =>
    cases m with
    | zero => cases hres
    | succ m =>
      rw [expandItems] at hres
      rw [List.cons_append, Nat.succ_add, expandItems]
      have hagree := h.visit (job.walker m) (job.walker (m + n)) item
      rcases error_bind hres with hvisit | ⟨item', mid, hvisit, hres⟩
      · obtain ⟨-, -, b', hvisit', -, -⟩ := hagree.error hnear hvisit
        exact ⟨b', bind_of_error hvisit'⟩
      · obtain ⟨-, mid', hvisit', -, hmid⟩ := hagree.ok hnear hvisit
        obtain ⟨b', hrest⟩ := ih hmid (error_bind_pure hres)
        exact ⟨b', (bind_of_ok hvisit').trans (bind_of_error hrest)⟩

end Lockstep

/-- Two walks that end well in states with the same names bound, one after the other. -/
theorem expandItems_append (h : job.Lockstep (BindBoth bindings)) {m n : Nat} {a a' b b' c : Run}
    {xs xs' ys ys' : List Node} (hfirst : BindBoth bindings a c) (hsecond : BindBoth bindings b c)
    (hxs : job.expandItems m xs a = .ok xs' a') (hys : job.expandItems n ys b = .ok ys' b') :
    ∃ c', job.expandItems (m + n) (xs ++ ys) c = .ok (xs' ++ ys') c' := by
  obtain ⟨more, mid, hmid, hok, -⟩ := h.expandItems_of_ok hfirst hxs n ys
  obtain ⟨_, last, -, hok', -⟩ := h.expandItems_of_ok ⟨hsecond.1, hmid.2⟩ hys more []
  have hothers := hok' (c := last) (by rw [expandItems]; rfl)
  rw [List.append_nil, List.append_nil] at hothers
  exact ⟨last, hok hothers⟩

/-- A walk that ends well, and then one that fails. -/
theorem expandItems_append_error (h : job.Lockstep (BindBoth bindings)) {m n : Nat}
    {a a' b b' c : Run} {xs xs' ys : List Node} {failure : Failure} (hfirst : BindBoth bindings a c)
    (hsecond : BindBoth bindings b c) (hxs : job.expandItems m xs a = .ok xs' a')
    (hys : job.expandItems n ys b = .error (.failure failure) b') :
    ∃ c', job.expandItems (m + n) (xs ++ ys) c = .error (.failure failure) c' := by
  obtain ⟨more, mid, hmid, -, herror⟩ := h.expandItems_of_ok hfirst hxs n ys
  obtain ⟨last, hothers⟩ := h.expandItems_of_error ⟨hsecond.1, hmid.2⟩ hys more []
  rw [List.append_nil] at hothers
  exact ⟨last, herror hothers⟩

/-- A pass, as a walk over the list of items. -/
theorem runPass_on (hlocal : job.registry.All (·.handler.tier ≠ .helper)) (budget : Nat) (run : Run)
    (items : List Node) : Follows (fun _ => True)
      (fun items' mid _ after => mid.Same after ∧ after.Idle ∧ after.body.items = items')
      (job.expandItems budget items (beginPass (run.on items))) (job.runPass budget (run.on items)) :=
  have hidle : (run.on items).Idle := rfl
  runPass_of_expandItems hlocal hidle

/-- A pass and the walk over the list of items end alike. -/
theorem runPass_eq_walk (hlocal : job.registry.All (·.handler.tier ≠ .helper)) (budget : Nat)
    (run : Run) (items : List Node) :
    match job.expandItems budget items (beginPass (run.on items)),
      job.runPass budget (run.on items) with
    | .ok items' mid, .ok _ after => after.body = { items := items' } ∧ mid.Same after
    | .error halt mid, .error halt' after => halt' = halt ∧ mid.Same after
    | _, _ => False := by
  have hfollows := job.runPass_on hlocal budget run items
  cases hwalk : job.expandItems budget items (beginPass (run.on items)) with
  | ok items' mid =>
    obtain ⟨_, after, hpass, hsame, hidle, hitems⟩ := hfollows.ok hwalk
    rw [hpass]
    exact ⟨congrArg₂ Body.mk hitems hidle, hsame⟩
  | error halt mid =>
    obtain ⟨after, hpass, hsame⟩ := hfollows.error hwalk trivial
    rw [hpass]
    exact ⟨rfl, hsame⟩

/-- What the trace says of a pass over a list of items. -/
theorem trace_runPass_on (hlocal : job.registry.All (·.handler.tier ≠ .helper)) {budget : Nat}
    {items : List Node} {v : Unit} (h : job.runPass budget (run.on items) = .ok v run') :
    run'.trace = run.trace ++ (Node.macroCallsIn run.bindings items).filterMap
      (job.step? (run.pass + 1) run.bindings) := by
  have hidle : (beginPass (run.on items)).Idle := rfl
  exact (expands_expandFrom hlocal hidle h).trace

/-- If handlers heed nothing but their calls, a pass goes item by item. Over one list of items and then
another, it makes what passes over each of them make, and applies what they apply, one after the other;
and it fails as the pass over the first one fails, or else as the pass over the second one. It is a walk
over the list of items which drops those that have become nothing but a removed call, and keeps the
others in order. -/
theorem runPass_append (hheedless : job.registry.All (·.handler.Heedless job.source.dialect))
    (run : Run) (xs ys : List Node) :
    (∀ {m n : Nat} {a b : Run}, job.runPass m (run.on xs) = .ok () a →
      job.runPass n (run.on ys) = .ok () b →
      ∃ c, job.runPass (m + n) (run.on (xs ++ ys)) = .ok () c ∧
        c.body = { items := a.body.items ++ b.body.items } ∧
        ∃ first second, a.trace = run.trace ++ first ∧ b.trace = run.trace ++ second ∧
          c.trace = run.trace ++ (first ++ second)) ∧
    (∀ {m : Nat} {a : Run} {failure : Failure} (n : Nat),
      job.runPass m (run.on xs) = .error (.failure failure) a →
      ∃ c, job.runPass (m + n) (run.on (xs ++ ys)) = .error (.failure failure) c) ∧
    (∀ {m n : Nat} {a b : Run} {failure : Failure}, job.runPass m (run.on xs) = .ok () a →
      job.runPass n (run.on ys) = .error (.failure failure) b →
      ∃ c, job.runPass (m + n) (run.on (xs ++ ys)) = .error (.failure failure) c) ∧
    ∀ (budget : Nat) (items : List Node),
      match job.expandItems budget items (beginPass (run.on items)),
        job.runPass budget (run.on items) with
      | .ok items' mid, .ok _ after => after.body = { items := items' } ∧ mid.Same after
      | .error halt mid, .error halt' after => halt' = halt ∧ mid.Same after
      | _, _ => False := by
  have hlocal : job.registry.All (·.handler.tier ≠ .helper) := fun entry hentry callee hcallee =>
    (hheedless entry hentry callee hcallee).tier_ne
  have hlock : job.Lockstep (BindBoth run.bindings) := lockstep_of_heedless hheedless
  have hwalk : ∀ budget items, Follows (fun _ => True) _ (job.runPass budget (run.on items))
      (job.expandItems budget items (beginPass (run.on items))) :=
    fun budget items => (job.runPass_on hlocal budget run items).symm
  -- A pass starts with the same names bound, whatever the items are.
  have hbound : ∀ items items', BindBoth run.bindings (beginPass (run.on items))
      (beginPass (run.on items')) := fun _ _ => ⟨rfl, rfl⟩
  refine ⟨fun {m n a b} ha hb => ?_, fun {m a failure} n ha => ?_, fun {m n a b failure} ha hb => ?_,
    fun budget items => job.runPass_eq_walk hlocal budget run items⟩
  · obtain ⟨_, _, hxs, -, -, rfl⟩ := (hwalk m xs).ok ha
    obtain ⟨_, _, hys, -, -, rfl⟩ := (hwalk n ys).ok hb
    obtain ⟨_, hall⟩ := expandItems_append hlock (hbound xs (xs ++ ys)) (hbound ys (xs ++ ys)) hxs hys
    obtain ⟨_, c, hc, -, hidle, hitems⟩ := (job.runPass_on hlocal (m + n) run (xs ++ ys)).ok hall
    refine ⟨c, hc, congrArg₂ Body.mk hitems hidle, _, _, trace_runPass_on hlocal ha, trace_runPass_on hlocal hb, ?_⟩
    rw [trace_runPass_on hlocal hc, Node.macroCallsIn_append, List.filterMap_append]
  · obtain ⟨_, hxs, -⟩ := (hwalk m xs).error ha trivial
    obtain ⟨_, hall⟩ := hlock.expandItems_of_error (hbound xs (xs ++ ys)) hxs n ys
    obtain ⟨c, hc, -⟩ := (job.runPass_on hlocal (m + n) run (xs ++ ys)).error hall trivial
    exact ⟨c, hc⟩
  · obtain ⟨_, _, hxs, -⟩ := (hwalk m xs).ok ha
    obtain ⟨_, hys, -⟩ := (hwalk n ys).error hb trivial
    obtain ⟨_, hall⟩ :=
      expandItems_append_error hlock (hbound xs (xs ++ ys)) (hbound ys (xs ++ ys)) hxs hys
    obtain ⟨c, hc, -⟩ := (job.runPass_on hlocal (m + n) run (xs ++ ys)).error hall trivial
    exact ⟨c, hc⟩

/-- A module with a macro that goes away, and one that becomes its first argument. -/
def sifting : Job where
  registry := ⟨[("m", ⟨.macros [⟨"drop", .context fun _ => modify Context.remove, "", compatVersion⟩,
    ⟨"id", .toolkit fun _ _ => modify fun context =>
      context.replaceWith (context.args.head?.getD Node.undefined), "", compatVersion⟩], []⟩)]⟩
  source := Source.ofPath "a.js" ""

/-- The state in which a file that imports both is expanded. -/
def sifted : Run :=
  sifting.start [(ImportSpec.named "m" "drop").toItem, (ImportSpec.named "m" "id").toItem]

theorem sifting_heedless : sifting.registry.All (·.handler.Heedless sifting.source.dialect) := by
  intro entry hentry callee hcallee
  obtain rfl := List.mem_singleton.mp hentry
  rcases List.mem_pair.mp hcallee with rfl | rfl
  · exact fun _ slot => .inl ⟨Node.removedMarker, fun context _ => ⟨context.remove, rfl, rfl⟩⟩
  · refine fun _ slot => .inl ⟨slot.args.head?.getD Node.undefined, fun context hslot => ?_⟩
    exact ⟨context.replaceWith (context.args.head?.getD Node.undefined), rfl, by rw [← hslot]; rfl⟩

/-- Three items: one goes away, one becomes another one, and one has both kinds of calls in it. -/
theorem sifting_runPass_append :
    let drop := Node.callOf (Node.identifier "drop") []
    let x := Node.build .exprStmt [Node.identifier "x"]
    let id := Node.build .exprStmt [Node.callOf (Node.identifier "id") [Node.identifier "x"]]
    ∃ c, sifting.runPass 3 (sifted.on ([Node.build .exprStmt [drop], id] ++
        [Node.build .exprStmt [Node.callOf (Node.identifier "id") [drop]]])) = .ok () c ∧
      c.body = { items := [x, Node.build .exprStmt [Node.undefined]] } ∧
      c.trace = [⟨1, "drop", "m", none⟩, ⟨1, "id", "m", none⟩, ⟨1, "id", "m", none⟩,
        ⟨1, "drop", "m", none⟩] := by
  intro drop x id
  obtain ⟨happend, -⟩ := runPass_append sifting_heedless sifted
    [Node.build .exprStmt [drop], id] [Node.build .exprStmt [Node.callOf (Node.identifier "id") [drop]]]
  obtain ⟨a, ha, hitems, htrace⟩ : ∃ a, sifting.runPass 2 (sifted.on [Node.build .exprStmt [drop], id]) =
      .ok () a ∧ a.body.items = [x] ∧ a.trace = [⟨1, "drop", "m", none⟩, ⟨1, "id", "m", none⟩] :=
    ⟨_, rfl, rfl, rfl⟩
  obtain ⟨b, hb, hitems', htrace'⟩ : ∃ b, sifting.runPass 1 (sifted.on [Node.build .exprStmt
      [Node.callOf (Node.identifier "id") [drop]]]) = .ok () b ∧
      b.body.items = [Node.build .exprStmt [Node.undefined]] ∧
      b.trace = [⟨1, "id", "m", none⟩, ⟨1, "drop", "m", none⟩] := ⟨_, rfl, rfl, rfl⟩
  obtain ⟨c, hc, hbody, first, second, hfirst, hsecond, hall⟩ := happend ha hb
  obtain rfl : first = _ := hfirst.symm.trans htrace
  obtain rfl : second = _ := hsecond.symm.trans htrace'
  rw [hitems, hitems'] at hbody
  exact ⟨c, hc, hbody, hall⟩

end Job

end CallExpander
