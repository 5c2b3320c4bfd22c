import CallExpander.Proofs.Expansion.Order
import CallExpander.Proofs.Registry

/-!
# The calls that a pass expands

If no handler can reach beyond its own call, a pass is a single walk over the program as it was when
the pass started. It meets the macro calls of that program, each before the ones inside it, and
inside a macro call it looks at the arguments only. What a handler puts in the place of its call is
behind the walk by then.
-/

namespace CallExpander

namespace Node

mutual

/-- The macro calls that a walk over a tree meets, in order. -/
def macroCalls (bindings : List Binding) : Node → List Node
  | .mk form origin parts =>
    if isMacroCall bindings (.mk form origin parts) then
      .mk form origin parts :: macroCallsInCall bindings parts
    else macroCallsIn bindings parts

def macroCallsIn (bindings : List Binding) : List Node → List Node
  | [] => []
  | n :: rest => macroCalls bindings n ++ macroCallsIn bindings rest

/-- The macro calls in the arguments among the parts of a call. -/
def macroCallsInCall (bindings : List Binding) : List Node → List Node
  | [_, group, _] => macroCallsInGroup bindings group
  | _ => []

def macroCallsInGroup (bindings : List Binding) : Node → List Node
  | .mk .group _ args => macroCallsIn bindings args
  | _ => []

end

variable {bindings : List Binding}

theorem macroCallsIn_append (bindings : List Binding) (xs ys : List Node) :
    macroCallsIn bindings (xs ++ ys) = macroCallsIn bindings xs ++ macroCallsIn bindings ys := by
  induction xs with
  | nil => rfl
  | cons n rest ih => rw [List.cons_append, macroCallsIn, macroCallsIn, ih, List.append_assoc]

theorem isCall_of_isMacroCall {n : Node} (h : isMacroCall bindings n = true) : n.form = .call := by
  unfold isMacroCall at h
  split at h
  · next hres => exact Node.form_of_resolveCall hres
  · cases h

theorem calls_of_isMacroCall {form : Form} {origin : Origin} {parts : List Node}
    (h : isMacroCall bindings (.mk form origin parts) = true) :
    (Node.mk form origin parts).calls = .mk form origin parts :: callsIn parts := by
  obtain rfl : form = .call := isCall_of_isMacroCall h
  rw [calls]

theorem callsIn_sublist (form : Form) (origin : Origin) (parts : List Node) :
    (callsIn parts).Sublist (Node.mk form origin parts).calls := by
  cases form
  case call => exact List.sublist_cons_self _ _
  all_goals exact List.Sublist.refl _

mutual

/-- The macro calls that a walk meets are among those of the tree, in their order. -/
theorem macroCalls_sublist : ∀ n : Node,
    (n.macroCalls bindings).Sublist (n.calls.filter (isMacroCall bindings))
  | .mk form origin parts => by
    rw [macroCalls]
    split
    · next hcall =>
      rw [calls_of_isMacroCall hcall, List.filter_cons_of_pos hcall]
      exact (macroCallsInCall_sublist parts).cons_cons _
    · exact (macroCallsIn_sublist parts).trans ((callsIn_sublist form origin parts).filter _)

theorem macroCallsIn_sublist : ∀ parts : List Node,
    (macroCallsIn bindings parts).Sublist ((callsIn parts).filter (isMacroCall bindings))
  | [] => List.Sublist.refl _
  | n :: rest => by
    rw [macroCallsIn, callsIn, List.filter_append]
    exact (macroCalls_sublist n).append (macroCallsIn_sublist rest)

theorem macroCallsInCall_sublist : ∀ parts : List Node,
    (macroCallsInCall bindings parts).Sublist ((callsIn parts).filter (isMacroCall bindings))
  | [callee, group, typeArgs] => by
    rw [macroCallsInCall]
    refine (macroCallsInGroup_sublist group).trans (List.Sublist.filter _ ?_)
    simp only [callsIn, List.append_nil]
    exact (List.sublist_append_left _ _).trans (List.sublist_append_right _ _)
  | [] | [_] | [_, _] | _ :: _ :: _ :: _ :: _ => List.nil_sublist _

theorem macroCallsInGroup_sublist : ∀ n : Node,
    (macroCallsInGroup bindings n).Sublist (n.calls.filter (isMacroCall bindings))
  | .mk form origin args => by
    unfold macroCallsInGroup
    split
    · next heq =>
      cases heq
      exact (macroCallsIn_sublist args).trans ((callsIn_sublist .group origin args).filter _)
    · exact List.nil_sublist _

end

end Node

open Node

/-- A handler that cannot reach the program decides nothing about what is expanded. -/
theorem Handler.isCooperative_of_tier {handler : Handler} (h : handler.tier ≠ .helper) :
    handler.isCooperative = false := by
  cases handler with
  | context run | toolkit run | helper run => rfl
  | task start => exact absurd rfl h

def Event.appliedCall? : Event → Option Node
  | .applied call => some call
  | _ => none

namespace Job

/-- What the trace says of the application of a macro to a call. -/
def step? (job : Job) (pass : Nat) (bindings : List Binding) (n : Node) : Option Step :=
  match resolveCall bindings n with
  | some (.known module name) => some ⟨pass, name, module, (job.source.site? n).map (·.location)⟩
  | _ => none

/-- One state comes after another, and what happened in between is that macros were applied to
certain calls, in order. -/
structure Expands (job : Job) (calls : List Node) (a b : Run) : Prop where
  bindings : b.bindings = a.bindings
  pass : b.pass = a.pass
  applied : b.applied = a.applied + calls.length
  trace : b.trace = a.trace ++ calls.filterMap (job.step? a.pass a.bindings)
  history : ∃ events, b.history = a.history ++ events ∧ events.filterMap Event.appliedCall? = calls

variable {job : Job} {run run' : Run} {calls more : List Node} {a b c : Run}

theorem Expands.trans (hab : job.Expands calls a b) (hbc : job.Expands more b c) :
    job.Expands (calls ++ more) a c where
  bindings := hbc.bindings.trans hab.bindings
  pass := hbc.pass.trans hab.pass
  applied := by rw [hbc.applied, hab.applied, List.length_append, Nat.add_assoc]
  trace := by
    rw [hbc.trace, hab.trace, hab.pass, hab.bindings, List.filterMap_append, List.append_assoc]
  history := by
    obtain ⟨events, hevents, hcalls⟩ := hab.history
    obtain ⟨events', hevents', hmore⟩ := hbc.history
    refine ⟨events ++ events', ?_, ?_⟩
    · rw [hevents', hevents, List.append_assoc]
    · rw [List.filterMap_append, hcalls, hmore]

/-- Changes of the program, of what is remembered and of what is noted down, and events that are
about these. -/
theorem Expands.aside (events : List Event) (hevents : events.filterMap Event.appliedCall? = [])
    (hbindings : b.bindings = a.bindings) (hpass : b.pass = a.pass) (happlied : b.applied = a.applied)
    (htrace : b.trace = a.trace) (hhistory : b.history = a.history ++ events) :
    job.Expands [] a b where
  bindings := hbindings
  pass := hpass
  applied := happlied
  trace := by rw [htrace]; exact (List.append_nil _).symm
  history := ⟨events, hhistory, hevents⟩

theorem Expands.refl (run : Run) : job.Expands [] run run :=
  .aside [] rfl rfl rfl rfl rfl (List.append_nil _).symm

/-- A macro is applied to a call. -/
theorem Expands.begin {n : Node} {callee : Macro} {module name : String} {invocation : Invocation}
    (hres : resolveCall run.bindings n = some (.known module name)) (hname : callee.name = name)
    (h : job.begin callee module n run = .ok invocation run') :
    job.Expands [n] run run' ∧ run'.body = run.body ∧ invocation.callee = callee := by
  cases h
  refine ⟨⟨rfl, rfl, rfl, ?_, [.applied n], rfl, rfl⟩, rfl, rfl⟩
  have hstep : job.step? run.pass run.bindings n =
      some ⟨run.pass, callee.name, module, (job.source.site? n).map (·.location)⟩ := by
    rw [step?, hres, hname]
  simp only [List.filterMap_cons, hstep, List.filterMap_nil]
  rfl

/-- A handler that sees only its call changes nothing else. -/
theorem expands_apply {w : Walker} {invocation : Invocation} {slot slot' : Node}
    (htier : invocation.callee.handler.tier ≠ .helper)
    (h : job.apply w invocation slot run = .ok slot' run') :
    job.Expands [] run run' ∧ run'.body = run.body := by
  have honContext : ∀ handler : Call → EStateM String Context Unit,
      job.onContext invocation slot handler run = .ok slot' run' →
      job.Expands [] run run' ∧ run'.body = run.body := by
    intro handler h
    unfold onContext at h
    split at h
    · next context _ => cases h; exact ⟨.aside [.left context.slot] rfl rfl rfl rfl rfl rfl, rfl⟩
    · cases h
  unfold apply at h
  cases hhandler : invocation.callee.handler with
  | context handler => rw [hhandler] at h; exact honContext _ h
  | toolkit handler => rw [hhandler] at h; exact honContext _ h
  | helper handler => rw [hhandler] at htier; exact absurd rfl htier
  | task start => rw [hhandler] at htier; exact absurd rfl htier

mutual

/-- Visiting a tree applies macros to the calls that a walk over it meets, and leaves the items of
the program alone. -/
theorem expands_visit {w : Walker} (hlocal : job.registry.All (·.handler.tier ≠ .helper)) :
    ∀ {n n' : Node} {run run' : Run}, job.visit w n run = .ok n' run' →
    job.Expands (n.macroCalls run.bindings) run run' ∧ run'.body = run.body
  | .mk form origin parts, n', run, run', h => by
    rw [visit] at h
    obtain ⟨found, mid, hid, rest⟩ := Expansion.ok_bind h
    obtain ⟨rfl, ⟨rfl, hres⟩ | ⟨callee, module, name, rfl, hres, hfind⟩⟩ := ok_identify hid
    · obtain ⟨parts', mid, hparts, rest⟩ := Expansion.ok_bind rest
      obtain ⟨-, rfl⟩ := Expansion.ok_pure rest
      have hordinary : ¬ isMacroCall run.bindings (.mk form origin parts) = true := by
        rw [isMacroCall, hres]
        exact Bool.false_ne_true
      rw [macroCalls, if_neg hordinary]
      exact expands_visitParts hlocal hparts
    · obtain ⟨invocation, mid, hbegin, rest⟩ := Expansion.ok_bind rest
      obtain ⟨hfirst, hbody, rfl⟩ := Expands.begin hres (Registry.name_of_find? hfind) hbegin
      have htier := hlocal.of_find? hfind
      rw [if_neg (by rw [Handler.isCooperative_of_tier htier]; exact Bool.false_ne_true)] at rest
      obtain ⟨parts', last, hparts, rest⟩ := Expansion.ok_bind rest
      obtain ⟨hargs, hbody'⟩ := expands_visitCall hlocal hparts
      obtain ⟨hlast, hbody''⟩ := expands_apply htier rest
      have hcall : isMacroCall run.bindings (.mk form origin parts) = true := by
        rw [isMacroCall, hres]
      rw [macroCalls, if_pos hcall]
      rw [hfirst.bindings] at hargs
      refine ⟨?_, hbody''.trans (hbody'.trans hbody)⟩
      have hall := (hfirst.trans hargs).trans hlast
      rwa [List.append_nil, List.singleton_append] at hall

theorem expands_visitParts {w : Walker} (hlocal : job.registry.All (·.handler.tier ≠ .helper)) :
    ∀ {parts parts' : List Node} {run run' : Run}, job.visitParts w parts run = .ok parts' run' →
    job.Expands (macroCallsIn run.bindings parts) run run' ∧ run'.body = run.body
  | [], parts', run, run', h => by
    rw [visitParts] at h
    obtain ⟨-, rfl⟩ := Expansion.ok_pure h
    exact ⟨.refl run, rfl⟩
  | n :: rest, parts', run, run', h => by
    rw [visitParts] at h
    obtain ⟨n', mid, hn, h⟩ := Expansion.ok_bind h
    obtain ⟨rest', last, hrest, h⟩ := Expansion.ok_bind h
    obtain ⟨-, rfl⟩ := Expansion.ok_pure h
    obtain ⟨hfirst, hbody⟩ := expands_visit hlocal hn
    obtain ⟨hthen, hbody'⟩ := expands_visitParts hlocal hrest
    rw [hfirst.bindings] at hthen
    exact ⟨hfirst.trans hthen, hbody'.trans hbody⟩

theorem expands_visitCall {w : Walker} (hlocal : job.registry.All (·.handler.tier ≠ .helper)) :
    ∀ {parts parts' : List Node} {run run' : Run}, job.visitCall w parts run = .ok parts' run' →
    job.Expands (macroCallsInCall run.bindings parts) run run' ∧ run'.body = run.body
  | [callee, group, typeArgs], parts', run, run', h => by
    rw [visitCall] at h
    obtain ⟨group', mid, hgroup, h⟩ := Expansion.ok_bind h
    obtain ⟨-, rfl⟩ := Expansion.ok_pure h
    exact expands_visitGroup hlocal hgroup
  | [], _, run, _, h | [_], _, run, _, h | [_, _], _, run, _, h
  | _ :: _ :: _ :: _ :: _, _, run, _, h => by
    obtain ⟨-, rfl⟩ := Expansion.ok_pure h
    exact ⟨.refl run, rfl⟩

theorem expands_visitGroup {w : Walker} (hlocal : job.registry.All (·.handler.tier ≠ .helper)) :
    ∀ {n n' : Node} {run run' : Run}, job.visitGroup w n run = .ok n' run' →
    job.Expands (macroCallsInGroup run.bindings n) run run' ∧ run'.body = run.body
  | .mk form origin args, n', run, run', h => by
    by_cases hgroup : form = .group
    · subst hgroup
      rw [visitGroup] at h
      obtain ⟨args', mid, hargs, h⟩ := Expansion.ok_bind h
      obtain ⟨-, rfl⟩ := Expansion.ok_pure h
      exact expands_visitArguments hlocal hargs
    · rw [visitGroup.eq_2 _ _ _ fun _ _ heq => hgroup (Node.mk.inj heq).1] at h
      obtain ⟨-, rfl⟩ := Expansion.ok_pure h
      rw [macroCallsInGroup.eq_2 _ _ fun _ _ heq => hgroup (Node.mk.inj heq).1]
      exact ⟨.refl run, rfl⟩

theorem expands_visitArguments {w : Walker} (hlocal : job.registry.All (·.handler.tier ≠ .helper)) :
    ∀ {args args' : List Node} {run run' : Run}, job.visitArguments w args run = .ok args' run' →
    job.Expands (macroCallsIn run.bindings args) run run' ∧ run'.body = run.body
  | [], args', run, run', h => by
    rw [visitArguments] at h
    obtain ⟨-, rfl⟩ := Expansion.ok_pure h
    exact ⟨.refl run, rfl⟩
  | n :: rest, args', run, run', h => by
    rw [visitArguments] at h
    obtain ⟨n', mid, hn, h⟩ := Expansion.ok_bind h
    obtain ⟨rest', last, hrest, h⟩ := Expansion.ok_bind h
    obtain ⟨-, rfl⟩ := Expansion.ok_pure h
    obtain ⟨hfirst, hbody⟩ := expands_visit hlocal hn
    obtain ⟨hthen, hbody'⟩ := expands_visitArguments hlocal hrest
    rw [hfirst.bindings] at hthen
    exact ⟨hfirst.trans hthen, hbody'.trans hbody⟩

end

/-- Expanding an item between others applies macros to the calls in it, and leaves the items behind it
as they were. -/
theorem expands_expandItem {w : Walker} (hlocal : job.registry.All (·.handler.tier ≠ .helper))
    {index next : Nat} {item : Node} (hitem : run.body.items[index]? = some item)
    (hidle : run.Idle) (h : job.expandItem w index run = .ok next run') :
    job.Expands (item.macroCalls run.bindings) run run' ∧ run'.Idle ∧
      run'.body.items.drop next = run.body.items.drop (index + 1) := by
  obtain ⟨item', body, item'', mid, hdetach, hvisit, hend⟩ := ok_expandItem h
  obtain ⟨hitem', hitems, hpending⟩ := Body.detach?_places hdetach
  obtain rfl : item = item' := Option.some.inj (hitem.symm.trans hitem')
  obtain ⟨hvisited, hbody⟩ := expands_visit hlocal hvisit
  change mid.body = body at hbody
  -- Taking the item out is no event.
  have hexpands : job.Expands (item.macroCalls run.bindings) run mid :=
    ⟨hvisited.bindings, hvisited.pass, hvisited.applied, hvisited.trace, hvisited.history⟩
  rw [hidle] at hpending
  rw [hbody] at hend
  obtain ⟨-, body', hdiscard, rfl⟩ | ⟨-, place, body', hreattach, rfl, rfl⟩ := hend
  · obtain ⟨rest, hrest, hremove⟩ := Body.discard?_places hdiscard
    obtain ⟨hlt, herase, -, hpending'⟩ := Body.remove?_places hremove
    rw [hpending] at hrest
    cases hrest
    have hdropped : job.Expands [] mid (mid.dropping index body') :=
      .aside [.dropped index] rfl rfl rfl rfl rfl rfl
    refine ⟨List.append_nil (item.macroCalls run.bindings) ▸ hexpands.trans hdropped, hpending', ?_⟩
    have hlength : (run.body.items.take index).length = index :=
      List.length_take_of_le (Nat.le_of_lt (List.getElem?_eq_some_iff.mp hitem).1)
    change body'.items.drop index = _
    rw [herase, hitems, List.eraseIdx_set_eq, List.eraseIdx_eq_take_drop_succ,
      List.drop_left' hlength]
  · obtain ⟨hpending', hset, -⟩ := Body.reattach?_places hreattach
    rw [hpending] at hpending'
    obtain ⟨rfl, hrest⟩ := List.cons.inj hpending'
    refine ⟨⟨hexpands.bindings, hexpands.pass, hexpands.applied, hexpands.trace, hexpands.history⟩,
      hrest.symm, ?_⟩
    change body'.items.drop (index + 1) = _
    rw [hset, hitems, List.set_set, List.drop_set_of_lt (Nat.lt_succ_self index)]

/-- A walk over the items applies macros to the calls in the items that were ahead of it. -/
theorem expands_expandFrom (hlocal : job.registry.All (·.handler.tier ≠ .helper))
    {budget index : Nat} {a : Unit} (hidle : run.Idle)
    (h : job.expandFrom budget index run = .ok a run') :
    job.Expands (macroCallsIn run.bindings (run.body.items.drop index)) run run' := by
  induction budget generalizing index run with
  | zero =>
    obtain ⟨hle, rfl⟩ := ok_expandFrom_zero h
    rw [List.drop_eq_nil_of_le hle]
    exact .refl run
  | succ budget ih =>
    rcases ok_expandFrom_succ h with ⟨hle, rfl⟩ | ⟨hlt, next, mid, hexpand, rest⟩
    · rw [List.drop_eq_nil_of_le hle]
      exact .refl run
    · have hwalked : job.Expands [] run (run.record (.walked index)) :=
        .aside [.walked index] rfl rfl rfl rfl rfl rfl
      have hitem : (run.record (.walked index)).body.items[index]? = some run.body.items[index] :=
        List.getElem?_eq_getElem hlt
      obtain ⟨hfirst, hidle', hdrop⟩ := expands_expandItem hlocal hitem hidle hexpand
      have hthen := ih hidle' rest
      rw [hfirst.bindings, hdrop] at hthen
      rw [List.drop_eq_getElem_cons hlt, macroCallsIn]
      exact hwalked.trans (hfirst.trans hthen)

/-- If no macro can reach beyond its own call, a pass that ends well applies macros to the macro calls
of the program as it was when the pass started, by the bindings and marks of that moment: each once,
an outer one before those inside it and otherwise in the order of the program, where inside a macro
call only the arguments are searched. The trace grows by these, and nothing else is applied. -/
theorem runPass_expands_in_preorder {budget : Nat} {items : List Node} {a : Unit}
    (hlocal : job.registry.All (·.handler.tier ≠ .helper)) (hreach : job.Reaches budget items run)
    (hpass : job.runPass budget run = .ok a run') :
    run'.trace = run.trace ++ (macroCallsIn run.bindings run.body.items).filterMap
      (job.step? (run.pass + 1) run.bindings) ∧
    run'.trace.length = run.trace.length + (macroCallsIn run.bindings run.body.items).length ∧
    (∃ events, run'.history = run.history ++ events ∧
      events.filterMap Event.appliedCall? = macroCallsIn run.bindings run.body.items) ∧
    (macroCallsIn run.bindings run.body.items).Sublist
      ((callsIn run.body.items).filter (isMacroCall run.bindings)) := by
  have hidle : (beginPass run).Idle := hreach.fresh.idle
  have hexpands := expands_expandFrom hlocal hidle hpass
  refine ⟨hexpands.trace, ?_, hexpands.history, macroCallsIn_sublist _⟩
  -- Every application is traced, so no call is left out of the trace.
  obtain ⟨-, hgrows, -⟩ := (job.grows_expandFrom budget 0).ok hidle.sound hidle hpass
  have hcounted := hgrows.1.counted
  have happlied := hexpands.applied
  change 0 + run'.trace.length = run'.applied + run.trace.length at hcounted
  change run'.applied = 0 + (macroCallsIn run.bindings run.body.items).length at happlied
  omega

/-- A module with a macro that becomes its first argument, and a macro that becomes a call of the first
one. -/
def passing : Job where
  registry := ⟨[("m", ⟨.macros
    [⟨"id", .context fun _ => modify fun context =>
      context.replaceWith (context.args.head?.getD Node.undefined), "", compatVersion⟩,
    ⟨"wrap", .toolkit fun _ _ => modify fun context =>
      context.replaceWith (Node.callOf (Node.identifier "id") context.args), "", compatVersion⟩],
    []⟩)]⟩
  source := Source.ofPath "a.js" ""

/-- A program with a call that becomes a call, and one that has a call inside it. -/
def passed : List Node :=
  [(ImportSpec.named "m" "id").toItem, (ImportSpec.named "m" "wrap").toItem,
    Node.build .exprStmt [Node.callOf (Node.identifier "wrap") [Node.callOf (Node.identifier "id") []]],
    Node.build .exprStmt [Node.callOf (Node.identifier "id") [Node.identifier "x"]]]

theorem passing_local : passing.registry.All (·.handler.tier ≠ .helper) := by
  intro entry hentry callee hcallee
  obtain rfl := List.mem_singleton.mp hentry
  rcases List.mem_pair.mp hcallee with rfl | rfl
  · exact Tier.noConfusion
  · exact Tier.noConfusion

/-- The call that the first one becomes is not expanded in the same pass. -/
theorem passing_expands_in_preorder : ∃ run', passing.runPass 4 (passing.start passed) = .ok () run' ∧
    run'.trace = [⟨1, "wrap", "m", none⟩, ⟨1, "id", "m", none⟩, ⟨1, "id", "m", none⟩] := by
  have hsteps : (passing.start passed).trace ++ (macroCallsIn (passing.start passed).bindings
      (passing.start passed).body.items).filterMap (passing.step? 1 (passing.start passed).bindings) =
      [⟨1, "wrap", "m", none⟩, ⟨1, "id", "m", none⟩, ⟨1, "id", "m", none⟩] := by decide +kernel
  cases hpass : passing.runPass 4 (passing.start passed) with
  | ok a run' =>
    obtain ⟨htrace, -⟩ := runPass_expands_in_preorder passing_local .start hpass
    exact ⟨run', rfl, htrace.trans hsteps⟩
  | error halt run' =>
    have hends : (match passing.runPass 4 (passing.start passed) with
        | .ok _ _ => true
        | .error _ _ => false) = true := by decide +kernel
    rw [hpass] at hends
    cases hends

end Job

end CallExpander
