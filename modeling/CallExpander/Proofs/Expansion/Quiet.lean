import CallExpander.Proofs.Expansion.Passes

/-!
# Quiet passes

A part of an expansion that applies no macro is quiet. It has looked at every call of the trees it
was given and found none of them to be a macro call, and it changes nothing but that markers of
removed calls are cleaned up.
-/

namespace CallExpander

/-- No call in a tree is the call of a macro, known or unknown. -/
def Node.Inert (bindings : List Binding) (n : Node) : Prop :=
  ∀ call ∈ n.calls, resolveCall bindings call = none

theorem Node.mem_callsIn {parts : List Node} {call : Node} :
    call ∈ Node.callsIn parts ↔ ∃ n ∈ parts, call ∈ n.calls := by
  induction parts with
  | nil => simp [Node.callsIn]
  | cons n rest ih => simp [Node.callsIn, ih]

/-- What can only fail of calls holds of the calls in a tree if it holds of the tree and of the calls in
its parts. -/
theorem Node.forall_calls_mk {P : Node → Prop} {form : Form} {origin : Origin} {parts : List Node}
    (hother : form ≠ .call → P (.mk form origin parts)) :
    (∀ call ∈ (Node.mk form origin parts).calls, P call) ↔
      P (.mk form origin parts) ∧ ∀ n ∈ parts, ∀ call ∈ n.calls, P call := by
  have hin : (∀ call ∈ Node.callsIn parts, P call) ↔ ∀ n ∈ parts, ∀ call ∈ n.calls, P call := by
    simp only [Node.mem_callsIn]
    exact ⟨fun h n hn call hcall => h call ⟨n, hn, hcall⟩,
      fun h call ⟨n, hn, hcall⟩ => h n hn call hcall⟩
  rw [← hin]
  cases form
  case call => exact List.forall_mem_cons
  all_goals exact ⟨fun h => ⟨hother (by simp), h⟩, fun h => h.2⟩

theorem Node.inert_mk {bindings : List Binding} {form : Form} {origin : Origin} {parts : List Node} :
    Node.Inert bindings (.mk form origin parts) ↔
      resolveCall bindings (.mk form origin parts) = none ∧ ∀ n ∈ parts, n.Inert bindings := by
  refine Node.forall_calls_mk fun hother => ?_
  cases form
  case call => exact absurd rfl hother
  all_goals rfl

namespace Job

variable {job : Job} {run run' : Run} {w : Walker}

/-- Once a macro is applied, the count has grown for good. -/
theorem applied_lt_of_begin {α : Type} {f : Invocation → Expansion α} {callee : Macro}
    {module : String} {n : Node} {a : α} (hs : run.body.Sound)
    (hf : ∀ invocation, (growth job).Keeps (fun _ => True) (f invocation) fun _ _ => True)
    (h : (job.begin callee module n >>= f) run = .ok a run') : run.applied < run'.applied := by
  obtain ⟨invocation, mid, hbegin, rest⟩ := Expansion.ok_bind h
  have hmid : mid.body.Sound := by
    cases hbegin
    exact hs
  obtain ⟨-, hr, -⟩ := (hf invocation).ok hmid trivial rest
  have hle := hr.1.applied
  cases hbegin
  exact Nat.lt_of_succ_le hle

mutual

/-- A quiet visit of a tree finds no macro call in it and changes nothing. -/
theorem quiet_visit (hw : (growth job).Serves w) : ∀ {n n' : Node} {run run' : Run},
    run.body.Sound → job.visit w n run = .ok n' run' → run'.applied = run.applied →
    n' = n ∧ run' = run ∧ n.Inert run.bindings
  | .mk form origin parts, n', run, run', hs, h, hq => by
    rw [visit] at h
    obtain ⟨found, mid, hid, rest⟩ := Expansion.ok_bind h
    obtain ⟨rfl, ⟨rfl, hres⟩ | ⟨callee, module, name, rfl, -, -⟩⟩ := ok_identify hid
    · obtain ⟨parts', mid, hparts, rest⟩ := Expansion.ok_bind rest
      obtain ⟨rfl, rfl⟩ := Expansion.ok_pure rest
      obtain ⟨rfl, rfl, hinert⟩ := quiet_visitParts hw hs hparts hq
      exact ⟨rfl, rfl, Node.inert_mk.mpr ⟨hres, hinert⟩⟩
    -- The call of a macro would have been counted.
    · have hlt := applied_lt_of_begin hs ?_ rest
      · omega
      intro invocation
      have happly := Discipline.keeps_apply hw (growth_makes job invocation.callee.handler)
      split
      · exact (happly _).mono (fun _ _ => trivial) fun _ _ _ => trivial
      · refine (Discipline.keeps_visitCall hw parts).mono ?_ (fun _ _ h => h) |>.bind fun parts' => ?_
        · exact fun _ _ _ _ => trivial
        · exact (happly _).mono (fun _ _ => trivial) fun _ _ _ => trivial

theorem quiet_visitParts (hw : (growth job).Serves w) : ∀ {parts parts' : List Node} {run run' : Run},
    run.body.Sound → job.visitParts w parts run = .ok parts' run' → run'.applied = run.applied →
    parts' = parts ∧ run' = run ∧ ∀ n ∈ parts, n.Inert run.bindings
  | [], parts', run, run', _, h, _ => by
    rw [visitParts] at h
    obtain ⟨rfl, rfl⟩ := Expansion.ok_pure h
    exact ⟨rfl, rfl, by simp⟩
  | n :: rest, parts', run, run', hs, h, hq => by
    rw [visitParts] at h
    obtain ⟨n', mid, hn, h⟩ := Expansion.ok_bind h
    obtain ⟨rest', last, hrest, h⟩ := Expansion.ok_bind h
    obtain ⟨rfl, rfl⟩ := Expansion.ok_pure h
    obtain ⟨hs', hr, -⟩ := (Discipline.keeps_visit hw n).ok hs trivial hn
    obtain ⟨-, hr', -⟩ := (Discipline.keeps_visitParts hw rest).ok hs' (fun _ _ => trivial) hrest
    have h1 := hr.1.applied
    have h2 := hr'.1.applied
    obtain ⟨rfl, rfl, hinert⟩ := quiet_visit hw hs hn (by omega)
    obtain ⟨rfl, rfl, hinert'⟩ := quiet_visitParts hw hs hrest (by omega)
    exact ⟨rfl, rfl, List.forall_mem_cons.mpr ⟨hinert, hinert'⟩⟩

end

/-- A quiet expansion of an item finds no macro call in it, and cleans it up. -/
theorem quiet_expandItem (hw : (growth job).Serves w) {index next : Nat} (hs : run.body.Sound)
    (hfree : index ∉ run.body.pending) (h : job.expandItem w index run = .ok next run')
    (hq : run'.applied = run.applied) :
    ∃ item, run.body.items[index]? = some item ∧ item.Inert run.bindings ∧
      run'.bindings = run.bindings ∧ run'.trace = run.trace ∧
      (item.isRemovedStatement = true ∧ next = index ∧
          run'.body.items = run.body.items.eraseIdx index ∨
        item.isRemovedStatement = false ∧ next = index + 1 ∧
          run'.body.items = run.body.items.set index item.sweep) := by
  obtain ⟨item, body, item', mid, hdetach, hvisit, hend⟩ := ok_expandItem h
  obtain ⟨hitem, hitems, hpending⟩ := Body.detach?_places hdetach
  have hsound : body.Sound := hs.detach hfree hdetach
  have hmid : mid.applied = run.applied := by
    obtain ⟨-, body', -, rfl⟩ | ⟨-, place, body', -, -, rfl⟩ := hend
    · exact hq
    · exact hq
  obtain ⟨rfl, rfl, hinert⟩ := quiet_visit hw hsound hvisit hmid
  refine ⟨item', hitem, hinert, ?_⟩
  obtain ⟨hremoved, body', hdiscard, rfl⟩ | ⟨hremoved, place, body', hreattach, rfl, rfl⟩ := hend
  · obtain ⟨rest, hrest, hremove⟩ := Body.discard?_places hdiscard
    obtain ⟨-, herase, -, -⟩ := Body.remove?_places hremove
    rw [hpending] at hrest
    cases hrest
    refine ⟨rfl, rfl, .inl ⟨hremoved, rfl, ?_⟩⟩
    change body'.items = _
    rw [herase, hitems, List.eraseIdx_set_eq]
  · obtain ⟨hplace, hset, -⟩ := Body.reattach?_places hreattach
    rw [hpending] at hplace
    obtain rfl := (List.cons.inj hplace).1
    refine ⟨rfl, rfl, .inr ⟨hremoved, rfl, ?_⟩⟩
    change body'.items = _
    rw [hset, hitems, List.set_set]

/-- A quiet walk over the items finds no macro call in them, and cleans them up. -/
theorem quiet_expandFrom {budget index : Nat} {a : Unit} (hidle : run.Idle)
    (h : job.expandFrom budget index run = .ok a run') (hq : run'.applied = run.applied) :
    run'.bindings = run.bindings ∧
      run'.body.items =
        run.body.items.take index ++ Node.sweepStatements (run.body.items.drop index) ∧
      ∀ item ∈ run.body.items.drop index, item.Inert run.bindings := by
  induction budget generalizing index run with
  | zero =>
    obtain ⟨hle, rfl⟩ := ok_expandFrom_zero h
    have hdrop : run.body.items.drop index = [] := List.drop_eq_nil_of_le hle
    rw [hdrop, List.take_of_length_le hle]
    exact ⟨rfl, by simp [Node.sweepStatements], by simp⟩
  | succ budget ih =>
    rcases ok_expandFrom_succ h with ⟨hle, rfl⟩ | ⟨hlt, next, mid, hitem, rest⟩
    · have hdrop : run.body.items.drop index = [] := List.drop_eq_nil_of_le hle
      rw [hdrop, List.take_of_length_le hle]
      exact ⟨rfl, by simp [Node.sweepStatements], by simp⟩
    · have hidle' : (run.record (.walked index)).Idle := hidle
      have hfree := hidle'.free index
      have hw := (growth job).serves_walker budget
      obtain ⟨-, hr, -⟩ := (Discipline.keeps_expandItem hw index).ok hidle'.sound ⟨hlt, hfree⟩ hitem
      have hmid := idle_expandItem hidle' hitem
      obtain ⟨-, hr', -⟩ := (job.grows_expandFrom budget next).ok hmid.sound hmid rest
      have h1 : run.applied ≤ mid.applied := hr.1.applied
      have h2 := hr'.1.applied
      obtain ⟨item, hget, hinert, hbindings, -, hcases⟩ :=
        quiet_expandItem hw hidle'.sound hfree hitem (by change _ = run.applied; omega)
      obtain ⟨hbindings', hitems, hrest⟩ := ih hmid rest (by omega)
      change run.body.items[index]? = some item at hget
      change mid.bindings = run.bindings at hbindings
      have hdrop : run.body.items.drop index = item :: run.body.items.drop (index + 1) := by
        obtain ⟨hlt', rfl⟩ := List.getElem?_eq_some_iff.mp hget
        exact List.drop_eq_getElem_cons hlt'
      have hlength : (run.body.items.take index).length = index :=
        List.length_take_of_le (Nat.le_of_lt hlt)
      rw [hbindings] at hbindings' hrest
      -- The item is gone or cleaned up, and the rest of the walk starts right behind what is left.
      obtain ⟨hremoved, rfl, herase⟩ | ⟨hremoved, rfl, hset⟩ := hcases
      · have hmid : mid.body.items =
            run.body.items.take next ++ run.body.items.drop (next + 1) := by
          rw [herase, List.eraseIdx_eq_take_drop_succ]
          rfl
        rw [hmid, List.drop_left' hlength, List.take_left' hlength] at hitems
        rw [hmid, List.drop_left' hlength] at hrest
        rw [hdrop, Node.sweepStatements, if_pos hremoved]
        refine ⟨hbindings', hitems, List.forall_mem_cons.mpr ⟨hinert, hrest⟩⟩
      · change mid.body.items = run.body.items.set index item.sweep at hset
        have hmid : mid.body.items =
            (run.body.items.take index ++ [item.sweep]) ++ run.body.items.drop (index + 1) := by
          have hlt' : index < run.body.items.length := hlt
          rw [hset, List.set_eq_take_append_cons_drop, if_pos hlt', List.append_assoc]
          rfl
        have hlength' : (run.body.items.take index ++ [item.sweep]).length = index + 1 := by
          rw [List.length_append, hlength, List.length_singleton]
        rw [hmid, List.drop_left' hlength', List.take_left' hlength'] at hitems
        rw [hmid, List.drop_left' hlength'] at hrest
        rw [hdrop, Node.sweepStatements, if_neg (by simp [hremoved])]
        refine ⟨hbindings', ?_, List.forall_mem_cons.mpr ⟨hinert, hrest⟩⟩
        rw [hitems, List.append_assoc, List.singleton_append]

end Job

end CallExpander
