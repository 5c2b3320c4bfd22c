import CallExpander.Proofs.Expansion.Batch

/-!
# Imports are retired in any order

A task may ask for imports one by one, and what is left is retired all at once behind the pass. Either way
an import binds the same names, and what remains of it has nothing left to retire. So which imports were
asked for, and in which order, shows in the order of the bindings only.
-/

namespace CallExpander

open Node

/-! ## Programs -/

/-- An item imports from a macro module, and not only types. -/
def Node.importsMacros (exports : Exports) (item : Node) : Bool :=
  item.importDecl?.any fun decl => !decl.typeOnly && (exports decl.source.value).isSome

def Node.importsType (item : Node) : Bool :=
  item.importDecl?.any fun decl => decl.specifiers.any Binding.isTypeOnly

/-- Something is left of an item, unless it is a macro import that imports no type, and imports are not
kept. -/
def Node.isLeft (exports : Exports) (keepImports : Bool) (item : Node) : Bool :=
  keepImports || !item.importsMacros exports || item.importsType

variable {exports : Exports} {keepImports : Bool} {item : Node} {items : List Node} {retired : Retired}

theorem retireImport_eq_none_iff :
    retireImport exports keepImports item = none ↔ item.importsMacros exports = false := by
  unfold retireImport importsMacros
  cases item.importDecl? with
  | none => simp
  | some decl =>
    cases htype : decl.typeOnly <;> cases hmacros : exports decl.source.value <;> simp [htype, hmacros]

/-- What is left in the place of an item: of a macro import, the types that it imports, without attributes,
and the item itself otherwise. -/
def LeftOf (exports : Exports) (item rest : Node) : Prop :=
  if item.importsMacros exports then
    ∃ decl, item.importDecl? = some decl ∧ rest = .mk (.importDecl
      { decl with specifiers := decl.specifiers.filter Binding.isTypeOnly }) item.origin []
  else rest = item

/-- What a program becomes when its macro imports are retired. -/
structure RetiredTo (exports : Exports) (keepImports : Bool) (items result : List Node) : Prop where
  /-- All other items are unchanged and in the same order. -/
  others : result.filter (fun item => !item.importsMacros exports) =
    items.filter fun item => !item.importsMacros exports
  /-- What is left stands in the order of the items it is left of. -/
  left : List.Forall₂ (LeftOf exports) (items.filter (isLeft exports keepImports)) result
  /-- Where imports are kept, something is left of every item. -/
  length : keepImports = true → result.length = items.length

theorem collectBindings_append (as bs : List Node) :
    collectBindings exports keepImports (as ++ bs) =
      ((collectBindings exports keepImports as).1 ++ (collectBindings exports keepImports bs).1,
        (collectBindings exports keepImports as).2 ++ (collectBindings exports keepImports bs).2) := by
  induction as with
  | nil => rfl
  | cons item rest ih =>
    rw [List.cons_append, collectBindings, ih, collectBindings]
    cases retireImport exports keepImports item with
    | none => rfl
    | some retired => simp only [List.append_assoc]

theorem collectBindings_of_some (h : retireImport exports keepImports item = some retired)
    (items : List Node) : collectBindings exports keepImports (item :: items) =
      (retired.bindings ++ (collectBindings exports keepImports items).1,
        retired.remains.toList ++ (collectBindings exports keepImports items).2) := by
  simp only [collectBindings, h]

/-- An import that is retired ahead of time binds its names ahead of time, and what remains of it stays as
it is. -/
theorem collectBindings_ahead (h : retireImport exports keepImports item = some retired)
    (before after : List Node) :
    (collectBindings exports keepImports (before ++ retired.remains.toList ++ after)).2 =
        (collectBindings exports keepImports (before ++ item :: after)).2 ∧
      (retired.bindings ++
          (collectBindings exports keepImports (before ++ retired.remains.toList ++ after)).1).Perm
        (collectBindings exports keepImports (before ++ item :: after)).1 := by
  have hremains : collectBindings exports keepImports retired.remains.toList =
      ([], retired.remains.toList) :=
    collectBindings_of_spent fun rest hrest => spent_remains h (Option.mem_toList.mp hrest)
  simp only [collectBindings_append, collectBindings_of_some h, hremains, List.append_nil]
  refine ⟨by rw [List.append_assoc], ?_⟩
  rw [← List.append_assoc, ← List.append_assoc]
  exact List.perm_append_comm.append_right _

/-- What retiring an import leaves in its place: the import of its types, or nothing if there are none and
imports are not kept. -/
theorem remains_cases (h : retireImport exports keepImports item = some retired) :
    item.importsMacros exports = true ∧
      ((∃ rest, retired.remains = some rest ∧ (keepImports || item.importsType) = true ∧
          rest.importsMacros exports = true ∧ LeftOf exports item rest) ∨
        retired.remains = none ∧ (keepImports || item.importsType) = false) := by
  obtain ⟨decl, macros, hdecl, htype, hmacros, -, hremains⟩ := retireImport_eq_some h
  have himports : item.importsMacros exports = true := by
    simp [importsMacros, hdecl, htype, hmacros]
  have htypes : item.importsType = !(decl.specifiers.filter Binding.isTypeOnly).isEmpty := by
    rw [importsType, hdecl, Option.any_some, Bool.eq_iff_iff]
    simp
  refine ⟨himports, ?_⟩
  rw [htypes, hremains]
  split
  · next hkeep =>
    refine .inl ⟨_, rfl, hkeep, ?_, ?_⟩
    · simp [importsMacros, importDecl?, form, htype, hmacros]
    · rw [LeftOf, if_pos himports]
      exact ⟨decl, hdecl, rfl⟩
  · next hkeep => exact .inr ⟨rfl, by simpa using hkeep⟩

theorem retiredTo_collectBindings (exports : Exports) (keepImports : Bool) (items : List Node) :
    RetiredTo exports keepImports items (collectBindings exports keepImports items).2 := by
  induction items with
  | nil => exact ⟨rfl, .nil, fun _ => rfl⟩
  | cons item rest ih =>
    obtain ⟨hothers, hleft, hlength⟩ := ih
    simp only [collectBindings]
    cases hretire : retireImport exports keepImports item with
    | none =>
      have hother := retireImport_eq_none_iff.mp hretire
      have hstays : item.isLeft exports keepImports = true := by
        simp [isLeft, hother]
      refine ⟨?_, ?_, fun hkeep => congrArg (· + 1) (hlength hkeep)⟩
      · rw [List.filter_cons_of_pos (by simp [hother]), List.filter_cons_of_pos (by simp [hother]), hothers]
      · rw [List.filter_cons_of_pos hstays]
        exact .cons (by rw [LeftOf, if_neg (by simp [hother])]) hleft
    | some retired =>
      obtain ⟨himports, hremains⟩ := remains_cases hretire
      have hstays : item.isLeft exports keepImports = (keepImports || item.importsType) := by
        rw [isLeft, himports, Bool.not_true, Bool.or_false]
      obtain ⟨left, hleftOf, hkept, hagain, hitem⟩ | ⟨hgone, hdropped⟩ := hremains
      · simp only [hleftOf, Option.toList_some, List.singleton_append]
        refine ⟨?_, ?_, fun hkeep => congrArg (· + 1) (hlength hkeep)⟩
        · rw [List.filter_cons_of_neg (by simp [hagain]), List.filter_cons_of_neg (by simp [himports]),
            hothers]
        · rw [List.filter_cons_of_pos (hstays.trans hkept)]
          exact .cons hitem hleft
      · simp only [hgone, Option.toList_none, List.nil_append]
        refine ⟨?_, ?_, fun hkeep => ?_⟩
        · rw [List.filter_cons_of_neg (by simp [himports]), hothers]
        · rwa [List.filter_cons_of_neg (by simp [hstays, hdropped])]
        · rw [hkeep, Bool.true_or] at hdropped
          cases hdropped

/-! ## Requests -/

/-- Different imports stand at some places, and none of them is out. -/
structure Body.Importing (body : Body) (places : List Nat) : Prop where
  nodup : places.Nodup
  free : ∀ place ∈ places, place ∉ body.pending
  imports : ∀ place ∈ places, ∃ item, body.items[place]? = some item ∧ item.importDecl?.isSome = true

theorem Body.Importing.tail {body : Body} {place : Nat} {places : List Nat}
    (h : body.Importing (place :: places)) : body.Importing places where
  nodup := (List.nodup_cons.mp h.nodup).2
  free other hother := h.free other (List.mem_cons_of_mem _ hother)
  imports other hother := h.imports other (List.mem_cons_of_mem _ hother)

theorem Body.Importing.set {body : Body} {place : Nat} {places : List Nat}
    (h : body.Importing (place :: places)) (rest : Node) :
    Body.Importing { body with items := body.items.set place rest } places := by
  obtain ⟨hrest, hfree, himports⟩ := h.tail
  refine ⟨hrest, hfree, fun other hother => ?_⟩
  have hne : place ≠ other := fun heq => (List.nodup_cons.mp h.nodup).1 (heq ▸ hother)
  obtain ⟨item, hitem, himport⟩ := himports other hother
  exact ⟨item, (List.getElem?_set_ne hne).trans hitem, himport⟩

/-- Where an import is dropped, the others move up. -/
theorem Body.Importing.remove {body body' : Body} {place : Nat} {places : List Nat}
    (h : body.Importing (place :: places)) (hremove : body.remove? place = some body') :
    body'.Importing (places.map (Body.unshift place)) := by
  obtain ⟨hrest, hfree, himports⟩ := h.tail
  obtain ⟨-, hitems, -, hpending⟩ := Body.remove?_places hremove
  have hne : ∀ other ∈ places, other ≠ place := fun other hother heq =>
    (List.nodup_cons.mp h.nodup).1 (heq ▸ hother)
  refine ⟨hrest.map_on fun a ha b hb => Body.unshift_injOn place (hne a ha) (hne b hb), ?_, ?_⟩
  · intro moved hmoved hout
    obtain ⟨other, hother, rfl⟩ := List.mem_map.mp hmoved
    rw [hpending] at hout
    obtain ⟨out, hout, heq⟩ := List.mem_map.mp hout
    have houtside : out ≠ place := fun heq => h.free place List.mem_cons_self (heq ▸ hout)
    cases Body.unshift_injOn place houtside (hne other hother) heq
    exact hfree other hother hout
  · intro moved hmoved
    obtain ⟨other, hother, rfl⟩ := List.mem_map.mp hmoved
    obtain ⟨item, hitem, himport⟩ := himports other hother
    rw [hitems]
    exact ⟨item, (Body.getElem?_unshift (hne other hother)).trans hitem, himport⟩

namespace Job

variable {job : Job} {w : Walker} {invocation : Invocation} {slot : Node} {run : Run}

/-- Serves a request for each of several imports, given by the places at which they stood at first; `move`
tells where they stand by now. -/
def retireEach (job : Job) (w : Walker) (invocation : Invocation) (slot : Node) (move : Nat → Nat) :
    List Nat → Expansion Unit
  | [] => return ()
  | place :: rest => do
    let size := (← get).body.size
    let _ ← job.fulfil w invocation slot (.import (move place))
    if (← get).body.size < size then
      job.retireEach w invocation slot (Body.unshift (move place) ∘ move) rest
    else job.retireEach w invocation slot move rest

/-- The names that are bound once all imports that are left are retired, and the program then. -/
def gathered (job : Job) (run : Run) : List Binding × List Node :=
  let (found, items) := collectBindings job.registry.exports job.options.keepImports run.body.items
  (run.bindings ++ found, items)

/-- Two states come to the same program once all imports that are left are retired, and the same names are
bound then, if in another order. -/
structure ComesToSame (job : Job) (a b : Run) : Prop where
  items : (job.gathered a).2 = (job.gathered b).2
  names : (job.gathered a).1.Perm (job.gathered b).1

theorem ComesToSame.trans {a b c : Run} (hab : job.ComesToSame a b) (hbc : job.ComesToSame b c) :
    job.ComesToSame a c where
  items := hab.items.trans hbc.items
  names := hab.names.trans hbc.names

theorem collectImport_eq (job : Job) (invocation : Invocation) {place : Nat} {item : Node}
    (hitem : run.body.items[place]? = some item) (himport : item.importDecl?.isSome = true) :
    job.collectImport invocation place run =
      match retireImport job.registry.exports job.options.keepImports item with
      | none => .ok () run
      | some retired =>
        match run.retiring? place retired with
        | some after => .ok () after
        | none => .error .lostItem run := by
  have hsome : ¬ item.importDecl?.isNone = true := by
    simpa [Option.isSome_iff_ne_none] using himport
  rw [collectImport, Expansion.get_bind]
  simp only [hitem, if_neg hsome]
  cases retireImport job.registry.exports job.options.keepImports item with
  | none => rfl
  | some retired => cases hretire : run.retiring? place retired <;> simp only [hretire] <;> rfl

/-- It comes to the same if an import is retired ahead of time. -/
theorem comesToSame_of_retiring {place : Nat} {item : Node} {retired : Retired} {after : Run}
    (hitem : run.body.items[place]? = some item)
    (hretire : retireImport job.registry.exports job.options.keepImports item = some retired)
    (h : run.retiring? place retired = some after) : job.ComesToSame after run := by
  obtain ⟨hlt, rfl⟩ := List.getElem?_eq_some_iff.mp hitem
  have hitems : after.body.items =
      run.body.items.take place ++ retired.remains.toList ++ run.body.items.drop (place + 1) := by
    obtain ⟨rest, hremains, rfl⟩ | ⟨body, hremains, hremove, rfl⟩ := Run.retiring?_cases h
    · simp [hremains, List.set_eq_take_append_cons_drop, hlt]
    · obtain ⟨-, hitems, -, -⟩ := Body.remove?_places hremove
      change body.items = _
      simp [hitems, hremains, List.eraseIdx_eq_take_drop_succ]
  have hbindings : after.bindings = run.bindings ++ retired.bindings := by
    obtain ⟨rest, -, rfl⟩ | ⟨body, -, -, rfl⟩ := Run.retiring?_cases h <;> rfl
  have hsplit : run.body.items =
      run.body.items.take place ++ run.body.items[place] :: run.body.items.drop (place + 1) := by
    rw [← List.drop_eq_getElem_cons hlt, List.take_append_drop]
  obtain ⟨hsame, hperm⟩ := collectBindings_ahead hretire (run.body.items.take place)
    (run.body.items.drop (place + 1))
  rw [← hsplit, ← hitems] at hsame hperm
  refine ⟨hsame, ?_⟩
  simp only [gathered, hbindings, List.append_assoc]
  exact hperm.append_left _

/-- An import that is there can be retired. -/
theorem exists_retiring {place : Nat} (hlt : place < run.body.size) (retired : Retired) :
    ∃ after, run.retiring? place retired = some after := by
  unfold Run.retiring?
  cases retired.remains with
  | some rest => exact ⟨_, rfl⟩
  | none =>
    rw [Body.remove?, if_pos hlt]
    exact ⟨_, rfl⟩

/-- Where an import was retired, the others are left standing. -/
theorem importing_of_retiring {place : Nat} {places : List Nat} {retired : Retired} {after : Run}
    (h : run.body.Importing (place :: places)) (hretiring : run.retiring? place retired = some after) :
    after.body.Importing
      (if after.body.size < run.body.size then places.map (Body.unshift place) else places) := by
  obtain ⟨rest, -, rfl⟩ | ⟨body, -, hremove, rfl⟩ := Run.retiring?_cases hretiring
  · rw [if_neg (by simp)]
    exact h.set rest
  · obtain ⟨-, -, hsize, -⟩ := Body.remove?_places hremove
    rw [if_pos (by change body.size < _; omega)]
    exact h.remove hremove

/-- A request for an import is served, and leaves the other imports standing. -/
theorem fulfil_import (job : Job) (w : Walker) (invocation : Invocation) (slot : Node) {place : Nat}
    {places : List Nat} (h : run.body.Importing (place :: places)) :
    ∃ after, job.fulfil w invocation slot (.import place) run = .ok slot after ∧
      after.body.Importing
        (if after.body.size < run.body.size then places.map (Body.unshift place) else places) ∧
      job.ComesToSame after run := by
  obtain ⟨item, hitem, himport⟩ := h.imports place List.mem_cons_self
  have hlt : place < run.body.size := (List.getElem?_eq_some_iff.mp hitem).1
  have hserved : ∀ after, job.collectImport invocation place run = .ok () after →
      job.fulfil w invocation slot (.import place) run = .ok slot after := by
    intro after hcollect
    rw [fulfil_of_free invocation slot rfl hlt (h.free place List.mem_cons_self)]
    exact Expansion.bind_of_ok hcollect
  have hcollect := collectImport_eq job invocation hitem himport
  cases hretire : retireImport job.registry.exports job.options.keepImports item with
  | none =>
    rw [hretire] at hcollect
    refine ⟨run, hserved run hcollect, ?_, rfl, .refl _⟩
    rw [if_neg (Nat.lt_irrefl _)]
    exact h.tail
  | some retired =>
    obtain ⟨after, hafter⟩ := exists_retiring hlt retired
    simp only [hretire, hafter] at hcollect
    exact ⟨after, hserved after hcollect, importing_of_retiring h hafter,
      comesToSame_of_retiring hitem hretire hafter⟩

/-- Requests for imports one by one are served, in whatever order. -/
theorem ok_retireEach (w : Walker) (invocation : Invocation) (slot : Node) (places : List Nat) :
    ∀ {move : Nat → Nat} {run : Run}, run.body.Importing (places.map move) →
      ∃ after, job.retireEach w invocation slot move places run = .ok () after ∧
        job.ComesToSame after run := by
  induction places with
  | nil => exact fun _ => ⟨_, rfl, rfl, .refl _⟩
  | cons place rest ih =>
    intro move run h
    obtain ⟨mid, hserved, hstanding, hsame⟩ := fulfil_import job w invocation slot h
    have hsteps : job.retireEach w invocation slot move (place :: rest) run =
        (if mid.body.size < run.body.size then
          job.retireEach w invocation slot (Body.unshift (move place) ∘ move) rest
        else job.retireEach w invocation slot move rest) mid := by
      rw [retireEach, Expansion.get_bind, Expansion.bind_of_ok hserved, Expansion.get_bind]
    have hrest : ∀ moved, mid.body.Importing (rest.map moved) →
        ∃ after, job.retireEach w invocation slot moved rest mid = .ok () after ∧
          job.ComesToSame after run := by
      intro moved hmoved
      obtain ⟨after, hafter, hlater⟩ := ih hmoved
      exact ⟨after, hafter, hlater.trans hsame⟩
    rw [hsteps]
    by_cases hdropped : mid.body.size < run.body.size
    · rw [if_pos hdropped, List.map_map] at hstanding
      rw [if_pos hdropped]
      exact hrest _ hstanding
    · rw [if_neg hdropped] at hstanding ⊢
      exact hrest _ hstanding

/-- Imports are retired to the same effect in any order. For different imports of a program, of which none
is out, requests one after the other, each for the place at which its import stands by then, are served.
When the imports that are left are retired after that, the program is what it becomes if all are retired
at once, and the same names are bound, but for their order. And in what it becomes all items but the macro
imports are unchanged and in the same order, something is left of every item if imports are kept, and of
every one but the macro imports that import no type if not. -/
theorem imports_retire_in_any_order (job : Job) (w : Walker) (invocation : Invocation) (slot : Node)
    (run : Run) (places : List Nat) (h : run.body.Importing places) :
    (∃ after, job.retireEach w invocation slot id places run = .ok () after ∧
      job.ComesToSame after run) ∧
    RetiredTo job.registry.exports job.options.keepImports run.body.items (job.gathered run).2 :=
  ⟨ok_retireEach w invocation slot places (by rwa [List.map_id]),
    retiredTo_collectBindings _ _ run.body.items⟩

def typeImport : ImportSpecifier := .named ⟨"T", .built⟩ none true .built

/-- A program that imports a macro, something else, and another macro with a type, while its last item is
out. -/
def halfway : Run where
  body := {
    items := [(ImportSpec.named "m" "a").toItem, (ImportSpec.default "x" "x").toItem,
      build (.importDecl {
        specifiers := [.named ⟨"b", .built⟩ none false .built, typeImport], source := ⟨"m", none⟩ }),
      emptyStatement]
    pending := [3] }
  bindings := []

/-- The import with the type is asked for first and stays, the first one goes away, and the one behind it
moves up and is left alone. -/
theorem halfway_retires_in_any_order :
    halfway.body.Importing [2, 0, 1] ∧ ∃ after,
      (collecting false).retireEach ((collecting false).walker 0) default emptyStatement id [2, 0, 1]
        halfway = .ok () after ∧
      ((collecting false).gathered after).2 = [(ImportSpec.default "x" "x").toItem,
        build (.importDecl { specifiers := [typeImport], source := ⟨"m", none⟩ }), emptyStatement] ∧
      ((collecting false).gathered after).1.Perm
        [.named "a" "m" "a" (some "a"), .named "b" "m" "b" (some "b")] := by
  have himporting : halfway.body.Importing [2, 0, 1] := by
    refine ⟨by decide, by decide, fun place hplace => ?_⟩
    simp only [List.mem_cons, List.not_mem_nil, or_false] at hplace
    rcases hplace with rfl | rfl | rfl <;> exact ⟨_, rfl, rfl⟩
  obtain ⟨⟨after, hserved, hsame⟩, -⟩ := imports_retire_in_any_order (collecting false)
    ((collecting false).walker 0) default emptyStatement halfway [2, 0, 1] himporting
  exact ⟨himporting, after, hserved, hsame.items, hsame.names⟩

end Job

end CallExpander
