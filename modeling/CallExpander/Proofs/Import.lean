import CallExpander.Import.Resolution
import CallExpander.Proofs.Tree.Marking

/-!
# Imports and callees under cleaning up and marking

What is left of a macro import after it was retired makes no bindings and stays as it is. Neither
marking names nor cleaning up changes an import, and cleaning up does not change what a call stands
for.
-/

namespace CallExpander

open Node

/-! ## Retired imports -/

/-- An item that has nothing left to retire. -/
def Retired.Spent (exports : Exports) (keepImports : Bool) (item : Node) : Prop :=
  retireImport exports keepImports item = none ∨
    retireImport exports keepImports item = some ⟨[], some item⟩

theorem retireImport_none_congr {exports : Exports} {keepImports : Bool} {a b : Node}
    (hdecl : b.importDecl? = a.importDecl?) (h : retireImport exports keepImports a = none) :
    retireImport exports keepImports b = none := by
  unfold retireImport at h ⊢
  rw [hdecl]
  split at h
  · rfl
  · next decl hdecl =>
    simp only at h ⊢
    split at h
    · next htype => rw [if_pos htype]
    · next htype =>
      rw [if_neg htype]
      split at h
      · rfl
      · cases h

/-- What is retired is an import from a macro module, and not of types only. It binds names of that
module, and what remains of it is the import of the types. -/
theorem retireImport_eq_some {exports : Exports} {keepImports : Bool} {item : Node} {retired : Retired}
    (h : retireImport exports keepImports item = some retired) :
    ∃ decl macros, item.importDecl? = some decl ∧ decl.typeOnly = false ∧
      exports decl.source.value = some macros ∧ retired.bindings = Binding.ofDecl decl macros ∧
      retired.remains =
        if keepImports || !(decl.specifiers.filter Binding.isTypeOnly).isEmpty then
          some (.mk (.importDecl { decl with specifiers := decl.specifiers.filter Binding.isTypeOnly })
            item.origin [])
        else none := by
  unfold retireImport at h
  split at h
  · cases h
  next decl hdecl =>
  split at h
  · cases h
  next htype =>
  split at h
  · cases h
  next macros hmacros =>
  cases h
  exact ⟨decl, macros, hdecl, by simpa using htype, hmacros, rfl, rfl⟩

/-- What an import becomes has nothing left to retire. -/
theorem spent_remains {exports : Exports} {keepImports : Bool} {item rest : Node} {retired : Retired}
    (h : retireImport exports keepImports item = some retired) (hrest : retired.remains = some rest) :
    Retired.Spent exports keepImports rest := by
  obtain ⟨decl, macros, -, htype, hmacros, -, hremains⟩ := retireImport_eq_some h
  rw [hremains] at hrest
  split at hrest <;> cases hrest
  next hkeep =>
  right
  have hbindings : ∀ rest : ImportDecl,
      rest.specifiers = decl.specifiers.filter Binding.isTypeOnly → Binding.ofDecl rest macros = [] := by
    intro rest hrest
    simp [Binding.ofDecl, hrest, List.filter_filter]
  simp only [retireImport, Node.importDecl?, Node.form, Node.origin, htype, hmacros,
    List.filter_filter, Bool.and_self, hkeep, Bool.false_eq_true, if_false, if_true]
  rw [hbindings _ rfl]

/-- What remains of a retired import is an import. -/
theorem remains_eq {exports : Exports} {keepImports : Bool} {item rest : Node} {retired : Retired}
    (h : retireImport exports keepImports item = some retired) (hrest : retired.remains = some rest) :
    ∃ decl, rest = .mk (.importDecl decl) item.origin [] := by
  obtain ⟨decl, macros, -, -, -, -, hremains⟩ := retireImport_eq_some h
  rw [hremains] at hrest
  split at hrest <;> cases hrest
  exact ⟨_, rfl⟩

/-- Among the items that are left are those that were no macro imports, and what remains of these. -/
theorem forall_collectBindings {exports : Exports} {keepImports : Bool} {P : Node → Prop}
    {items : List Node} (hother : ∀ item ∈ items, retireImport exports keepImports item = none → P item)
    (hremains : ∀ {item retired rest}, item ∈ items →
      retireImport exports keepImports item = some retired → retired.remains = some rest → P rest) :
    ∀ item ∈ (collectBindings exports keepImports items).2, P item := by
  induction items with
  | nil => intro item hitem; cases hitem
  | cons first rest ih =>
    obtain ⟨hfirst, hrest⟩ := List.forall_mem_cons.mp hother
    have ih := ih hrest fun hitem => hremains (List.mem_cons_of_mem _ hitem)
    intro item hitem
    simp only [collectBindings] at hitem
    split at hitem
    · next hnone =>
      rcases List.mem_cons.mp hitem with rfl | hitem
      · exact hfirst hnone
      · exact ih item hitem
    · next retired hsome =>
      rcases List.mem_append.mp hitem with hitem | hitem
      · exact hremains List.mem_cons_self hsome (Option.mem_toList.mp hitem)
      · exact ih item hitem

theorem spent_collectBindings (exports : Exports) (keepImports : Bool) (items : List Node) :
    ∀ item ∈ (collectBindings exports keepImports items).2,
      Retired.Spent exports keepImports item :=
  forall_collectBindings (fun _ _ h => .inl h) fun _ => spent_remains

/-- Where nothing is left to retire, nothing is found. -/
theorem collectBindings_of_spent {exports : Exports} {keepImports : Bool} {items : List Node}
    (h : ∀ item ∈ items, Retired.Spent exports keepImports item) :
    collectBindings exports keepImports items = ([], items) := by
  induction items with
  | nil => rfl
  | cons first rest ih =>
    have hrest := ih fun item hitem => h item (List.mem_cons_of_mem _ hitem)
    rcases h first List.mem_cons_self with hfirst | hfirst
    · simp only [collectBindings, hrest, hfirst]
    · simp only [collectBindings, hrest, hfirst, Option.toList_some, List.append_nil,
        List.singleton_append]

theorem Node.importDecl?_congr {a b : Node} (h : a.form = b.form) : a.importDecl? = b.importDecl? := by
  simp only [Node.importDecl?, h]

theorem importDecl?_mark (env : Env) (n : Node) : (mark env n).1.importDecl? = n.importDecl? := by
  obtain ⟨form, origin, parts⟩ := n
  cases form <;> first | rfl | (next role _ _ => cases role <;> rfl)

theorem importDecl?_sweep (n : Node) : (sweep n).importDecl? = n.importDecl? := by
  obtain ⟨form, origin, parts⟩ := n
  cases form
  case exprStmt => rcases sweep_exprStmt origin parts with ⟨_, h⟩ | ⟨_, h⟩ <;> rw [h] <;> rfl
  all_goals rfl

/-- An import that stays as it is has no parts. -/
theorem import_of_remains {exports : Exports} {keepImports : Bool} {item : Node}
    {bindings : List Binding}
    (h : retireImport exports keepImports item = some ⟨bindings, some item⟩) :
    ∃ decl origin, item = .mk (.importDecl decl) origin [] := by
  obtain ⟨decl, heq⟩ := remains_eq h rfl
  exact ⟨decl, item.origin, heq⟩

theorem spent_mark {exports : Exports} {keepImports : Bool} (env : Env) {item : Node}
    (h : Retired.Spent exports keepImports item) :
    Retired.Spent exports keepImports (mark env item).1 := by
  rcases h with h | h
  · exact .inl (retireImport_none_congr (importDecl?_mark env item) h)
  · obtain ⟨decl, origin, rfl⟩ := import_of_remains h
    exact .inr h

theorem spent_sweep {exports : Exports} {keepImports : Bool} {item : Node}
    (h : Retired.Spent exports keepImports item) :
    Retired.Spent exports keepImports (sweep item) := by
  rcases h with h | h
  · exact .inl (retireImport_none_congr (importDecl?_sweep item) h)
  · obtain ⟨decl, origin, rfl⟩ := import_of_remains h
    exact .inr h

theorem spent_markAll {exports : Exports} {keepImports : Bool} (env : Env) {items : List Node}
    (h : ∀ item ∈ items, Retired.Spent exports keepImports item) :
    ∀ item ∈ (markAll env items).1, Retired.Spent exports keepImports item := by
  induction items generalizing env with
  | nil => intro item hitem; cases hitem
  | cons first rest ih =>
    obtain ⟨hfirst, hrest⟩ := List.forall_mem_cons.mp h
    exact List.forall_mem_cons.mpr ⟨spent_mark env hfirst, ih _ hrest⟩

theorem spent_resolve {exports : Exports} {keepImports : Bool} {items : List Node}
    (h : ∀ item ∈ items, Retired.Spent exports keepImports item) :
    ∀ item ∈ resolve items, Retired.Spent exports keepImports item :=
  spent_markAll _ h

theorem mem_sweepStatements {items : List Node} {item : Node} (h : item ∈ sweepStatements items) :
    ∃ n ∈ items, item = sweep n := by
  induction items with
  | nil => cases h
  | cons first rest ih =>
    rw [sweepStatements] at h
    split at h
    · obtain ⟨n, hn, rfl⟩ := ih h
      exact ⟨n, List.mem_cons_of_mem _ hn, rfl⟩
    · rcases List.mem_cons.mp h with rfl | h
      · exact ⟨first, List.mem_cons_self, rfl⟩
      · obtain ⟨n, hn, rfl⟩ := ih h
        exact ⟨n, List.mem_cons_of_mem _ hn, rfl⟩

/-! ## Callees -/

theorem lookup_sweep (bindings : List Binding) (n : Node) :
    lookup bindings (sweep n) = lookup bindings n := by
  obtain ⟨form, origin, parts⟩ := n
  cases form
  case exprStmt => rcases sweep_exprStmt origin parts with ⟨_, h⟩ | ⟨_, h⟩ <;> rw [h] <;> rfl
  all_goals rfl

theorem indexName?_sweep (n : Node) : indexName? (sweep n) = indexName? n := by
  obtain ⟨form, origin, parts⟩ := n
  cases form
  case template => cases parts <;> rfl
  case exprStmt => rcases sweep_exprStmt origin parts with ⟨_, h⟩ | ⟨_, h⟩ <;> rw [h] <;> rfl
  all_goals rfl

theorem memberParts?_of_three (origin : Origin) (a b c : Node) (rest : List Node) :
    memberParts? (.mk .member origin (a :: b :: c :: rest)) = none := by
  unfold memberParts?
  split <;> first | rfl | (next heq => cases heq)

theorem memberParts?_sweep (n : Node) :
    memberParts? (sweep n) = (memberParts? n).map fun p => (sweep p.1, p.2) := by
  obtain ⟨form, origin, parts⟩ := n
  cases form
  case member =>
    rcases parts with _ | ⟨object, _ | ⟨⟨form, place, inner⟩, _ | ⟨_, _⟩⟩⟩
    · rfl
    · rfl
    · cases form
      case exprStmt =>
        change memberParts? (.mk .member origin [sweep object, sweep (.mk .exprStmt place inner)]) = _
        rcases sweep_exprStmt place inner with ⟨_, h⟩ | ⟨_, h⟩ <;> rw [h] <;> rfl
      all_goals rfl
    · rw [memberParts?_of_three]
      exact memberParts?_of_three ..
  case index =>
    rcases parts with _ | ⟨object, _ | ⟨index, _ | ⟨_, _⟩⟩⟩
    · rfl
    · rfl
    · change some (sweep object, indexName? (sweep index)) = _
      rw [indexName?_sweep]
      rfl
    · rfl
  case exprStmt => rcases sweep_exprStmt origin parts with ⟨_, h⟩ | ⟨_, h⟩ <;> rw [h] <;> rfl
  all_goals rfl

/-- Only calls are macro calls. -/
theorem Node.form_of_resolveCall {bindings : List Binding} {n : Node} {found : Resolution}
    (h : resolveCall bindings n = some found) : n.form = .call := by
  obtain ⟨form, origin, parts⟩ := n
  cases form
  case call => rfl
  all_goals cases h

/-- Cleaning up does not change what a callee stands for. -/
theorem resolveCallee_sweep (bindings : List Binding) (n : Node) :
    resolveCallee bindings (sweep n) = resolveCallee bindings n := by
  unfold resolveCallee
  rw [memberParts?_sweep]
  cases memberParts? n with
  | none => simp only [Option.map_none, lookup_sweep]
  | some p => simp only [Option.map_some, lookup_sweep]

theorem resolveCall_sweepParts (bindings : List Binding) (form : Form) (origin : Origin)
    (parts : List Node) :
    resolveCall bindings (.mk form origin (sweepParts parts)) =
      resolveCall bindings (.mk form origin parts) := by
  cases form
  case call =>
    cases parts with
    | nil => rfl
    | cons callee rest => exact resolveCallee_sweep bindings callee
  all_goals rfl

end CallExpander
