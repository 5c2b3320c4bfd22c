import CallExpander.Proofs.Expansion.Local
import CallExpander.Proofs.Tree.Remarked

/-!
# What a pass leaves of a program

Macros that see only their call, and leave an expression without calls wherever they succeed, take a
program apart in one way only: a macro call becomes an expression, or it goes away with its statement.
Whatever else was there is there behind the pass, in its place. A call that was no macro call then is one
behind the pass only if what it calls came out of a macro.
-/

namespace CallExpander

open Expansion Node

def Form.isExpression : Form → Bool
  | .ident .. | .str _ | .num .. | .bool _ | .null | .this | .verbatim _ | .template _ | .tagged
  | .array | .object | .function .expression .. | .arrow _ | .class .expression .. | .unary _
  | .update .. | .binary _ | .assign _ | .conditional | .call | .new _ | .member | .index
  | .optMember _ | .optIndex _ | .optCall _ | .paren | .sequence | .yield _ | .await | .removed
  | .asType | .asConst | .satisfies | .nonNull | .typeAssertion | .instantiation | .jsxElement _
  | .jsxFragment | .privateName _ => true
  | _ => false

namespace Handler

variable {dialect : Dialect}

/-- What a handler that sees only its call can leave in the place of some call. -/
def CanYield (dialect : Dialect) (slot : Node) : Handler → Prop
  | .context run => ∃ call context context', context.slot.isCall = true ∧
    run call context = .ok () context' ∧ context'.slot = slot
  | .toolkit run => ∃ call context context', context.slot.isCall = true ∧
    run call dialect context = .ok () context' ∧ context'.slot = slot
  | .helper _ | .task _ => False

/-- A handler that sees only its call, and wherever it succeeds leaves an expression without calls. The
marker of a removed call is one. -/
structure Calm (dialect : Dialect) (handler : Handler) : Prop where
  isLocal : handler.tier ≠ .helper
  yields : ∀ slot, handler.CanYield dialect slot → slot.form.isExpression = true ∧ slot.calls = []

end Handler

namespace Job

/-- What a pass can leave in the place of a tree that does not stay: what a macro leaves in the place of
its call, or a marker that was there before. -/
def Yields (job : Job) (bindings : List Binding) (n slot : Node) : Prop :=
  (n.isRemoved = true ∧ slot = removedMarker) ∨ ∃ module name callee,
    resolveCall bindings n = some (.known module name) ∧
      job.registry.find? module name = some callee ∧
      callee.handler.CanYield job.source.dialect slot

mutual

/-- What there can be of a tree behind a pass, once the pass has cleaned up. What macros leave may have its
names marked in any way; a name that was bound before stays bound. -/
inductive Remnant (job : Job) (bindings : List Binding) : Node → Node → Prop
  | filled {a b slot : Node} (hyields : job.Yields bindings a slot)
      (hsame : Remarked slot.sweep b) : Remnant job bindings a b
  | emptied {a slot : Node} {origin : Origin} (hyields : job.Yields bindings a slot)
      (hremoved : slot.isRemoved = true) :
      Remnant job bindings (.mk .exprStmt origin [a]) emptyStatement
  | ident {name : String} {x y : Bool} {origin : Origin} {as bs : List Node} (hmark : x = true → y = true)
      (hparts : Remnants job bindings false as bs) :
      Remnant job bindings (.mk (.ident name x) origin as) (.mk (.ident name y) origin bs)
  | node {form : Form} {origin : Origin} {as bs : List Node}
      (hordinary : resolveCall bindings (.mk form origin as) = none)
      (hparts : Remnants job bindings form.isStatementList as bs) :
      Remnant job bindings (.mk form origin as) (.mk form origin bs)

/-- What there can be of a list of trees behind a pass. Where they are statements that stand in a list, one
that is nothing but a removed call goes away. -/
inductive Remnants (job : Job) (bindings : List Binding) : Bool → List Node → List Node → Prop
  | nil {isList : Bool} : Remnants job bindings isList [] []
  | cons {isList : Bool} {a b : Node} {as bs : List Node} (hhead : Remnant job bindings a b)
      (htail : Remnants job bindings isList as bs) : Remnants job bindings isList (a :: as) (b :: bs)
  | dropped {a slot : Node} {origin : Origin} {as bs : List Node}
      (hyields : job.Yields bindings a slot) (hremoved : slot.isRemoved = true)
      (htail : Remnants job bindings true as bs) :
      Remnants job bindings true (.mk .exprStmt origin [a] :: as) bs

end

/-- What a visit makes of a tree. -/
structure Becomes (job : Job) (bindings : List Binding) (n n' : Node) : Prop where
  swept : job.Remnant bindings n n'.sweep
  removed : n'.isRemoved = true → ∃ slot, job.Yields bindings n slot ∧ slot.isRemoved = true
  statement : n'.isRemovedStatement = true → ∃ origin a slot, n = .mk .exprStmt origin [a] ∧
    job.Yields bindings a slot ∧ slot.isRemoved = true

variable {job : Job} {bindings : List Binding} {a b n n' slot : Node} {as bs parts parts' : List Node}
  {form : Form} {origin : Origin} {isList : Bool} {w : Walker} {run run' : Run} {budget : Nat}

theorem isRemovedStatement_of_isExpression (h : n.form.isExpression = true) :
    n.isRemovedStatement = false := by
  obtain ⟨form, origin, parts⟩ := n
  cases form <;> first | rfl | cases h

theorem Becomes.of_yields (hyields : job.Yields bindings n slot)
    (hexpression : slot.form.isExpression = true) : job.Becomes bindings n slot where
  swept := .filled hyields rfl
  removed hremoved := ⟨slot, hyields, hremoved⟩
  statement hstatement := by
    rw [isRemovedStatement_of_isExpression hexpression] at hstatement
    cases hstatement

theorem remnants_sweepParts (h : List.Forall₂ (job.Becomes bindings) parts parts') :
    job.Remnants bindings false parts (parts'.map sweep) := by
  induction h with
  | nil => exact .nil
  | cons hhead _ ih => exact .cons hhead.swept ih

theorem remnants_sweepStatements (h : List.Forall₂ (job.Becomes bindings) parts parts') :
    job.Remnants bindings true parts (sweepStatements parts') := by
  induction h with
  | nil => exact .nil
  | @cons n n' parts parts' hhead _ ih =>
    rw [sweepStatements]
    split
    · next hstatement =>
      obtain ⟨origin, a, slot, rfl, hyields, hremoved⟩ := hhead.statement hstatement
      exact .dropped hyields hremoved ih
    · exact .cons hhead.swept ih

/-- A statement that became nothing but a marker was nothing but what went away. -/
theorem yields_of_isRemovedStatement (h : List.Forall₂ (job.Becomes bindings) parts parts')
    (hstatement : isRemovedStatement (.mk form origin parts') = true) :
    form = .exprStmt ∧ ∃ a slot, parts = [a] ∧ job.Yields bindings a slot ∧ slot.isRemoved = true := by
  unfold isRemovedStatement at hstatement
  split at hstatement
  · next heq =>
    cases heq
    rcases h with _ | ⟨hhead, htail⟩
    cases htail
    obtain ⟨slot, hyields, hremoved⟩ := hhead.removed hstatement
    exact ⟨rfl, _, slot, rfl, hyields, hremoved⟩
  · cases hstatement

/-- What is no macro call becomes what its parts become. -/
theorem Becomes.node (hordinary : resolveCall bindings (.mk form origin parts) = none)
    (h : List.Forall₂ (job.Becomes bindings) parts parts') :
    job.Becomes bindings (.mk form origin parts) (.mk form origin parts') where
  swept := by
    rcases sweep_cases form origin parts' with
      ⟨rfl, hsweep, -⟩ | ⟨hstatement, hsweep, -⟩ | ⟨-, -, hlist, hsweep, -⟩ | ⟨-, -, hlist, hsweep, -⟩ <;>
      rw [hsweep]
    · exact .filled (.inl ⟨rfl, rfl⟩) rfl
    · obtain ⟨rfl, a, slot, rfl, hyields, hremoved⟩ := yields_of_isRemovedStatement h hstatement
      exact .emptied hyields hremoved
    · refine .node hordinary ?_
      rw [hlist]
      exact remnants_sweepStatements h
    · refine .node hordinary ?_
      rw [hlist]
      exact remnants_sweepParts h
  removed hremoved := ⟨removedMarker, .inl ⟨hremoved, rfl⟩, rfl⟩
  statement hstatement := by
    obtain ⟨rfl, a, slot, rfl, hyields, hremoved⟩ := yields_of_isRemovedStatement h hstatement
    exact ⟨origin, a, slot, rfl, hyields, hremoved⟩

/-! ## What a pass makes of the program -/

theorem canYield_of_onContext {invocation : Invocation} {handler : Call → EStateM String Context Unit}
    (h : job.onContext invocation n handler run = .ok slot run') :
    ∃ call context context', context.slot = n ∧ handler call context = .ok () context' ∧
      context'.slot = slot := by
  unfold onContext at h
  split at h
  · next context hhandler =>
    cases h
    exact ⟨_, run.context n, context, rfl, hhandler, rfl⟩
  · cases h

theorem canYield_of_apply {invocation : Invocation}
    (htier : invocation.callee.handler.tier ≠ .helper) (hcall : n.isCall = true)
    (h : job.apply w invocation n run = .ok slot run') :
    invocation.callee.handler.CanYield job.source.dialect slot := by
  unfold apply at h
  cases hhandler : invocation.callee.handler with
  | context handler =>
    rw [hhandler] at h
    obtain ⟨call, context, context', rfl, hrun, hslot⟩ := canYield_of_onContext h
    exact ⟨call, context, context', hcall, hrun, hslot⟩
  | toolkit handler =>
    rw [hhandler] at h
    obtain ⟨call, context, context', rfl, hrun, hslot⟩ := canYield_of_onContext h
    exact ⟨call, context, context', hcall, hrun, hslot⟩
  | helper handler => rw [hhandler] at htier; exact absurd rfl htier
  | task start => rw [hhandler] at htier; exact absurd rfl htier

theorem isLocal_of_calm (hcalm : job.registry.All (·.handler.Calm job.source.dialect)) :
    job.registry.All (·.handler.tier ≠ .helper) :=
  fun entry hentry callee hcallee => (hcalm entry hentry callee hcallee).isLocal

/-- What is left in the place of a tree is an expression without calls. -/
theorem calm_of_yields (hcalm : job.registry.All (·.handler.Calm job.source.dialect))
    (h : job.Yields bindings n slot) : slot.form.isExpression = true ∧ slot.calls = [] := by
  rcases h with ⟨-, rfl⟩ | ⟨module, name, callee, -, hfind, hyields⟩
  · exact ⟨rfl, rfl⟩
  · exact (hcalm.of_find? hfind).yields slot hyields

mutual

theorem becomes_visit (hcalm : job.registry.All (·.handler.Calm job.source.dialect)) :
    ∀ {n n' : Node} {run run' : Run}, job.visit w n run = .ok n' run' →
      job.Becomes run.bindings n n'
  | .mk form origin parts, n', run, run', h => by
    rw [visit] at h
    obtain ⟨found, mid, hid, rest⟩ := ok_bind h
    obtain ⟨rfl, ⟨rfl, hordinary⟩ | ⟨callee, module, name, rfl, hres, hfind⟩⟩ := ok_identify hid
    · obtain ⟨parts', mid, hparts, rest⟩ := ok_bind rest
      obtain ⟨rfl, rfl⟩ := ok_pure rest
      exact .node hordinary (becomes_visitParts hcalm hparts)
    · obtain rfl : form = .call := form_of_resolveCall hres
      obtain ⟨invocation, mid, hbegin, rest⟩ := ok_bind rest
      obtain ⟨-, -, rfl⟩ := Expands.begin hres (Registry.name_of_find? hfind) hbegin
      have htier := (isLocal_of_calm hcalm).of_find? hfind
      rw [if_neg (by rw [Handler.isCooperative_of_tier htier]; exact Bool.false_ne_true)] at rest
      obtain ⟨parts', last, -, rest⟩ := ok_bind rest
      have hyields : job.Yields run.bindings (.mk .call origin parts) n' :=
        .inr ⟨module, name, _, hres, hfind, canYield_of_apply htier rfl rest⟩
      exact .of_yields hyields (calm_of_yields hcalm hyields).1

theorem becomes_visitParts (hcalm : job.registry.All (·.handler.Calm job.source.dialect)) :
    ∀ {parts parts' : List Node} {run run' : Run}, job.visitParts w parts run = .ok parts' run' →
      List.Forall₂ (job.Becomes run.bindings) parts parts'
  | [], parts', run, run', h => by
    rw [visitParts] at h
    obtain ⟨rfl, rfl⟩ := ok_pure h
    exact .nil
  | n :: rest, parts', run, run', h => by
    rw [visitParts] at h
    obtain ⟨n', mid, hn, h⟩ := ok_bind h
    obtain ⟨rest', last, hrest, h⟩ := ok_bind h
    obtain ⟨rfl, rfl⟩ := ok_pure h
    have hbindings := (expands_visit (isLocal_of_calm hcalm) hn).1.bindings
    exact .cons (becomes_visit hcalm hn) (hbindings ▸ becomes_visitParts hcalm hrest)

end

/-- What is left in the place of a tree is no import. -/
theorem importDecl?_of_yields (hcalm : job.registry.All (·.handler.Calm job.source.dialect))
    (hyields : job.Yields bindings a slot) (hsame : Remarked slot.sweep b) : b.importDecl? = none := by
  rw [hsame.importDecl?, importDecl?_sweep]
  obtain ⟨hexpression, -⟩ := calm_of_yields hcalm hyields
  obtain ⟨form, origin, parts⟩ := slot
  cases form <;> first | rfl | cases hexpression

theorem spent_of_importDecl? {exports : Exports} {keepImports : Bool} (h : b.importDecl? = none) :
    Retired.Spent exports keepImports b := by
  left
  unfold retireImport
  rw [h]

/-- Where nothing was left to retire, nothing is left to retire behind a pass. -/
theorem Remnant.spent {exports : Exports} {keepImports : Bool}
    (hcalm : job.registry.All (·.handler.Calm job.source.dialect)) (h : job.Remnant bindings a b)
    (hspent : Retired.Spent exports keepImports a) : Retired.Spent exports keepImports b := by
  cases h with
  | filled hyields hsame => exact spent_of_importDecl? (importDecl?_of_yields hcalm hyields hsame)
  | emptied hyields hremoved => exact spent_of_importDecl? rfl
  | ident hmark hparts => exact spent_of_importDecl? rfl
  | node hordinary hparts =>
    rcases hspent with hnone | hsome
    · exact .inl (retireImport_none_congr rfl hnone)
    · obtain ⟨decl, origin, heq⟩ := import_of_remains hsome
      cases heq
      cases hparts
      exact .inr hsome

theorem Remnants.spent {exports : Exports} {keepImports : Bool}
    (hcalm : job.registry.All (·.handler.Calm job.source.dialect)) :
    ∀ {isList : Bool} {as bs : List Node}, job.Remnants bindings isList as bs →
      (∀ a ∈ as, Retired.Spent exports keepImports a) → ∀ b ∈ bs, Retired.Spent exports keepImports b
  | _, _, _, .nil, _ => by simp
  | _, _, _, .cons hhead htail, hspent => by
    obtain ⟨hfirst, hrest⟩ := List.forall_mem_cons.mp hspent
    exact List.forall_mem_cons.mpr ⟨hhead.spent hcalm hfirst, htail.spent hcalm hrest⟩
  | _, _, _, .dropped _ _ htail, hspent => htail.spent hcalm (List.forall_mem_cons.mp hspent).2

/-! ## Calls behind a pass -/

/-- What can stand behind a pass where a part of a callee stood: the same, or what a macro left for it. -/
def Stands (job : Job) (bindings : List Binding) (a b : Node) : Prop :=
  b = a ∨ ∃ slot, job.Yields bindings a slot ∧ Remarked slot.sweep b

/-- What a call can call behind a pass: what it called before, or what a macro left for that, for the object
or for the property of it. -/
inductive CanCall (job : Job) (bindings : List Binding) : Node → Node → Prop
  | callee {callee callee' : Node} (h : job.Stands bindings callee callee') :
      CanCall job bindings callee callee'
  | parts {form : Form} {origin : Origin} {parts parts' : List Node}
      (h : List.Forall₂ (job.Stands bindings) parts parts') :
      CanCall job bindings (.mk form origin parts) (.mk form origin parts')

/-- No macro leaves anything by which another call calls a macro. -/
def Spares (job : Job) (bindings : List Binding) (call : Node) : Prop :=
  resolveCall bindings call = none → ∀ callee callee', call.callee? = some callee →
    job.CanCall bindings callee callee' → resolveCallee bindings callee' = none

def memberName? : Node → Option String
  | .mk (.name text) _ _ => some text
  | _ => none

theorem memberParts?_member (origin : Origin) (object n : Node) :
    memberParts? (.mk .member origin [object, n]) = some (object, memberName? n) := by
  obtain ⟨form, place, parts⟩ := n
  cases form <;> rfl

theorem resolveCallee_congr {callee callee' object object' : Node} {property : Option String}
    (h : memberParts? callee = some (object, property))
    (h' : memberParts? callee' = some (object', property))
    (hobject : lookup bindings object' = lookup bindings object) :
    resolveCallee bindings callee' = resolveCallee bindings callee := by
  unfold resolveCallee
  rw [h, h']
  simp only [hobject]

theorem resolveCallee_of_lookup {callee object : Node} {property : Option String}
    (h : memberParts? callee = some (object, property)) (hobject : lookup bindings object = none) :
    resolveCallee bindings callee = none := by
  unfold resolveCallee
  rw [h]
  simp only [hobject]

theorem resolveCallee_of_property {callee object : Node} {property : Option String}
    (h : memberParts? callee = some (object, property)) (hproperty : property = none) :
    resolveCallee bindings callee = none := by
  unfold resolveCallee
  rw [h, hproperty]
  simp

/-- What is read off a remnant is nothing, or it can be read off what can stand there. -/
def Read {α : Type} (job : Job) (bindings : List Binding) (f : Node → Option α) : Prop :=
  ∀ {a b}, job.Remnant bindings a b →
    f b = none ∨ ∃ c, job.Stands bindings a c ∧ f c = f b

/-- A name behind a pass is free only if it was free before, or if a macro left it. -/
theorem read_lookup : job.Read bindings (lookup bindings) := by
  intro a b h
  cases h with
  | filled hyields hsame => exact .inr ⟨b, .inr ⟨_, hyields, hsame⟩, rfl⟩
  | emptied hyields hremoved => exact .inl rfl
  | node hordinary hparts => exact .inr ⟨_, .inl rfl, rfl⟩
  | @ident name x y origin as bs hmark hparts =>
    cases y with
    | true => exact .inl rfl
    | false =>
      cases x with
      | true => exact absurd (hmark rfl) Bool.false_ne_true
      | false => exact .inr ⟨_, .inl rfl, rfl⟩

theorem read_memberName? : job.Read bindings memberName? := by
  intro a b h
  cases h with
  | filled hyields hsame => exact .inr ⟨b, .inr ⟨_, hyields, hsame⟩, rfl⟩
  | emptied hyields hremoved => exact .inl rfl
  | ident hmark hparts => exact .inl rfl
  | @node form origin as bs hordinary hparts =>
    refine .inr ⟨_, .inl rfl, ?_⟩
    cases form <;> rfl

theorem read_indexName? : job.Read bindings indexName? := by
  intro a b h
  cases h with
  | filled hyields hsame => exact .inr ⟨b, .inr ⟨_, hyields, hsame⟩, rfl⟩
  | emptied hyields hremoved => exact .inl rfl
  | ident hmark hparts => exact .inl rfl
  | @node form origin as bs hordinary hparts =>
    cases form
    case template =>
      cases hparts with
      | nil => exact .inr ⟨_, .inl rfl, rfl⟩
      | cons hhead htail => exact .inl rfl
    all_goals exact .inr ⟨_, .inl rfl, rfl⟩

/-- A call of a member calls no macro behind a pass if none can stand there. -/
theorem resolveCallee_of_parts {object object' n n' : Node} {property : Node → Option String}
    (hmember : ∀ object n, memberParts? (.mk form origin [object, n]) = some (object, property n))
    (hread : job.Read bindings property) (hobject : job.Remnant bindings object object')
    (hn : job.Remnant bindings n n')
    (hspares : ∀ callee', job.CanCall bindings (.mk form origin [object, n]) callee' →
      resolveCallee bindings callee' = none) :
    resolveCallee bindings (.mk form origin [object', n']) = none := by
  rcases read_lookup hobject with hnone | ⟨c, hc, hlookup⟩
  · exact resolveCallee_of_lookup (hmember object' n') hnone
  rcases hread hn with hnone | ⟨d, hd, hproperty⟩
  · exact resolveCallee_of_property (hmember object' n') hnone
  · have hstands : resolveCallee bindings (.mk form origin [c, d]) = none :=
      hspares _ (.parts (.cons hc (.cons hd .nil)))
    rw [← hstands]
    exact resolveCallee_congr (hproperty ▸ hmember c d) (hmember object' n') hlookup.symm

/-- What a call calls behind a pass is no macro if none can be called there. -/
theorem resolveCallee_of_remnant {callee callee' : Node} (h : job.Remnant bindings callee callee')
    (hspares : ∀ callee', job.CanCall bindings callee callee' → resolveCallee bindings callee' = none) :
    resolveCallee bindings callee' = none := by
  have hsame := hspares callee (.callee (.inl rfl))
  cases h with
  | filled hyields hsame => exact hspares _ (.callee (.inr ⟨_, hyields, hsame⟩))
  | emptied hyields hremoved => rfl
  | @ident name x y origin as bs hmark hparts =>
    cases y with
    | true => rfl
    | false =>
      cases x with
      | true => exact absurd (hmark rfl) Bool.false_ne_true
      | false => exact hsame
  | @node form origin as bs hordinary hparts =>
    cases form
    case ident => exact hsame
    case member =>
      rcases hparts with _ | ⟨hobject, _ | ⟨hn, _ | ⟨_, _⟩⟩⟩
      · rfl
      · rfl
      · exact resolveCallee_of_parts (memberParts?_member origin) read_memberName? hobject hn hspares
      · unfold resolveCallee
        rw [memberParts?_of_three]
        rfl
    case index =>
      rcases hparts with _ | ⟨hobject, _ | ⟨hn, _ | ⟨_, _⟩⟩⟩
      · rfl
      · rfl
      · exact resolveCallee_of_parts (fun _ _ => rfl) read_indexName? hobject hn hspares
      · rfl
    all_goals rfl

mutual

/-- Where no macro leaves anything by which another call calls one, no macro call is left behind a pass. -/
theorem Remnant.inert (hcalm : job.registry.All (·.handler.Calm job.source.dialect)) :
    ∀ {a b : Node}, (∀ call ∈ a.calls, job.Spares bindings call) → job.Remnant bindings a b →
      b.Inert bindings
  | .mk form origin as, b, hspares, h => by
    have hother : form ≠ .call → job.Spares bindings (.mk form origin as) := by
      intro hform _ callee callee' hcallee
      cases form <;> first | cases hcallee | exact absurd rfl hform
    obtain ⟨hcall, hparts⟩ := (forall_calls_mk hother).mp hspares
    cases h with
    | filled hyields hsame =>
      intro call hmem
      rw [hsame.calls (calls_sweep (calm_of_yields hcalm hyields).2)] at hmem
      cases hmem
    | emptied hyields hremoved =>
      intro call hmem
      cases hmem
    | ident hmark hinner => exact inert_mk.mpr ⟨rfl, Remnants.inert hcalm hparts hinner⟩
    | @node _ _ _ bs hordinary hinner =>
      refine inert_mk.mpr ⟨?_, Remnants.inert hcalm hparts hinner⟩
      cases form
      case call =>
        rcases hinner with _ | ⟨hcallee, _⟩
        · rfl
        · exact resolveCallee_of_remnant hcallee fun callee' => hcall hordinary _ callee' rfl
      all_goals rfl

theorem Remnants.inert (hcalm : job.registry.All (·.handler.Calm job.source.dialect)) :
    ∀ {isList : Bool} {as bs : List Node}, (∀ a ∈ as, ∀ call ∈ a.calls, job.Spares bindings call) →
      job.Remnants bindings isList as bs → ∀ b ∈ bs, b.Inert bindings
  | _, [], _, _, h => by
    cases h
    simp
  | _, a :: as, _, hspares, h => by
    obtain ⟨ha, hrest⟩ := List.forall_mem_cons.mp hspares
    cases h with
    | cons hhead htail =>
      exact List.forall_mem_cons.mpr ⟨Remnant.inert hcalm ha hhead, Remnants.inert hcalm hrest htail⟩
    | dropped hyields hremoved htail => exact Remnants.inert hcalm hrest htail

end

end Job

end CallExpander
