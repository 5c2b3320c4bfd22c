import CallExpander.Proofs.Expansion.Remnant
import CallExpander.Proofs.Tree.Scoped

/-!
# What a remnant declares

Names are bound where no call stands, and an expression declares nothing around it. So what is left of a
program behind a pass declares the names that the program declared.
-/

namespace CallExpander

open Node

namespace Node

/-! ## What expressions declare -/

theorem Remarked.isExpression {a b : Node} (h : Remarked a b) :
    b.form.isExpression = a.form.isExpression := by
  refine h.congr (f := fun n => n.form.isExpression) ?_
  rintro ⟨form, origin, parts⟩
  rw [freed_mk]
  cases form <;> rfl

theorem nameSteps_of_isExpression (n : Node) (h : n.form.isExpression = true) : nameSteps n = [] := by
  obtain ⟨form, origin, parts⟩ := n
  cases form <;> first | rfl | cases h

theorem declaratorNames_of_isExpression (n : Node) (h : n.form.isExpression = true) :
    declaratorNames n = [] := by
  obtain ⟨form, origin, parts⟩ := n
  cases form <;> first | rfl | cases h

/-- Nothing is hoisted out of an expression. -/
theorem hoist_of_isExpression (depth : Depth) (found : Hoist) (n : Node)
    (h : n.form.isExpression = true) : hoist depth n found = found := by
  obtain ⟨form, origin, parts⟩ := n
  cases form
  case function role _ _ _ => cases role <;> first | rfl | cases h
  case «class» role _ _ => cases role <;> first | rfl | cases h
  all_goals first | rfl | cases h

theorem hoistMembers_of_isExpression (depth : Depth) (found : Hoist) (n : Node)
    (h : n.form.isExpression = true) : hoistMembers depth n found = found := by
  obtain ⟨form, origin, parts⟩ := n
  cases form <;> first | rfl | cases h

theorem comesFirst_of_isExpression (inModule : Bool) (n : Node) (h : n.form.isExpression = true) :
    comesFirst inModule n = false := by
  obtain ⟨form, origin, parts⟩ := n
  cases form
  case function role _ _ _ => cases role <;> first | rfl | cases h
  all_goals first | rfl | cases h

theorem comesFirst_of_declared (inModule : Bool) (origin : Origin) (n : Node)
    (h : n.form.isExpression = true) : comesFirst inModule (.mk .exportDecl origin [n]) = false := by
  obtain ⟨form, place, parts⟩ := n
  cases form
  case function role _ _ _ => cases role <;> first | rfl | cases h
  all_goals first | rfl | cases h

theorem memberName_of_isExpression (n : Node) (h : n.form.isExpression = true) :
    memberNames [n] = [] := by
  obtain ⟨form, origin, parts⟩ := n
  cases form <;> first | rfl | cases h

theorem memberName_of_key (origin : Origin) (rest : List Node) (n : Node)
    (h : n.form.isExpression = true) : memberNames [.mk .enumMember origin (n :: rest)] = [] := by
  obtain ⟨form, place, parts⟩ := n
  cases form <;> first | rfl | cases h

theorem memberNames_cons (n : Node) (rest : List Node) :
    memberNames (n :: rest) = memberNames [n] ++ memberNames rest := by
  simp [memberNames]

theorem earlyNames_cons (n : Node) (rest : List Node) :
    earlyNames (n :: rest) = earlyNames [n] ++ earlyNames rest := by
  simp [earlyNames]

end Node

namespace Job

variable {job : Job} {bindings : List Binding} {a b slot : Node} {as bs : List Node} {isList : Bool}

/-! ## What stays where names are bound -/

theorem not_yields_of_solid (hsolid : a.isSolid = true) (h : job.Yields bindings a slot) : False := by
  simp only [isSolid, Bool.and_eq_true, Bool.not_eq_true'] at hsolid
  rcases h with ⟨hremoved, -⟩ | ⟨module, name, callee, hres, -⟩
  · rw [hsolid.2] at hremoved
    cases hremoved
  · have hform := form_of_resolveCall hres
    obtain ⟨form, origin, parts⟩ := a
    obtain rfl : form = .call := hform
    cases hsolid.1

theorem form_of_yields (h : job.Yields bindings a slot) : a.form = .call ∨ a.form = .removed := by
  rcases h with ⟨hremoved, -⟩ | ⟨module, name, callee, hres, -⟩
  · right
    obtain ⟨form, origin, parts⟩ := a
    cases form <;> first | rfl | cases hremoved
  · exact .inl (form_of_resolveCall hres)

theorem identNames_remnant (hsolid : a.isSolid = true) (h : job.Remnant bindings a b) :
    identNames b = identNames a := by
  cases h with
  | filled hyields hsame => exact (not_yields_of_solid hsolid hyields).elim
  | emptied hyields hremoved => rfl
  | ident hmark hparts => rfl
  | node hordinary hparts => rfl

mutual

theorem patternNames_remnant : ∀ {a b : Node}, a.isSolid = true → a.isScoped = true →
    job.Remnant bindings a b → patternNames b = patternNames a
  | .mk form origin as, b, hsolid, hscoped, h => by
    obtain ⟨hbinders, -, hin⟩ := isScoped_mk hscoped
    cases h with
    | filled hyields hsame => exact (not_yields_of_solid hsolid hyields).elim
    | emptied hyields hremoved => rfl
    | ident hmark hparts => rfl
    | @node _ _ _ bs hordinary hparts =>
      cases form
      case patternProperty =>
        cases hparts with
        | nil => rfl
        | cons hkey hvalues =>
          exact patternNamesIn_remnants hbinders (isScopedIn_cons hin).2 hvalues
      case patternShorthand | patternDefault | annotated =>
        cases hparts with
        | nil => rfl
        | @cons _ target _ _ _ htarget hrest =>
          have hsolid := hbinders target (List.mem_singleton_self target)
          have hnames := patternNames_remnant hsolid (isScopedIn_cons hin).1 htarget
          exact hnames
      case arrayPattern | objectPattern | rest | parameterProperty =>
        exact patternNamesIn_remnants hbinders hin hparts
      all_goals rfl

theorem patternNamesIn_remnants : ∀ {as bs : List Node}, (∀ a ∈ as, a.isSolid = true) →
    isScopedIn as = true → job.Remnants bindings false as bs → patternNamesIn bs = patternNamesIn as
  | [], _, _, _, h => by
    cases h
    rfl
  | a :: as, _, hsolid, hscoped, h => by
    obtain ⟨hfirst, hrest⟩ := List.forall_mem_cons.mp hsolid
    obtain ⟨ha, has⟩ := isScopedIn_cons hscoped
    cases h with
    | cons hhead htail =>
      rw [patternNamesIn, patternNamesIn, patternNames_remnant hfirst ha hhead,
        patternNamesIn_remnants hrest has htail]

end

theorem flatMap_remnants {f : Node → List String}
    (hf : ∀ {a b}, a.isScoped = true → job.Remnant bindings a b → f b = f a) :
    ∀ {as bs : List Node}, isScopedIn as = true → job.Remnants bindings false as bs →
      bs.flatMap f = as.flatMap f
  | [], _, _, h => by
    cases h
    rfl
  | a :: as, _, hscoped, h => by
    obtain ⟨ha, has⟩ := isScopedIn_cons hscoped
    cases h with
    | cons hhead htail =>
      rw [List.flatMap_cons, List.flatMap_cons, hf ha hhead, flatMap_remnants hf has htail]

theorem earlyName_remnant (hsolid : a.isSolid = true) (hscoped : a.isScoped = true)
    (h : job.Remnant bindings a b) : earlyNames [b] = earlyNames [a] := by
  have hnames := patternNames_remnant hsolid hscoped h
  cases h with
  | filled hyields hsame => exact (not_yields_of_solid hsolid hyields).elim
  | emptied hyields hremoved => rfl
  | ident hmark hparts => rfl
  | @node form origin as bs hordinary hparts =>
    cases form
    case rest | parameterProperty => rfl
    all_goals exact congrArg (· ++ []) hnames

theorem earlyNames_remnants : ∀ {as bs : List Node}, (∀ a ∈ as, a.isSolid = true) →
    isScopedIn as = true → job.Remnants bindings false as bs → earlyNames bs = earlyNames as
  | [], _, _, _, h => by
    cases h
    rfl
  | a :: as, _, hsolid, hscoped, h => by
    obtain ⟨hfirst, hrest⟩ := List.forall_mem_cons.mp hsolid
    obtain ⟨ha, has⟩ := isScopedIn_cons hscoped
    cases h with
    | cons hhead htail =>
      rw [earlyNames_cons, earlyNames_cons a, earlyName_remnant hfirst ha hhead,
        earlyNames_remnants hrest has htail]

/-- What parameters bind early. -/
theorem parameters_remnant (hsolid : ∀ n ∈ a :: a.parts, n.isSolid = true) (hscoped : a.isScoped = true)
    (h : job.Remnant bindings a b) : earlyNames (parametersOf b) = earlyNames (parametersOf a) := by
  obtain ⟨hfirst, hparts⟩ := List.forall_mem_cons.mp hsolid
  cases h with
  | filled hyields hsame => exact (not_yields_of_solid hfirst hyields).elim
  | emptied hyields hremoved => rfl
  | ident hmark hparts => rfl
  | @node form origin as bs hordinary hinner =>
    cases form
    case group => exact earlyNames_remnants hparts (isScoped_mk hscoped).2.2 hinner
    all_goals rfl

/-! ## What is hoisted out of a remnant -/

section

variable (hcalm : job.registry.All (·.handler.Calm job.source.dialect))

include hcalm

theorem isExpression_of_yields (hyields : job.Yields bindings a slot)
    (hsame : Remarked slot.sweep b) : b.form.isExpression = true := by
  obtain ⟨hexpression, -⟩ := calm_of_yields hcalm hyields
  rw [hsame.isExpression]
  obtain ⟨form, origin, parts⟩ := slot
  rcases sweep_cases form origin parts with
    ⟨-, hsweep, -⟩ | ⟨hstatement, -, -⟩ | ⟨-, -, -, hsweep, -⟩ | ⟨-, -, -, hsweep, -⟩
  · rw [hsweep]
    rfl
  · rw [isRemovedStatement_of_isExpression hexpression] at hstatement
    cases hstatement
  · rw [hsweep]
    exact hexpression
  · rw [hsweep]
    exact hexpression

/-- What is read off nothing but its parts is read off a remnant, if expressions and the statements that
are nothing but expressions say nothing. -/
theorem read_remnant {α : Type} {f : Node → α} {none : α}
    (hexpression : ∀ n : Node, n.form.isExpression = true → f n = none)
    (hstatement : ∀ origin n, f (.mk .exprStmt origin [n]) = none) (hempty : f emptyStatement = none)
    (hnode : ∀ bs, job.Remnants bindings a.form.isStatementList a.parts bs →
      f (.mk a.form a.origin bs) = f a)
    (h : job.Remnant bindings a b) : f b = f a := by
  cases h with
  | filled hyields hsame =>
    have ha : a.form.isExpression = true := by
      rcases form_of_yields hyields with hform | hform <;> rw [hform] <;> rfl
    rw [hexpression b (isExpression_of_yields hcalm hyields hsame), hexpression a ha]
  | emptied hyields hremoved => rw [hempty, hstatement]
  | ident hmark hparts => rw [hexpression _ rfl, hexpression _ rfl]
  | node hordinary hparts => exact hnode _ hparts

theorem nameSteps_remnant (h : job.Remnant bindings a b) : nameSteps b = nameSteps a :=
  read_remnant hcalm nameSteps_of_isExpression (fun _ _ => rfl) rfl (fun _ _ => rfl) h

theorem declaratorNames_remnant (hscoped : a.isScoped = true) (h : job.Remnant bindings a b) :
    declaratorNames b = declaratorNames a := by
  refine read_remnant hcalm declaratorNames_of_isExpression (fun _ _ => rfl) rfl (fun bs hparts => ?_) h
  obtain ⟨form, origin, as⟩ := a
  obtain ⟨hbinders, -, hin⟩ := isScoped_mk hscoped
  cases form
  case declarator =>
    cases hparts with
    | nil => rfl
    | @cons _ target _ _ _ htarget hrest =>
      have hsolid := hbinders target (List.mem_singleton_self target)
      exact patternNames_remnant hsolid (isScopedIn_cons hin).1 htarget
  all_goals rfl

theorem memberName_remnant (h : job.Remnant bindings a b) : memberNames [b] = memberNames [a] := by
  refine read_remnant (f := fun n => memberNames [n]) hcalm memberName_of_isExpression (fun _ _ => rfl) rfl
    (fun bs hparts => ?_) h
  obtain ⟨form, origin, as⟩ := a
  cases form
  case enumMember =>
    rcases hparts with _ | @⟨_, key, key', rest, rest', hkey, hrest⟩
    · rfl
    · have hother : memberNames [.mk .enumMember origin (key' :: rest')] =
          memberNames [.mk .enumMember origin (key' :: rest)] := by
        obtain ⟨form, place, parts⟩ := key'
        cases form <;> rfl
      refine hother.trans (read_remnant (f := fun n => memberNames [.mk .enumMember origin (n :: rest)]) hcalm
        (memberName_of_key origin rest) (fun _ _ => rfl) rfl (fun _ _ => ?_) hkey)
      obtain ⟨form, place, parts⟩ := key
      cases form <;> rfl
  all_goals rfl

theorem memberNames_remnants : ∀ {as bs : List Node}, job.Remnants bindings false as bs →
    memberNames bs = memberNames as
  | [], _, h => by
    cases h
    rfl
  | a :: as, _, h => by
    cases h with
    | cons hhead htail =>
      rw [memberNames_cons, memberNames_cons a, memberName_remnant hcalm hhead, memberNames_remnants htail]

theorem comesFirst_declared_remnant (inModule : Bool) (origin : Origin) (h : job.Remnant bindings a b) :
    comesFirst inModule (.mk .exportDecl origin [b]) = comesFirst inModule (.mk .exportDecl origin [a]) := by
  refine read_remnant (f := fun n => comesFirst inModule (.mk .exportDecl origin [n])) hcalm
    (comesFirst_of_declared inModule origin) (fun _ _ => rfl) rfl (fun bs hparts => ?_) h
  obtain ⟨form, place, as⟩ := a
  cases form
  case function role _ _ _ => cases role <;> rfl
  all_goals rfl

theorem comesFirst_remnant (inModule : Bool) (h : job.Remnant bindings a b) :
    comesFirst inModule b = comesFirst inModule a := by
  refine read_remnant hcalm (comesFirst_of_isExpression inModule) (fun _ _ => rfl) rfl
    (fun bs hparts => ?_) h
  obtain ⟨form, origin, as⟩ := a
  cases form
  case exportDecl =>
    rcases hparts with _ | ⟨hdeclared, _ | ⟨_, _⟩⟩
    · rfl
    · exact comesFirst_declared_remnant hcalm inModule origin hdeclared
    · exact (comesFirst_exportDecl ..).trans (comesFirst_exportDecl ..).symm
  case function role _ _ _ => cases role <;> rfl
  all_goals rfl

end

mutual

theorem hoist_remnant (hcalm : job.registry.All (·.handler.Calm job.source.dialect))
    (depth : Depth) : ∀ {a b : Node} (found : Hoist), a.isScoped = true →
    job.Remnant bindings a b → hoist depth b found = hoist depth a found
  | .mk form origin as, b, found, hscoped, h => by
    obtain ⟨hbinders, -, hin⟩ := isScoped_mk hscoped
    refine read_remnant (f := fun n => hoist depth n found) hcalm (hoist_of_isExpression depth found)
      (fun _ _ => rfl) rfl (fun bs (hparts : job.Remnants bindings form.isStatementList as bs) => ?_) h
    change hoist depth (.mk form origin bs) found = hoist depth (.mk form origin as) found
    cases form
    case varDecl =>
      have hnames := flatMap_remnants (declaratorNames_remnant hcalm) hin hparts
      simp only [hoist, hnames]
    case exportDecl | ifStmt | forStmt | forIn | forOf | whileStmt | doWhile | switch | cases | case
        | tryStmt | labeled | withStmt =>
      exact hoistParts_remnants hcalm depth found hin hparts
    case exportDefaultDecl => exact hoistDefault_remnants hcalm depth found hbinders hin hparts
    case block | staticBlock | consequent =>
      have hearly := hoistEarly_remnants hcalm { depth with inModule := false, inBlock := true } found hin
        hparts
      have hlate := hoistLate_remnants hcalm { depth with inModule := false, inBlock := true }
        (hoistEarly { depth with inModule := false, inBlock := true } as found) hin hparts
      simp only [hoist, hearly, hlate]
    case catchClause =>
      cases hparts with
      | nil => rfl
      | @cons _ param param' as bs hparam hrest =>
        have hnames := patternNames_remnant (hbinders param List.mem_cons_self) (isScopedIn_cons hin).1 hparam
        have hinner : ∀ inner, hoistParts { depth with inCatch := true } (param' :: bs) inner =
            hoistParts { depth with inCatch := true } (param :: as) inner := by
          intro inner
          exact hoistParts_remnants hcalm { depth with inCatch := true } inner hin (.cons hparam hrest)
        simp only [hoist, hnames, hinner]
    case function role _ _ _ | «class» role _ _ =>
      cases hparts with
      | nil => rfl
      | @cons _ name _ _ _ hname hrest =>
        have hnames := identNames_remnant (hbinders name List.mem_cons_self) hname
        cases role with
        | declaration => simp only [hoist, hnames]
        | expression => rfl
        | method => rfl
    case enum =>
      cases hparts with
      | nil => rfl
      | cons hname hrest => simp only [hoist, nameSteps_remnant hcalm hname]
    case moduleDecl isGlobal _ =>
      cases isGlobal with
      | true => rfl
      | false =>
        cases hparts with
        | nil => rfl
        | cons hname hrest => simp only [hoist, nameSteps_remnant hcalm hname]
    all_goals rfl
termination_by structural a => a

theorem hoistParts_remnants (hcalm : job.registry.All (·.handler.Calm job.source.dialect))
    (depth : Depth) : ∀ {as bs : List Node} (found : Hoist), isScopedIn as = true →
    job.Remnants bindings false as bs → hoistParts depth bs found = hoistParts depth as found
  | [], _, found, _, h => by
    cases h
    rfl
  | a :: as, _, found, hscoped, h => by
    obtain ⟨ha, has⟩ := isScopedIn_cons hscoped
    cases h with
    | cons hhead htail =>
      rw [hoistParts, hoistParts, hoist_remnant hcalm depth found ha hhead,
        hoistParts_remnants hcalm depth _ has htail]
termination_by structural a => a

theorem hoistEarly_remnants (hcalm : job.registry.All (·.handler.Calm job.source.dialect))
    (depth : Depth) : ∀ {as bs : List Node} (found : Hoist), isScopedIn as = true →
    job.Remnants bindings true as bs → hoistEarly depth bs found = hoistEarly depth as found
  | [], _, found, _, h => by
    cases h
    rfl
  | a :: as, _, found, hscoped, h => by
    obtain ⟨ha, has⟩ := isScopedIn_cons hscoped
    cases h with
    | cons hhead htail =>
      rw [hoistEarly, hoistEarly, comesFirst_remnant hcalm depth.inModule hhead,
        hoist_remnant hcalm depth found ha hhead, hoistEarly_remnants hcalm depth _ has htail]
    | dropped hyields hremoved htail =>
      have hrest := hoistEarly_remnants hcalm depth found has htail
      exact hrest
termination_by structural a => a

theorem hoistLate_remnants (hcalm : job.registry.All (·.handler.Calm job.source.dialect))
    (depth : Depth) : ∀ {as bs : List Node} (found : Hoist), isScopedIn as = true →
    job.Remnants bindings true as bs → hoistLate depth bs found = hoistLate depth as found
  | [], _, found, _, h => by
    cases h
    rfl
  | a :: as, _, found, hscoped, h => by
    obtain ⟨ha, has⟩ := isScopedIn_cons hscoped
    cases h with
    | cons hhead htail =>
      rw [hoistLate, hoistLate, comesFirst_remnant hcalm depth.inModule hhead,
        hoist_remnant hcalm depth found ha hhead, hoistLate_remnants hcalm depth _ has htail]
    | dropped hyields hremoved htail =>
      have hrest := hoistLate_remnants hcalm depth found has htail
      exact hrest
termination_by structural a => a

theorem hoistDefault_remnants (hcalm : job.registry.All (·.handler.Calm job.source.dialect))
    (depth : Depth) {origin : Origin} : ∀ {as bs : List Node} (found : Hoist),
    (∀ n ∈ binders (.mk .exportDefaultDecl origin as), n.isSolid = true) → isScopedIn as = true →
    job.Remnants bindings false as bs → hoistDefault depth bs found = hoistDefault depth as found
  | [], _, found, _, _, h => by
    cases h
    rfl
  | [.mk form place parts], _, found, hbinders, hscoped, h => by
    have hsolid := hbinders (.mk form place parts) (List.mem_singleton_self _)
    obtain ⟨hdeclared, -⟩ := isScopedIn_cons hscoped
    obtain ⟨hinner, -, hin⟩ := isScoped_mk hdeclared
    rcases h with _ | ⟨hhead, _ | _⟩
    cases hhead with
    | filled hyields hsame => exact (not_yields_of_solid hsolid hyields).elim
    | emptied hyields hremoved => rfl
    | ident hmark hparts => rfl
    | node hordinary hparts =>
      cases form
      case «class» =>
        rcases hparts with _ | @⟨_, name, name', _, _, hname, _ | ⟨hmembers, hrest⟩⟩
        · rfl
        · rfl
        · have hnames := identNames_remnant (hinner name List.mem_cons_self) hname
          have hscopedMembers := (isScopedIn_cons (isScopedIn_cons hin).2).1
          simp only [hoistDefault, hnames]
          exact hoistMembers_remnant hcalm depth _ hscopedMembers hmembers
      case function =>
        cases hparts with
        | nil => rfl
        | @cons _ name name' as bs hname hrest =>
          have hsolid := hinner name List.mem_cons_self
          simp only [hoistDefault, identNames_remnant hsolid hname]
      all_goals rfl
  | a :: c :: rest, _, found, _, _, h => by
    rcases h with _ | ⟨hhead, _ | ⟨hnext, htail⟩⟩
    rw [hoistDefault_of_two, hoistDefault_of_two]
termination_by structural a => a

theorem hoistMembers_remnant (hcalm : job.registry.All (·.handler.Calm job.source.dialect))
    (depth : Depth) : ∀ {a b : Node} (found : Hoist), a.isScoped = true →
    job.Remnant bindings a b → hoistMembers depth b found = hoistMembers depth a found
  | .mk form origin as, b, found, hscoped, h => by
    obtain ⟨-, -, hin⟩ := isScoped_mk hscoped
    refine read_remnant (f := fun n => hoistMembers depth n found) hcalm
      (hoistMembers_of_isExpression depth found) (fun _ _ => rfl) rfl (fun bs hparts => ?_) h
    cases form
    case members => exact hoistParts_remnants hcalm depth found hin hparts
    all_goals rfl
termination_by structural a => a

end

/-- What is hoisted out of statements is hoisted out of what is left of them. -/
theorem declaredNames_remnants (hcalm : job.registry.All (·.handler.Calm job.source.dialect))
    (around : List String) (inModule : Bool) (hscoped : isScopedIn as = true)
    (h : job.Remnants bindings true as bs) :
    declaredNames around inModule bs = declaredNames around inModule as := by
  unfold declaredNames
  simp only [hoistEarly_remnants hcalm _ _ hscoped h, hoistLate_remnants hcalm _ _ hscoped h]

end Job

end CallExpander
