import CallExpander.Proofs.Expansion.FixedPoint
import CallExpander.Proofs.Expansion.Hoisting
import CallExpander.Proofs.Tree.Marker

/-!
# Bound names stay bound

Resolving names once more frees no name that is left of a program behind a pass, if no call stands where
names are bound and macros leave nothing that declares anything around it. The scope that a tree of the
program is marked in is the scope that what is left of it is marked in: the induction is the recursion of
the marking, with one theorem for each of its functions.
-/

namespace CallExpander

open Expansion Node

namespace Node

theorem markDefault_of_ne (env : Env) (n : Node) (h : ∀ role x y, n.form ≠ .class role x y) :
    markDefault env [n] = ([(mark env n).1], (mark env n).2) := by
  obtain ⟨form, origin, parts⟩ := n
  cases form
  case «class» => exact absurd rfl (h _ _ _)
  all_goals rfl

end Node

namespace Job

variable {job : Job} {bindings : List Binding} {a b slot : Node} {as bs : List Node} {isList : Bool}
  {run : Run}

/-- What a macro leaves declares nothing around it. -/
def Contained (job : Job) (bindings : List Binding) : Prop :=
  ∀ a slot, job.Yields bindings a slot → slot.sweep.declares = false

/-- Macros leave at most expressions in the places of their calls, and nothing that declares anything. -/
structure Tame (job : Job) (bindings : List Binding) : Prop where
  calm : job.registry.All (·.handler.Calm job.source.dialect)
  contained : job.Contained bindings

theorem scope_behind_yields (hscoped : a.isScoped = true) (h : job.Yields bindings a slot) (env : Env) :
    (mark env a).2 = env := by
  obtain ⟨form, origin, parts⟩ := a
  obtain ⟨-, hcall, -⟩ := isScoped_mk hscoped
  rcases form_of_yields h with hform | hform
  · obtain rfl : form = .call := hform
    exact markAll_of_declares env (hcall rfl)
  · obtain rfl : form = .removed := hform
    rfl

theorem marked_filled (hcontained : job.Contained bindings) (hscoped : a.isScoped = true)
    (hyields : job.Yields bindings a slot) (hsame : Remarked slot.sweep b) (env : Env) :
    job.Remnant bindings a (mark env b).1 ∧ (mark env b).2 = (mark env a).2 := by
  refine ⟨.filled hyields (hsame.mark env), ?_⟩
  rw [scope_behind_yields hscoped hyields]
  exact mark_of_declares env (hsame.declares.trans (hcontained _ _ hyields))

/-- Marking carries remnants over if it does so for the parts. -/
theorem marked_node {form : Form} {origin : Origin} {f : List Node → List Node × Env}
    {g : Node → Node × Env}
    (hmark : ∀ parts, g (.mk form origin parts) = (.mk form origin (f parts).1, (f parts).2))
    (hordinary : resolveCall bindings (.mk form origin as) = none)
    (hstable : (g (.mk form origin as)).1 = .mk form origin as)
    (hparts : (f as).1 = as →
      job.Remnants bindings form.isStatementList as (f bs).1 ∧ (f bs).2 = (f as).2) :
    job.Remnant bindings (.mk form origin as) (g (.mk form origin bs)).1 ∧
      (g (.mk form origin bs)).2 = (g (.mk form origin as)).2 := by
  rw [hmark] at hstable
  obtain ⟨hremnants, hscope⟩ := hparts (Node.mk.inj hstable).2.2
  rw [hmark, hmark]
  exact ⟨.node hordinary hremnants, hscope⟩

theorem firstNames_remnants {f : Node → List String}
    (hf : ∀ {a b}, a ∈ as.take 1 → job.Remnant bindings a b → f b = f a)
    (h : job.Remnants bindings false as bs) : (bs.take 1).flatMap f = (as.take 1).flatMap f := by
  cases h with
  | nil => rfl
  | cons hhead htail =>
    have hsame := hf List.mem_cons_self hhead
    simp [hsame]

/-- What stays in its place becomes no class that it was not. -/
theorem form_of_remnant (hsolid : a.isSolid = true) (ha : ∀ role x y, a.form ≠ .class role x y)
    (h : job.Remnant bindings a b) : ∀ role x y, b.form ≠ .class role x y := by
  cases h with
  | filled hyields hsame => exact (not_yields_of_solid hsolid hyields).elim
  | emptied hyields hremoved => exact fun role x y heq => nomatch heq
  | ident hmark hparts => exact fun role x y heq => nomatch heq
  | node hordinary hparts => exact ha

theorem hoist_remnants (hcalm : job.registry.All (·.handler.Calm job.source.dialect)) (env : Env)
    (hscoped : isScopedIn as = true) (h : job.Remnants bindings true as bs) :
    env.hoist bs = env.hoist as := by
  unfold Env.hoist
  rw [declaredNames_remnants hcalm _ _ hscoped h]

theorem hoistItems_remnants (hcalm : job.registry.All (·.handler.Calm job.source.dialect)) (env : Env)
    (hscoped : isScopedIn as = true) (h : job.Remnants bindings true as bs) :
    env.hoistItems bs = env.hoistItems as := by
  unfold Env.hoistItems
  rw [declaredNames_remnants hcalm _ _ hscoped h]

mutual

theorem mark_remnant (tame : job.Tame bindings) : ∀ {a b : Node} (env : Env), a.isScoped = true →
    (mark env a).1 = a → job.Remnant bindings a b →
    job.Remnant bindings a (mark env b).1 ∧ (mark env b).2 = (mark env a).2
  | .mk form origin as, b, env, hscoped, hstable, h => by
    obtain ⟨hbinders, -, hin⟩ := isScoped_mk hscoped
    cases h with
    -- A macro call declared nothing, and what took its place declares nothing: the scopes behind them agree.
    | filled hyields hsame => exact marked_filled tame.contained hscoped hyields hsame env
    | @emptied a slot _ hyields hremoved =>
      have hscope := scope_behind_yields (isScopedIn_cons hin).1 hyields env
      exact ⟨.emptied hyields hremoved, hscope.symm⟩
    | @ident name x y _ _ bs hmark hparts =>
      -- The mark in the program says whether the scope knows the name, and the new mark says so, too.
      have hx : env.knows name = x := (Form.ident.inj (Node.mk.inj hstable).1).2
      exact ⟨.ident (fun htrue => hx.trans htrue) hparts, rfl⟩
    | @node _ _ _ bs hordinary hparts =>
      cases form
      case ident name x =>
        have hx : env.knows name = x := (Form.ident.inj (Node.mk.inj hstable).1).2
        exact ⟨.ident (fun htrue => hx.trans htrue) hparts, rfl⟩
      case removed => exact ⟨.node hordinary hparts, rfl⟩
      case function role _ _ _ =>
        cases role with
        | expression =>
          refine marked_node (f := fun parts =>
            (markFunction (env.function.declare ((parts.take 1).flatMap identNames)) parts, env))
            (fun _ => rfl) hordinary hstable fun hsame => ?_
          have hnames : (bs.take 1).flatMap identNames = (as.take 1).flatMap identNames :=
            firstNames_remnants
              (fun hmem => identNames_remnant (hbinders _ (List.mem_append_left _ hmem))) hparts
          simp only [hnames, and_true]
          exact markFunction_remnants tame _ hbinders hin hsame hparts
        | declaration | method =>
          refine marked_node (f := fun parts => (markFunction env parts, env)) (fun _ => rfl) hordinary
            hstable fun hsame => ?_
          exact ⟨markFunction_remnants tame env hbinders hin hsame hparts, rfl⟩
      case arrow =>
        refine marked_node (f := fun parts => (markArrow env parts, env)) (fun _ => rfl) hordinary
          hstable fun hsame => ?_
        exact ⟨markArrow_remnants tame env hbinders hin hsame hparts, rfl⟩
      case objectAccessor =>
        refine marked_node (f := fun parts => (markAccessor env parts, env)) (fun _ => rfl) hordinary
          hstable fun hsame => ?_
        exact ⟨markAccessor_remnants tame env hbinders hin hsame hparts, rfl⟩
      case «class» role _ _ =>
        have hnames : (bs.take 1).flatMap identNames = (as.take 1).flatMap identNames :=
          firstNames_remnants (fun hmem => identNames_remnant (hbinders _ hmem)) hparts
        cases role with
        | expression =>
          refine marked_node (f := fun parts => (markClass env true parts, env)) (fun _ => rfl) hordinary
            hstable fun hsame => ?_
          exact ⟨markClass_remnants tame env true hbinders hin hsame hparts, rfl⟩
        | declaration | method =>
          refine marked_node (f := fun parts =>
            (markClass (env.declare ((parts.take 1).flatMap identNames)) false parts,
              env.declare ((parts.take 1).flatMap identNames))) (fun _ => rfl) hordinary
            hstable fun hsame => ?_
          simp only [hnames, and_true]
          exact markClass_remnants tame _ false hbinders hin hsame hparts
      case exportDefaultDecl =>
        exact marked_node (f := markDefault env) (fun _ => rfl) hordinary hstable fun hsame =>
          markDefault_remnants tame env hbinders hin hsame hparts
      case block | staticBlock =>
        refine marked_node (f := fun parts => ((markAll (env.block.hoist parts) parts).1, env))
          (fun _ => rfl) hordinary hstable fun hsame => ?_
        rw [hoist_remnants tame.calm env.block hin hparts]
        exact ⟨(markAll_remnants tame _ hin hsame hparts).1, rfl⟩
      case body | consequent =>
        refine marked_node (f := fun parts => markAll (env.hoist parts) parts) (fun _ => rfl) hordinary
          hstable fun hsame => ?_
        rw [hoist_remnants tame.calm env hin hparts]
        exact markAll_remnants tame _ hin hsame hparts
      case moduleBlock =>
        refine marked_node (f := fun parts => markAll (env.hoistItems parts) parts) (fun _ => rfl)
          hordinary hstable fun hsame => ?_
        rw [hoistItems_remnants tame.calm env hin hparts]
        exact markAll_remnants tame _ hin hsame hparts
      case declarator =>
        exact marked_node (f := markDeclared env) (fun _ => rfl) hordinary hstable fun hsame =>
          markDeclared_remnants tame env hbinders hin hsame hparts
      case forStmt | forIn | forOf | cases =>
        refine marked_node (f := fun parts => ((markAll env.block parts).1, env)) (fun _ => rfl) hordinary
          hstable fun hsame => ?_
        exact ⟨(markAll_remnants tame _ hin hsame hparts).1, rfl⟩
      case case =>
        exact marked_node (f := markCase env) (fun _ => rfl) hordinary hstable fun hsame =>
          markCase_remnants tame env hin hsame hparts
      case catchClause =>
        refine marked_node (f := fun parts => (markCatch env.function parts, env)) (fun _ => rfl) hordinary
          hstable fun hsame => ?_
        exact ⟨markCatch_remnants tame _ hbinders hin hsame hparts, rfl⟩
      case enum =>
        have hnames : (bs.take 1).flatMap nameSteps = (as.take 1).flatMap nameSteps :=
          firstNames_remnants (fun _ => nameSteps_remnant tame.calm) hparts
        refine marked_node (f := fun parts =>
          (markEnum (env.declare ((parts.take 1).flatMap nameSteps)).block parts,
            env.declare ((parts.take 1).flatMap nameSteps))) (fun _ => rfl) hordinary
          hstable fun hsame => ?_
        simp only [hnames, and_true]
        exact markEnum_remnants tame _ hbinders hin hsame hparts
      case moduleDecl =>
        have hnames : (bs.take 1).flatMap nameSteps = (as.take 1).flatMap nameSteps :=
          firstNames_remnants (fun _ => nameSteps_remnant tame.calm) hparts
        refine marked_node (f := fun parts =>
          ((markAll ((env.declare (((parts.take 1).flatMap nameSteps).take 1)).block.declare
            (((parts.take 1).flatMap nameSteps).drop 1)) parts).1,
            env.declare (((parts.take 1).flatMap nameSteps).take 1))) (fun _ => rfl) hordinary
          hstable fun hsame => ?_
        simp only [hnames, and_true]
        exact (markAll_remnants tame _ hin hsame hparts).1
      case importEquals =>
        have hnames : (bs.take 1).flatMap nameSteps = (as.take 1).flatMap nameSteps :=
          firstNames_remnants (fun _ => nameSteps_remnant tame.calm) hparts
        refine marked_node (f := fun parts => (parts, env.declare ((parts.take 1).flatMap nameSteps)))
          (fun _ => rfl) hordinary hstable fun _ => ?_
        simp only [hnames, and_true]
        exact hparts
      all_goals
        exact marked_node (f := markAll env) (fun _ => rfl) hordinary hstable fun hsame =>
          markAll_remnants tame env hin hsame hparts
termination_by structural a => a

theorem markAll_remnants (tame : job.Tame bindings) : ∀ {as bs : List Node} {isList : Bool} (env : Env),
    isScopedIn as = true → (markAll env as).1 = as → job.Remnants bindings isList as bs →
    job.Remnants bindings isList as (markAll env bs).1 ∧ (markAll env bs).2 = (markAll env as).2
  | [], _, _, env, _, _, h => by
    cases h
    exact ⟨.nil, rfl⟩
  | a :: as, _, _, env, hscoped, hstable, h => by
    obtain ⟨ha, has⟩ := isScopedIn_cons hscoped
    obtain ⟨hhead, htail⟩ := List.cons.inj hstable
    cases h with
    | @cons _ _ b _ bs hfirst hrest =>
      obtain ⟨hmarked, hscope⟩ := mark_remnant tame env ha hhead hfirst
      obtain ⟨hmarked', hscope'⟩ := markAll_remnants tame (mark env a).2 has htail hrest
      change job.Remnants bindings _ (a :: as) ((mark env b).1 :: (markAll (mark env b).2 bs).1) ∧
        (markAll (mark env b).2 bs).2 = (markAll (mark env a).2 as).2
      rw [hscope]
      exact ⟨.cons hmarked hmarked', hscope'⟩
    | @dropped x slot place _ _ hyields hremoved hrest =>
      have hscope : (mark env (.mk .exprStmt place [x])).2 = env :=
        scope_behind_yields (isScopedIn_cons (isScoped_mk ha).2.2).1 hyields env
      rw [hscope] at htail
      obtain ⟨hmarked, hscope'⟩ := markAll_remnants tame env has htail hrest
      refine ⟨.dropped hyields hremoved hmarked, hscope'.trans ?_⟩
      change _ = (markAll (mark env (.mk .exprStmt place [x])).2 as).2
      rw [hscope]
termination_by structural as => as

theorem markDefault_remnants (tame : job.Tame bindings) {origin : Origin} :
    ∀ {as bs : List Node} (env : Env),
    (∀ n ∈ binders (.mk .exportDefaultDecl origin as), n.isSolid = true) → isScopedIn as = true →
    (markDefault env as).1 = as → job.Remnants bindings false as bs →
    job.Remnants bindings false as (markDefault env bs).1 ∧
      (markDefault env bs).2 = (markDefault env as).2
  | [], _, env, _, _, _, h => by
    cases h
    exact ⟨.nil, rfl⟩
  | [.mk form place parts], _, env, hbinders, hscoped, hstable, h => by
    have hsolid := hbinders (.mk form place parts) (List.mem_singleton_self _)
    obtain ⟨hdeclared, -⟩ := isScopedIn_cons hscoped
    rcases h with _ | ⟨hhead, _ | _⟩
    by_cases hclass : ∃ role x y, form = .class role x y
    · obtain ⟨role, x, y, rfl⟩ := hclass
      cases hhead with
      | filled hyields hsame => exact (not_yields_of_solid hsolid hyields).elim
      | @node _ _ _ bs hordinary hparts =>
        have hin := (isScoped_mk hdeclared).2.2
        have hsame := (Node.mk.inj (List.cons.inj hstable).1).2.2
        obtain ⟨hmarked, hscope⟩ := markAll_remnants tame env hin hsame hparts
        exact ⟨.cons (.node hordinary hmarked) .nil, hscope⟩
    · have ha : ∀ role x y, (Node.mk form place parts).form ≠ .class role x y :=
        fun role x y heq => hclass ⟨role, x, y, heq⟩
      rw [markDefault_of_ne env _ ha] at hstable ⊢
      have hsame := (List.cons.inj hstable).1
      have hmark := mark_remnant tame env hdeclared hsame hhead
      have hb := form_of_remnant hsolid ha hhead
      rw [markDefault_of_ne env _ hb]
      exact ⟨.cons hmark.1 .nil, hmark.2⟩
  | a :: c :: rest, _, env, _, hscoped, hstable, h => by
    obtain ⟨ha, hrest⟩ := isScopedIn_cons hscoped
    rcases h with _ | ⟨hhead, _ | ⟨hnext, htail⟩⟩
    rw [markDefault_of_two] at hstable ⊢
    rw [markDefault_of_two]
    obtain ⟨hfirst, hthen⟩ := List.cons.inj hstable
    obtain ⟨hmarked, hscope⟩ := mark_remnant tame env ha hfirst hhead
    obtain ⟨hmarked', hscope'⟩ :=
      markAll_remnants tame (mark env a).2 hrest hthen (.cons hnext htail)
    rw [← hscope] at hmarked' hscope'
    exact ⟨.cons hmarked hmarked', hscope'.trans (by rw [hscope]; rfl)⟩
termination_by structural as => as

theorem markPattern_remnant (tame : job.Tame bindings) :
    ∀ {a b : Node} (env : Env), a.isSolid = true → a.isScoped = true →
    (markPattern env a).1 = a → job.Remnant bindings a b →
    job.Remnant bindings a (markPattern env b).1 ∧ (markPattern env b).2 = (markPattern env a).2
  | .mk form origin as, b, env, hsolid, hscoped, hstable, h => by
    obtain ⟨hbinders, -, hin⟩ := isScoped_mk hscoped
    cases h with
    | filled hyields hsame => exact (not_yields_of_solid hsolid hyields).elim
    | emptied hyields hremoved => exact ⟨.emptied hyields hremoved, rfl⟩
    | ident hmark hparts => exact ⟨.ident (fun _ => rfl) hparts, rfl⟩
    | @node _ _ _ bs hordinary hparts =>
      cases form
      case ident => exact ⟨.ident (fun _ => rfl) hparts, rfl⟩
      case patternProperty =>
        exact marked_node (f := markProperty env) (fun _ => rfl) hordinary hstable fun hsame =>
          markProperty_remnants tame env hbinders hin hsame hparts
      case patternShorthand =>
        exact marked_node (f := markDeclared env) (fun _ => rfl) hordinary hstable fun hsame =>
          markDeclared_remnants tame env hbinders hin hsame hparts
      case patternDefault =>
        exact marked_node (f := markDeclared env) (fun _ => rfl) hordinary hstable fun hsame =>
          markDeclared_remnants tame env hbinders hin hsame hparts
      case annotated =>
        exact marked_node (f := markDeclared env) (fun _ => rfl) hordinary hstable fun hsame =>
          markDeclared_remnants tame env hbinders hin hsame hparts
      case arrayPattern | objectPattern | rest | parameterProperty =>
        exact marked_node (f := markPatterns env) (fun _ => rfl) hordinary hstable fun hsame =>
          markPatterns_remnants tame env hbinders hin hsame hparts
      all_goals exact ⟨.node hordinary hparts, rfl⟩
termination_by structural a => a

theorem markPatterns_remnants (tame : job.Tame bindings) :
    ∀ {as bs : List Node} (env : Env), (∀ n ∈ as, n.isSolid = true) →
    isScopedIn as = true → (markPatterns env as).1 = as → job.Remnants bindings false as bs →
    job.Remnants bindings false as (markPatterns env bs).1 ∧
      (markPatterns env bs).2 = (markPatterns env as).2
  | [], _, env, _, _, _, h => by
    cases h
    exact ⟨.nil, rfl⟩
  | a :: as, _, env, hsolid, hscoped, hstable, h => by
    obtain ⟨hfirst, hrest⟩ := List.forall_mem_cons.mp hsolid
    obtain ⟨ha, has⟩ := isScopedIn_cons hscoped
    obtain ⟨hhead, htail⟩ := List.cons.inj hstable
    cases h with
    | @cons _ _ b _ bs hb hbs =>
      obtain ⟨hmarked, hscope⟩ := markPattern_remnant tame env hfirst ha hhead hb
      obtain ⟨hmarked', hscope'⟩ :=
        markPatterns_remnants tame (markPattern env a).2 hrest has htail hbs
      change job.Remnants bindings false (a :: as)
          ((markPattern env b).1 :: (markPatterns (markPattern env b).2 bs).1) ∧
        (markPatterns (markPattern env b).2 bs).2 = (markPatterns (markPattern env a).2 as).2
      rw [hscope]
      exact ⟨.cons hmarked hmarked', hscope'⟩
termination_by structural as => as

theorem markDeclared_remnants (tame : job.Tame bindings) : ∀ {as bs : List Node} (env : Env),
    (∀ n ∈ as.take 1, n.isSolid = true) → isScopedIn as = true → (markDeclared env as).1 = as →
    job.Remnants bindings false as bs →
    job.Remnants bindings false as (markDeclared env bs).1 ∧
      (markDeclared env bs).2 = (markDeclared env as).2
  | [], _, env, _, _, _, h => by
    cases h
    exact ⟨.nil, rfl⟩
  | target :: rest, _, env, hsolid, hscoped, hstable, h => by
    have hfirst := hsolid target List.mem_cons_self
    obtain ⟨htarget, hrest⟩ := isScopedIn_cons hscoped
    obtain ⟨hhead, htail⟩ := List.cons.inj hstable
    cases h with
    | @cons _ _ b _ bs hb hbs =>
      obtain ⟨hmarked, hscope⟩ := markPattern_remnant tame env hfirst htarget hhead hb
      obtain ⟨hmarked', hscope'⟩ :=
        markAll_remnants tame (markPattern env target).2 hrest htail hbs
      change job.Remnants bindings false (target :: rest)
          ((markPattern env b).1 :: (markAll (markPattern env b).2 bs).1) ∧
        (markAll (markPattern env b).2 bs).2 = (markAll (markPattern env target).2 rest).2
      rw [hscope]
      exact ⟨.cons hmarked hmarked', hscope'⟩
termination_by structural as => as

theorem markProperty_remnants (tame : job.Tame bindings) {origin : Origin} :
    ∀ {as bs : List Node} (env : Env),
    (∀ n ∈ binders (.mk .patternProperty origin as), n.isSolid = true) → isScopedIn as = true →
    (markProperty env as).1 = as → job.Remnants bindings false as bs →
    job.Remnants bindings false as (markProperty env bs).1 ∧
      (markProperty env bs).2 = (markProperty env as).2
  | [], _, env, _, _, _, h => by
    cases h
    exact ⟨.nil, rfl⟩
  | key :: values, _, env, hsolid, hscoped, hstable, h => by
    obtain ⟨hkey, hvalues⟩ := isScopedIn_cons hscoped
    obtain ⟨hhead, htail⟩ := List.cons.inj hstable
    cases h with
    | @cons _ _ b _ bs hb hbs =>
      obtain ⟨hmarked, hscope⟩ := mark_remnant tame env hkey hhead hb
      obtain ⟨hmarked', hscope'⟩ :=
        markPatterns_remnants tame (mark env key).2 hsolid hvalues htail hbs
      change job.Remnants bindings false (key :: values)
          ((mark env b).1 :: (markPatterns (mark env b).2 bs).1) ∧
        (markPatterns (mark env b).2 bs).2 = (markPatterns (mark env key).2 values).2
      rw [hscope]
      exact ⟨.cons hmarked hmarked', hscope'⟩
termination_by structural as => as

theorem markParameters_remnant (tame : job.Tame bindings) :
    ∀ {a b : Node} (env : Env), (∀ n ∈ a :: a.parts, n.isSolid = true) →
    a.isScoped = true → (markParameters env a).1 = a → job.Remnant bindings a b →
    job.Remnant bindings a (markParameters env b).1 ∧
      (markParameters env b).2 = (markParameters env a).2
  | .mk form origin as, b, env, hsolid, hscoped, hstable, h => by
    obtain ⟨hfirst, hparts⟩ := List.forall_mem_cons.mp hsolid
    obtain ⟨-, -, hin⟩ := isScoped_mk hscoped
    cases h with
    | filled hyields hsame => exact (not_yields_of_solid hfirst hyields).elim
    | emptied hyields hremoved => exact ⟨.emptied hyields hremoved, rfl⟩
    | ident hmark hinner => exact ⟨.ident hmark hinner, rfl⟩
    | @node _ _ _ bs hordinary hinner =>
      cases form
      case group =>
        exact marked_node (f := markPatterns env) (fun _ => rfl) hordinary hstable fun hsame =>
          markPatterns_remnants tame env hparts hin hsame hinner
      all_goals exact ⟨.node hordinary hinner, rfl⟩
termination_by structural a => a

theorem markFunction_remnants (tame : job.Tame bindings) {origin : Origin} {role : Role} {x y z : Bool} :
    ∀ {as bs : List Node} (env : Env),
    (∀ n ∈ binders (.mk (.function role x y z) origin as), n.isSolid = true) →
    isScopedIn as = true → markFunction env as = as → job.Remnants bindings false as bs →
    job.Remnants bindings false as (markFunction env bs)
  | name :: params :: body :: typeParams :: rest, _, env, hsolid, hscoped, hstable, h => by
    obtain ⟨hname, hscoped⟩ := isScopedIn_cons hscoped
    obtain ⟨hparams, hscoped⟩ := isScopedIn_cons hscoped
    obtain ⟨hbody, hscoped⟩ := isScopedIn_cons hscoped
    obtain ⟨htypes, hrest⟩ := isScopedIn_cons hscoped
    obtain ⟨hfirst, htail⟩ := List.cons.inj hstable
    obtain ⟨hsecond, htail⟩ := List.cons.inj htail
    obtain ⟨hthird, htail⟩ := List.cons.inj htail
    obtain ⟨hfourth, htail⟩ := List.cons.inj htail
    have hsolidParams : ∀ n ∈ params :: params.parts, n.isSolid = true :=
      fun n hn => hsolid n (List.mem_cons_of_mem name hn)
    rcases h with _ | ⟨hname', _ | ⟨hparams', _ | ⟨hbody', _ | ⟨htypes', hrest'⟩⟩⟩⟩
    have hearly := parameters_remnant hsolidParams hparams hparams'
    obtain ⟨hmarked, -⟩ := mark_remnant tame env hname hfirst hname'
    obtain ⟨hmarkedTypes, hscope⟩ := mark_remnant tame _ htypes hfourth htypes'
    obtain ⟨hmarkedParams, hscope'⟩ := markParameters_remnant tame _ hsolidParams hparams hsecond hparams'
    obtain ⟨hmarkedRest, hscope''⟩ := markAll_remnants tame _ hrest htail hrest'
    obtain ⟨hmarkedBody, -⟩ := mark_remnant tame _ hbody hthird hbody'
    simp only [markFunction, hearly, hscope, hscope', hscope'']
    exact .cons hmarked (.cons hmarkedParams (.cons hmarkedBody (.cons hmarkedTypes hmarkedRest)))
  | [], _, _, _, _, _, h => by
    cases h
    exact .nil
  | [_], _, _, _, _, _, h => by
    rcases h with _ | ⟨hb, _ | _⟩
    exact .cons hb .nil
  | [_, _], _, _, _, _, _, h => by
    rcases h with _ | ⟨hb, _ | ⟨hb', _ | _⟩⟩
    exact .cons hb (.cons hb' .nil)
  | [_, _, _], _, _, _, _, _, h => by
    rcases h with _ | ⟨hb, _ | ⟨hb', _ | ⟨hb'', _ | _⟩⟩⟩
    exact .cons hb (.cons hb' (.cons hb'' .nil))
termination_by structural as => as

theorem markArrow_remnants (tame : job.Tame bindings) {origin : Origin} {x : Bool} :
    ∀ {as bs : List Node} (env : Env),
    (∀ n ∈ binders (.mk (.arrow x) origin as), n.isSolid = true) → isScopedIn as = true →
    markArrow env as = as → job.Remnants bindings false as bs →
    job.Remnants bindings false as (markArrow env bs)
  | params :: body :: typeParams :: rest, _, env, hsolid, hscoped, hstable, h => by
    obtain ⟨hparams, hscoped⟩ := isScopedIn_cons hscoped
    obtain ⟨hbody, hscoped⟩ := isScopedIn_cons hscoped
    obtain ⟨htypes, hrest⟩ := isScopedIn_cons hscoped
    obtain ⟨hfirst, htail⟩ := List.cons.inj hstable
    obtain ⟨hsecond, htail⟩ := List.cons.inj htail
    obtain ⟨hthird, htail⟩ := List.cons.inj htail
    rcases h with _ | ⟨hparams', _ | ⟨hbody', _ | ⟨htypes', hrest'⟩⟩⟩
    have hearly := parameters_remnant hsolid hparams hparams'
    obtain ⟨hmarkedTypes, hscope⟩ := mark_remnant tame _ htypes hthird htypes'
    obtain ⟨hmarkedParams, hscope'⟩ := markParameters_remnant tame _ hsolid hparams hfirst hparams'
    obtain ⟨hmarkedBody, hscope''⟩ := mark_remnant tame _ hbody hsecond hbody'
    obtain ⟨hmarkedRest, -⟩ := markAll_remnants tame _ hrest htail hrest'
    simp only [markArrow, hearly, hscope, hscope', hscope'']
    exact .cons hmarkedParams (.cons hmarkedBody (.cons hmarkedTypes hmarkedRest))
  | [], _, _, _, _, _, h => by
    cases h
    exact .nil
  | [_], _, _, _, _, _, h => by
    rcases h with _ | ⟨hb, _ | _⟩
    exact .cons hb .nil
  | [_, _], _, _, _, _, _, h => by
    rcases h with _ | ⟨hb, _ | ⟨hb', _ | _⟩⟩
    exact .cons hb (.cons hb' .nil)
termination_by structural as => as

theorem markAccessor_remnants (tame : job.Tame bindings) {origin : Origin} {kind : MethodKind} :
    ∀ {as bs : List Node} (env : Env),
    (∀ n ∈ binders (.mk (.objectAccessor kind) origin as), n.isSolid = true) → isScopedIn as = true →
    markAccessor env as = as → job.Remnants bindings false as bs →
    job.Remnants bindings false as (markAccessor env bs)
  | key :: params :: rest, _, env, hsolid, hscoped, hstable, h => by
    obtain ⟨hkey, hscoped⟩ := isScopedIn_cons hscoped
    obtain ⟨hparams, hrest⟩ := isScopedIn_cons hscoped
    obtain ⟨hfirst, htail⟩ := List.cons.inj hstable
    obtain ⟨hsecond, htail⟩ := List.cons.inj htail
    rcases h with _ | ⟨hkey', _ | ⟨hparams', hrest'⟩⟩
    obtain ⟨hmarked, -⟩ := mark_remnant tame env hkey hfirst hkey'
    obtain ⟨hmarkedParams, hscope⟩ := markParameters_remnant tame _ hsolid hparams hsecond hparams'
    obtain ⟨hmarkedRest, -⟩ := markAll_remnants tame _ hrest htail hrest'
    simp only [markAccessor, hscope]
    exact .cons hmarked (.cons hmarkedParams hmarkedRest)
  | [], _, _, _, _, _, h => by
    cases h
    exact .nil
  | [_], _, _, _, _, _, h => by
    rcases h with _ | ⟨hb, _ | _⟩
    exact .cons hb .nil
termination_by structural as => as

theorem markClass_remnants (tame : job.Tame bindings) {origin : Origin} {role : Role} {x y : Bool} :
    ∀ {as bs : List Node} (env : Env) (isExpression : Bool),
    (∀ n ∈ binders (.mk (.class role x y) origin as), n.isSolid = true) → isScopedIn as = true →
    markClass env isExpression as = as → job.Remnants bindings false as bs →
    job.Remnants bindings false as (markClass env isExpression bs)
  | name :: members :: parent :: rest, _, env, isExpression, hsolid, hscoped, hstable, h => by
    obtain ⟨hname, hscoped⟩ := isScopedIn_cons hscoped
    obtain ⟨hmembers, hscoped⟩ := isScopedIn_cons hscoped
    obtain ⟨hparent, hrest⟩ := isScopedIn_cons hscoped
    obtain ⟨hfirst, htail⟩ := List.cons.inj hstable
    obtain ⟨hsecond, htail⟩ := List.cons.inj htail
    obtain ⟨hthird, htail⟩ := List.cons.inj htail
    rcases h with _ | ⟨hb, _ | ⟨hb', _ | ⟨hb'', hbs⟩⟩⟩
    have hnames := identNames_remnant (hsolid name List.mem_cons_self) hb
    obtain ⟨hmarked, -⟩ := mark_remnant tame _ hname hfirst hb
    obtain ⟨hmarked', -⟩ := mark_remnant tame _ hmembers hsecond hb'
    obtain ⟨hothers, -⟩ := markAll_remnants tame _ hrest htail hbs
    simp only [markClass, hnames]
    cases isExpression with
    | true =>
      obtain ⟨hmarked'', -⟩ := mark_remnant tame env hparent hthird hb''
      exact .cons hmarked (.cons hmarked' (.cons hmarked'' hothers))
    | false =>
      obtain ⟨hmarked'', -⟩ := mark_remnant tame env.function hparent hthird hb''
      exact .cons hmarked (.cons hmarked' (.cons hmarked'' hothers))
  | [], _, _, _, _, _, _, h => by
    cases h
    exact .nil
  | [_], _, _, _, _, _, _, h => by
    rcases h with _ | ⟨hb, _ | _⟩
    exact .cons hb .nil
  | [_, _], _, _, _, _, _, _, h => by
    rcases h with _ | ⟨hb, _ | ⟨hb', _ | _⟩⟩
    exact .cons hb (.cons hb' .nil)
termination_by structural as => as

theorem markCase_remnants (tame : job.Tame bindings) :
    ∀ {as bs : List Node} (env : Env), isScopedIn as = true →
    (markCase env as).1 = as → job.Remnants bindings false as bs →
    job.Remnants bindings false as (markCase env bs).1 ∧ (markCase env bs).2 = (markCase env as).2
  | [test, consequent], _, env, hscoped, hstable, h => by
    obtain ⟨htest, hscoped⟩ := isScopedIn_cons hscoped
    obtain ⟨hconsequent, -⟩ := isScopedIn_cons hscoped
    obtain ⟨hfirst, htail⟩ := List.cons.inj hstable
    rcases h with _ | ⟨hb, _ | ⟨hb', _ | _⟩⟩
    obtain ⟨hmarked, hscope⟩ :=
      mark_remnant tame env hconsequent (List.cons.inj htail).1 hb'
    obtain ⟨hmarked', hscope'⟩ :=
      mark_remnant tame (mark env consequent).2 htest hfirst hb
    simp only [markCase, hscope]
    exact ⟨.cons hmarked' (.cons hmarked .nil), hscope'⟩
  | [], _, _, _, _, h => by
    cases h
    exact ⟨.nil, rfl⟩
  | [_], _, _, _, _, h => by
    rcases h with _ | ⟨hb, _ | _⟩
    exact ⟨.cons hb .nil, rfl⟩
  | _ :: _ :: _ :: _, _, _, _, _, h => by
    rcases h with _ | ⟨hb, _ | ⟨hb', _ | ⟨hb'', hbs⟩⟩⟩
    exact ⟨.cons hb (.cons hb' (.cons hb'' hbs)), rfl⟩
termination_by structural as => as

theorem markCatch_remnants (tame : job.Tame bindings) {origin : Origin} :
    ∀ {as bs : List Node} (env : Env),
    (∀ n ∈ binders (.mk .catchClause origin as), n.isSolid = true) → isScopedIn as = true →
    markCatch env as = as → job.Remnants bindings false as bs →
    job.Remnants bindings false as (markCatch env bs)
  | [param, .mk form place statements], _, env, hsolid, hscoped, hstable, h => by
    obtain ⟨hparam, hscoped⟩ := isScopedIn_cons hscoped
    obtain ⟨hblock, -⟩ := isScopedIn_cons hscoped
    obtain ⟨hfirst, hthen⟩ := List.forall_mem_cons.mp hsolid
    have hsecond := hthen _ (List.mem_singleton_self _)
    rcases h with _ | ⟨hb, _ | ⟨hb', _ | _⟩⟩
    cases hb' with
    | filled hyields hsame => exact (not_yields_of_solid hsecond hyields).elim
    | emptied hyields hremoved => exact .cons hb (.cons (.emptied hyields hremoved) .nil)
    | ident hmark hparts => exact .cons hb (.cons (.ident hmark hparts) .nil)
    | @node _ _ _ bs hordinary hparts =>
      cases form
      case block =>
        have hin := (isScoped_mk hblock).2.2
        obtain ⟨hhead, htail⟩ := List.cons.inj hstable
        have hsame := (Node.mk.inj (List.cons.inj htail).1).2.2
        obtain ⟨hmarked, hscope⟩ := markPattern_remnant tame env hfirst hparam hhead hb
        obtain ⟨hmarked', -⟩ := markAll_remnants tame _ hin hsame hparts
        have hhoist := hoist_remnants tame.calm (markPattern env param).2 hin hparts
        simp only [markCatch, hscope, hhoist]
        exact .cons hmarked (.cons (.node hordinary hmarked') .nil)
      all_goals exact .cons hb (.cons (.node hordinary hparts) .nil)
  | [], _, _, _, _, _, h => by
    cases h
    exact .nil
  | [_], _, _, _, _, _, h => by
    rcases h with _ | ⟨hb, _ | _⟩
    exact .cons hb .nil
  | _ :: _ :: _ :: _, _, _, _, _, _, h => by
    rcases h with _ | ⟨hb, _ | ⟨hb', _ | ⟨hb'', hbs⟩⟩⟩
    rw [markCatch_of_three]
    exact .cons hb (.cons hb' (.cons hb'' hbs))
termination_by structural as => as

theorem markEnum_remnants (tame : job.Tame bindings) {origin : Origin} {x y : Bool} :
    ∀ {as bs : List Node} (env : Env),
    (∀ n ∈ binders (.mk (.enum x y) origin as), n.isSolid = true) → isScopedIn as = true →
    markEnum env as = as → job.Remnants bindings false as bs →
    job.Remnants bindings false as (markEnum env bs)
  | [name, .mk form place members], _, env, hsolid, hscoped, hstable, h => by
    obtain ⟨-, hscoped⟩ := isScopedIn_cons hscoped
    obtain ⟨hmembers, -⟩ := isScopedIn_cons hscoped
    have hfirst := hsolid (.mk form place members) (List.mem_singleton_self _)
    rcases h with _ | ⟨hb, _ | ⟨hb', _ | _⟩⟩
    cases hb' with
    | filled hyields hsame => exact (not_yields_of_solid hfirst hyields).elim
    | emptied hyields hremoved => exact .cons hb (.cons (.emptied hyields hremoved) .nil)
    | ident hmark hparts => exact .cons hb (.cons (.ident hmark hparts) .nil)
    | @node _ _ _ bs hordinary hparts =>
      cases form
      case enumMembers =>
        have hin := (isScoped_mk hmembers).2.2
        have hsame := (Node.mk.inj (List.cons.inj (List.cons.inj hstable).2).1).2.2
        obtain ⟨hmarked, -⟩ := markAll_remnants tame _ hin hsame hparts
        simp only [markEnum, memberNames_remnants tame.calm hparts]
        exact .cons hb (.cons (.node hordinary hmarked) .nil)
      all_goals exact .cons hb (.cons (.node hordinary hparts) .nil)
  | [], _, _, _, _, _, h => by
    cases h
    exact .nil
  | [_], _, _, _, _, _, h => by
    rcases h with _ | ⟨hb, _ | _⟩
    exact .cons hb .nil
  | _ :: _ :: _ :: _, _, _, _, _, _, h => by
    rcases h with _ | ⟨hb, _ | ⟨hb', _ | ⟨hb'', hbs⟩⟩⟩
    rw [markEnum_of_three]
    exact .cons hb (.cons hb' (.cons hb'' hbs))
termination_by structural as => as

end

end Job

end CallExpander
