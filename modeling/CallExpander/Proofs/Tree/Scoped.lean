import CallExpander.Proofs.Tree.Remarked

/-!
# Where calls do not matter to scopes

A call that declares nothing around it can become any other tree that declares nothing: the scope behind it
is the one before it. Where names are bound that does not help, so none must stand there.
-/

namespace CallExpander.Node

mutual

/-- Whether a tree may declare names around itself. -/
def declares : Node → Bool
  | .mk form _ parts =>
    match form with
    | .ident .. | .removed | .function .. | .arrow _ | .objectAccessor _ | .class .expression .. | .block
    | .staticBlock | .forStmt | .forIn | .forOf _ | .cases | .catchClause => false
    | .class .. | .exportDefaultDecl | .body | .consequent | .moduleBlock | .declarator | .case | .enum ..
    | .moduleDecl .. | .importEquals .. => true
    | _ => declaresIn parts

def declaresIn : List Node → Bool
  | [] => false
  | n :: rest => declares n || declaresIn rest

end

/-- A tree that stands in its place behind every pass. -/
def isSolid (n : Node) : Bool := !n.isCall && !n.isRemoved

/-- The parts of a tree that say what names it binds. -/
def binders : Node → List Node
  | .mk form _ parts =>
    match form with
    | .function .. => parts.take 1 ++ (parts.drop 1).head?.elim [] fun params => params :: params.parts
    | .arrow _ => parts.head?.elim [] fun params => params :: params.parts
    | .objectAccessor _ => (parts.drop 1).head?.elim [] fun params => params :: params.parts
    | .class .. | .declarator | .patternShorthand | .patternDefault | .annotated _ => parts.take 1
    | .enum .. | .patternProperty => parts.drop 1
    | .exportDefaultDecl | .catchClause | .arrayPattern | .objectPattern | .rest | .parameterProperty _ =>
      parts
    | _ => []

mutual

/-- Calls declare nothing around them, and none stands where names are bound. -/
def isScoped : Node → Bool
  | .mk form origin parts =>
    (binders (.mk form origin parts)).all isSolid &&
      (isSolid (.mk form origin parts) || !declaresIn parts) && isScopedIn parts

def isScopedIn : List Node → Bool
  | [] => true
  | n :: rest => isScoped n && isScopedIn rest

end

theorem isScoped_mk {form : Form} {origin : Origin} {parts : List Node}
    (h : isScoped (.mk form origin parts) = true) :
    (∀ n ∈ binders (.mk form origin parts), n.isSolid = true) ∧
      (isSolid (.mk form origin parts) = false → declaresIn parts = false) ∧ isScopedIn parts = true := by
  simp only [isScoped, Bool.and_eq_true, Bool.or_eq_true, Bool.not_eq_true', List.all_eq_true] at h
  obtain ⟨⟨hbinders, hcall⟩, hparts⟩ := h
  refine ⟨hbinders, fun hsolid => ?_, hparts⟩
  rw [hsolid] at hcall
  simpa using hcall

theorem isScopedIn_cons {n : Node} {rest : List Node} (h : isScopedIn (n :: rest) = true) :
    n.isScoped = true ∧ isScopedIn rest = true :=
  Bool.and_eq_true_iff.mp h

mutual

/-- What declares nothing leaves the scope behind it as it is before it. -/
theorem mark_of_declares : ∀ {n : Node} (env : Env), n.declares = false → (mark env n).2 = env
  | .mk form origin parts, env, h => by
    cases form
    case «class» role _ _ =>
      cases role with
      | expression => rfl
      | declaration => cases h
      | method => cases h
    all_goals first | rfl | cases h | exact markAll_of_declares env h

theorem markAll_of_declares : ∀ {parts : List Node} (env : Env), declaresIn parts = false →
    (markAll env parts).2 = env
  | [], _, _ => rfl
  | n :: rest, env, h => by
    obtain ⟨hn, hrest⟩ := Bool.or_eq_false_iff.mp h
    have hmid := mark_of_declares env hn
    change (markAll (mark env n).2 rest).2 = env
    rw [hmid]
    exact markAll_of_declares env hrest

end

mutual

theorem declares_freed : ∀ n : Node, n.freed.declares = n.declares
  | .mk form origin parts => by
    have hparts := declaresIn_freed parts
    rw [freed_mk]
    cases form
    case «class» role _ _ => cases role <;> rfl
    all_goals first | rfl | exact hparts

theorem declaresIn_freed : ∀ parts : List Node, declaresIn (parts.map freed) = declaresIn parts
  | [] => rfl
  | n :: rest => by rw [List.map_cons, declaresIn, declaresIn, declares_freed n, declaresIn_freed rest]

end

theorem Remarked.declares {a b : Node} (h : Remarked a b) : b.declares = a.declares :=
  h.congr declares_freed

end CallExpander.Node
