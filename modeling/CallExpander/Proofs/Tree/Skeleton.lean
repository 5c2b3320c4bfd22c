import CallExpander.Tree.Scope
import CallExpander.Tree.Sweep
import Mathlib.Data.List.Forall2

/-!
# What declarations depend on

The skeleton of a tree is what is left of it when markers are cleaned up and it is forgotten which
names are bound. Cleaning up and marking names keep the skeleton, and the names that a piece of
program declares can be read off its skeleton; so neither of the two changes what is declared.
-/

namespace CallExpander

def Form.unmark : Form → Form
  | .ident text _ => .ident text false
  | form => form

namespace Node

mutual

/-- The tree without markers and without marks on names. -/
def skeleton : Node → Node
  | .mk .removed _ _ => undefined
  | .mk form origin parts =>
    if isRemovedStatement (.mk form origin parts) then emptyStatement
    else if form.isStatementList then .mk form.unmark origin (skeletonStatements parts)
    else .mk form.unmark origin (skeletonParts parts)

def skeletonParts : List Node → List Node
  | [] => []
  | n :: rest => skeleton n :: skeletonParts rest

/-- The skeletons of a list of statements, without those that are markers. -/
def skeletonStatements : List Node → List Node
  | [] => []
  | n :: rest =>
    if isRemovedStatement n then skeletonStatements rest
    else skeleton n :: skeletonStatements rest

end

theorem skeletonParts_eq_map (parts : List Node) : skeletonParts parts = parts.map skeleton := by
  induction parts with
  | nil => rfl
  | cons n rest ih => rw [skeletonParts, ih, List.map_cons]

theorem sweepParts_eq_map (parts : List Node) : sweepParts parts = parts.map sweep := by
  induction parts with
  | nil => rfl
  | cons n rest ih => rw [sweepParts, ih, List.map_cons]

/-- The kinds of trees that cleaning up tells apart. -/
theorem sweep_cases (form : Form) (origin : Origin) (parts : List Node) :
    (form = .removed ∧ sweep (.mk form origin parts) = undefined ∧
        skeleton (.mk form origin parts) = undefined) ∨
    (isRemovedStatement (.mk form origin parts) = true ∧
        sweep (.mk form origin parts) = emptyStatement ∧
        skeleton (.mk form origin parts) = emptyStatement) ∨
    (isRemovedStatement (.mk form origin parts) = false ∧ form ≠ .removed ∧
        form.isStatementList = true ∧
        sweep (.mk form origin parts) = .mk form origin (sweepStatements parts) ∧
        skeleton (.mk form origin parts) = .mk form.unmark origin (skeletonStatements parts)) ∨
    (isRemovedStatement (.mk form origin parts) = false ∧ form ≠ .removed ∧
        form.isStatementList = false ∧
        sweep (.mk form origin parts) = .mk form origin (parts.map sweep) ∧
        skeleton (.mk form origin parts) = .mk form.unmark origin (parts.map skeleton)) := by
  by_cases hremoved : form = .removed
  · subst hremoved
    exact .inl ⟨rfl, by rw [sweep], by rw [skeleton]⟩
  rw [sweep.eq_2 _ _ _ (fun h => hremoved h), skeleton.eq_2 _ _ _ (fun h => hremoved h)]
  right
  split
  · next h => exact .inl ⟨h, rfl, rfl⟩
  · next h =>
    right
    split
    · next hlist => exact .inl ⟨by simpa using h, hremoved, hlist, rfl, rfl⟩
    · next hlist =>
      rw [sweepParts_eq_map, skeletonParts_eq_map]
      exact .inr ⟨by simpa using h, hremoved, by simpa using hlist, rfl, rfl⟩

/-- Cleaning up leaves no marker. -/
@[simp] theorem isRemoved_sweep : ∀ n : Node, (sweep n).isRemoved = false
  | .mk form origin parts => by
    rcases sweep_cases form origin parts with
      ⟨_, h, _⟩ | ⟨_, h, _⟩ | ⟨_, hform, _, h, _⟩ | ⟨_, hform, _, h, _⟩ <;> rw [h]
    · rfl
    · rfl
    all_goals
      unfold isRemoved
      split
      · next heq => exact absurd heq hform
      · rfl

theorem isRemovedStatement_of_parts {form : Form} {origin : Origin} {parts : List Node}
    (h : ∀ n ∈ parts, n.isRemoved = false) : isRemovedStatement (.mk form origin parts) = false := by
  unfold isRemovedStatement
  split
  · next heq => cases heq; exact h _ (by simp)
  · rfl

theorem isRemovedStatement_of_list {form : Form} {origin : Origin} {parts : List Node}
    (hlist : form.isStatementList = true) : isRemovedStatement (.mk form origin parts) = false := by
  cases form <;> first | rfl | cases hlist

theorem isRemoved_of_mem_sweep {parts : List Node} : ∀ n ∈ parts.map sweep, n.isRemoved = false := by
  intro n hn
  obtain ⟨m, -, rfl⟩ := List.mem_map.mp hn
  exact isRemoved_sweep m

@[simp] theorem isRemovedStatement_sweep : ∀ n : Node, isRemovedStatement (sweep n) = false
  | .mk form origin parts => by
    rcases sweep_cases form origin parts with
      ⟨_, h, _⟩ | ⟨_, h, _⟩ | ⟨_, _, hlist, h, _⟩ | ⟨_, _, _, h, _⟩ <;> rw [h]
    · rfl
    · rfl
    · exact isRemovedStatement_of_list hlist
    · exact isRemovedStatement_of_parts isRemoved_of_mem_sweep

theorem skeleton_of_list {form : Form} {origin : Origin} {parts : List Node}
    (hlist : form.isStatementList = true) :
    skeleton (.mk form origin parts) = .mk form.unmark origin (skeletonStatements parts) := by
  rcases sweep_cases form origin parts with
    ⟨rfl, _⟩ | ⟨h, _⟩ | ⟨_, _, _, _, h⟩ | ⟨_, _, h, _⟩
  · cases hlist
  · rw [isRemovedStatement_of_list hlist] at h; cases h
  · exact h
  · rw [hlist] at h; cases h

theorem skeleton_of_parts {form : Form} {origin : Origin} {parts : List Node}
    (hform : form ≠ .removed) (hlist : form.isStatementList = false)
    (hstatement : isRemovedStatement (.mk form origin parts) = false) :
    skeleton (.mk form origin parts) = .mk form.unmark origin (parts.map skeleton) := by
  rcases sweep_cases form origin parts with
    ⟨h, _⟩ | ⟨h, _⟩ | ⟨_, _, h, _⟩ | ⟨_, _, _, _, h⟩
  · exact absurd h hform
  · rw [hstatement] at h; cases h
  · rw [hlist] at h; cases h
  · exact h

mutual

/-- Cleaning up keeps the skeleton. -/
@[simp] theorem skeleton_sweep : ∀ n : Node, skeleton (sweep n) = skeleton n
  | .mk form origin parts => by
    rcases sweep_cases form origin parts with
      ⟨_, h, hs⟩ | ⟨_, h, hs⟩ | ⟨_, _, hlist, h, hs⟩ | ⟨_, hform, hlist, h, hs⟩ <;> rw [h, hs]
    · rfl
    · rfl
    · rw [skeleton_of_list hlist, skeletonStatements_sweep parts]
    · rw [skeleton_of_parts hform hlist (isRemovedStatement_of_parts isRemoved_of_mem_sweep),
        map_skeleton_sweep parts]

theorem map_skeleton_sweep : ∀ parts : List Node,
    (parts.map sweep).map skeleton = parts.map skeleton
  | [] => rfl
  | n :: rest => by
    simp only [List.map_cons]
    rw [skeleton_sweep n, map_skeleton_sweep rest]

theorem skeletonStatements_sweep : ∀ parts : List Node,
    skeletonStatements (sweepStatements parts) = skeletonStatements parts
  | [] => rfl
  | n :: rest => by
    rw [sweepStatements, skeletonStatements]
    split
    · exact skeletonStatements_sweep rest
    · rw [skeletonStatements, isRemovedStatement_sweep, if_neg (by simp), skeleton_sweep n,
        skeletonStatements_sweep rest]

end

/-- Two trees that differ only in which names are marked as bound. -/
structure Alike (a b : Node) : Prop where
  skeleton : a.skeleton = b.skeleton
  isRemoved : a.isRemoved = b.isRemoved
  isRemovedStatement : a.isRemovedStatement = b.isRemovedStatement

@[refl] theorem Alike.refl (n : Node) : Alike n n := ⟨rfl, rfl, rfl⟩

theorem skeletonStatements_congr {as bs : List Node} (h : List.Forall₂ Alike as bs) :
    skeletonStatements as = skeletonStatements bs := by
  induction h with
  | nil => rfl
  | cons hab _ ih =>
    simp only [skeletonStatements]
    rw [hab.isRemovedStatement, hab.skeleton, ih]

theorem map_skeleton_congr {as bs : List Node} (h : List.Forall₂ Alike as bs) :
    as.map Node.skeleton = bs.map Node.skeleton := by
  induction h with
  | nil => rfl
  | cons hab _ ih => rw [List.map_cons, List.map_cons, hab.skeleton, ih]

theorem isRemovedStatement_congr {form : Form} {origin : Origin} {as bs : List Node}
    (h : List.Forall₂ Alike as bs) :
    isRemovedStatement (.mk form origin as) = isRemovedStatement (.mk form origin bs) := by
  rcases h with _ | ⟨hab, _ | ⟨_, _⟩⟩
  · rfl
  · cases form <;> first | rfl | exact hab.isRemoved
  · cases form <;> rfl

/-- Parts that are alike make trees that are. -/
theorem Alike.node {form : Form} {origin : Origin} {as bs : List Node}
    (h : List.Forall₂ Alike as bs) : Alike (.mk form origin as) (.mk form origin bs) where
  skeleton := by
    have hstatement := @isRemovedStatement_congr form origin as bs h
    rcases sweep_cases form origin as with
      ⟨rfl, _, ha⟩ | ⟨hs, _, ha⟩ | ⟨_, _, hlist, _, ha⟩ | ⟨hs, hform, hlist, _, ha⟩ <;> rw [ha]
    · rw [Node.skeleton]
    · rcases sweep_cases form origin bs with
        ⟨rfl, _, hb⟩ | ⟨_, _, hb⟩ | ⟨h, _⟩ | ⟨h, _⟩
      · cases hs
      · exact hb.symm
      all_goals rw [← hstatement, hs] at h; cases h
    · rw [skeleton_of_list hlist, skeletonStatements_congr h]
    · rw [skeleton_of_parts hform hlist (hstatement ▸ hs), map_skeleton_congr h]
  isRemoved := by cases form <;> rfl
  isRemovedStatement := isRemovedStatement_congr h

/-! ## Names that can be read off a skeleton -/

theorem skeleton_exprStmt (origin : Origin) (parts : List Node) :
    skeleton (.mk .exprStmt origin parts) = emptyStatement ∨
      skeleton (.mk .exprStmt origin parts) = .mk .exprStmt origin (parts.map skeleton) := by
  rcases sweep_cases .exprStmt origin parts with
    ⟨h, _⟩ | ⟨_, _, h⟩ | ⟨_, _, h, _⟩ | ⟨_, _, _, _, h⟩
  · cases h
  · exact .inl h
  · cases h
  · exact .inr h

theorem identNames_skeleton : ∀ n : Node, identNames (skeleton n) = identNames n
  | .mk form origin parts => by
    cases form <;> first
      | rfl
      | rcases skeleton_exprStmt origin parts with h | h <;> rw [h] <;> rfl

theorem nameSteps_skeleton : ∀ n : Node, nameSteps (skeleton n) = nameSteps n
  | .mk form origin parts => by
    cases form <;> first
      | rfl
      | rcases skeleton_exprStmt origin parts with h | h <;> rw [h] <;> rfl

mutual

theorem patternNames_skeleton : ∀ n : Node, patternNames (skeleton n) = patternNames n
  | .mk form origin parts => by
    cases form
    case patternProperty =>
      cases parts with
      | nil => rfl
      | cons key values => exact patternNamesIn_skeleton values
    case patternShorthand | patternDefault | annotated =>
      cases parts with
      | nil => rfl
      | cons target rest => exact patternNames_skeleton target
    case arrayPattern | objectPattern | rest | parameterProperty =>
      exact patternNamesIn_skeleton parts
    case exprStmt => rcases skeleton_exprStmt origin parts with h | h <;> rw [h] <;> rfl
    all_goals rfl

theorem patternNamesIn_skeleton : ∀ parts : List Node,
    patternNamesIn (skeletonParts parts) = patternNamesIn parts
  | [] => rfl
  | n :: rest => by
    rw [skeletonParts, patternNamesIn, patternNamesIn, patternNames_skeleton n,
      patternNamesIn_skeleton rest]

end

theorem declaratorNames_skeleton : ∀ n : Node, declaratorNames (skeleton n) = declaratorNames n
  | .mk form origin parts => by
    cases form
    case declarator =>
      cases parts with
      | nil => rfl
      | cons target rest => exact patternNames_skeleton target
    case exprStmt => rcases skeleton_exprStmt origin parts with h | h <;> rw [h] <;> rfl
    all_goals rfl

theorem flatMap_skeleton {f : Node → List String} (h : ∀ n, f (skeleton n) = f n) :
    ∀ parts : List Node, (skeletonParts parts).flatMap f = parts.flatMap f
  | [] => rfl
  | n :: rest => by
    rw [skeletonParts, List.flatMap_cons, List.flatMap_cons, h n, flatMap_skeleton h rest]

theorem comesFirst_exportDecl (inModule : Bool) (origin : Origin) (n m : Node) (rest : List Node) :
    comesFirst inModule (.mk .exportDecl origin (n :: m :: rest)) = false := by
  unfold comesFirst
  split <;> first | rfl | (next heq => cases heq)

theorem hoistDefault_of_two (depth : Depth) (n m : Node) (rest : List Node) (found : Hoist) :
    hoistDefault depth (n :: m :: rest) found = found := by
  unfold hoistDefault
  split <;> first | rfl | (next heq => cases heq)

/-- Whether a statement is looked at first shows in its skeleton. -/
theorem comesFirst_skeleton (inModule : Bool) : ∀ n : Node,
    comesFirst inModule (skeleton n) = comesFirst inModule n
  | .mk form origin parts => by
    cases form
    case exportDecl =>
      rcases parts with _ | ⟨⟨form, place, inner⟩, _ | ⟨_, _⟩⟩
      · rfl
      · cases form
        case exprStmt =>
          change comesFirst inModule (.mk .exportDecl origin [skeleton (.mk .exprStmt place inner)]) = _
          rcases skeleton_exprStmt place inner with h | h <;> rw [h] <;> rfl
        case function role _ _ _ => cases role <;> rfl
        all_goals rfl
      · rw [comesFirst_exportDecl]
        exact comesFirst_exportDecl ..
    case function role _ _ _ => cases role <;> rfl
    case exprStmt => rcases skeleton_exprStmt origin parts with h | h <;> rw [h] <;> rfl
    all_goals rfl

/-- A statement that is nothing but a marker declares nothing. -/
theorem hoist_of_isRemovedStatement (depth : Depth) : ∀ {n : Node} (_ : isRemovedStatement n = true)
    (found : Hoist), comesFirst depth.inModule n = false ∧ hoist depth n found = found
  | .mk form origin parts, h, found => by
    cases form <;> first | cases h | exact ⟨rfl, rfl⟩

mutual

/-- What a statement declares shows in its skeleton. -/
theorem hoist_skeleton (depth : Depth) : ∀ (n : Node) (found : Hoist),
    hoist depth (skeleton n) found = hoist depth n found
  | .mk form origin parts, found => by
    cases form
    case varDecl kind isDeclare isHead =>
      change (if kind == .var || (!depth.inBlock && !isHead) then
        found.addAll depth ((skeletonParts parts).flatMap declaratorNames) else found) = _
      rw [flatMap_skeleton declaratorNames_skeleton]
      rfl
    case function role _ _ _ =>
      rcases parts with _ | ⟨name, rest⟩ <;> cases role <;> try rfl
      change (if depth.inBlock then found else found.addFunction (identNames (skeleton name))) = _
      rw [identNames_skeleton]
      rfl
    case «class» role _ _ =>
      rcases parts with _ | ⟨name, rest⟩ <;> cases role <;> try rfl
      change (if depth.inBlock then found else found.addAll depth (identNames (skeleton name))) = _
      rw [identNames_skeleton]
      rfl
    case «enum» =>
      rcases parts with _ | ⟨name, rest⟩
      · rfl
      change (if depth.inBlock then found else
        found.addAll depth ((nameSteps (skeleton name)).take 1)) = _
      rw [nameSteps_skeleton]
      rfl
    case moduleDecl isGlobal _ =>
      rcases parts with _ | ⟨name, rest⟩ <;> cases isGlobal <;> try rfl
      change (if depth.inBlock then found else
        found.addAll depth ((nameSteps (skeleton name)).take 1)) = _
      rw [nameSteps_skeleton]
      rfl
    case exportDecl | ifStmt | forStmt | forIn | forOf | whileStmt | doWhile | switch | cases | «case»
        | tryStmt | labeled | withStmt =>
      exact hoistParts_skeleton depth parts found
    case exportDefaultDecl => exact hoistDefault_skeleton depth parts found
    case block | staticBlock | consequent =>
      change hoistLate _ (skeletonStatements parts) (hoistEarly _ (skeletonStatements parts) found) = _
      rw [hoistEarly_skeleton, hoistLate_skeleton]
      rfl
    case catchClause =>
      rcases parts with _ | ⟨param, rest⟩
      · rfl
      have hrest := hoistParts_skeleton { depth with inCatch := true } (param :: rest)
        { found with caught := patternNames param ++ found.caught, excluded := [] }
      rw [← patternNames_skeleton param] at hrest
      change { hoistParts _ (skeletonParts (param :: rest)) _ with excluded := found.excluded } = _
      rw [hrest, patternNames_skeleton param]
      rfl
    case exprStmt => rcases skeleton_exprStmt origin parts with h | h <;> rw [h] <;> rfl
    all_goals rfl

theorem hoistParts_skeleton (depth : Depth) : ∀ (parts : List Node) (found : Hoist),
    hoistParts depth (skeletonParts parts) found = hoistParts depth parts found
  | [], _ => rfl
  | n :: rest, found => by
    rw [skeletonParts, hoistParts, hoistParts, hoist_skeleton depth n, hoistParts_skeleton depth rest]

theorem hoistEarly_skeleton (depth : Depth) : ∀ (parts : List Node) (found : Hoist),
    hoistEarly depth (skeletonStatements parts) found = hoistEarly depth parts found
  | [], _ => rfl
  | n :: rest, found => by
    rw [skeletonStatements, hoistEarly]
    split
    · next h =>
      obtain ⟨hfirst, -⟩ := hoist_of_isRemovedStatement depth h found
      rw [hoistEarly_skeleton depth rest, hfirst, if_neg (by simp)]
    · rw [hoistEarly, comesFirst_skeleton, hoist_skeleton depth n, hoistEarly_skeleton depth rest]

theorem hoistLate_skeleton (depth : Depth) : ∀ (parts : List Node) (found : Hoist),
    hoistLate depth (skeletonStatements parts) found = hoistLate depth parts found
  | [], _ => rfl
  | n :: rest, found => by
    rw [skeletonStatements, hoistLate]
    split
    · next h =>
      obtain ⟨hfirst, hsame⟩ := hoist_of_isRemovedStatement depth h found
      rw [hoistLate_skeleton depth rest, hfirst, if_neg (by simp), hsame]
    · rw [hoistLate, comesFirst_skeleton, hoist_skeleton depth n, hoistLate_skeleton depth rest]

theorem hoistDefault_skeleton (depth : Depth) : ∀ (parts : List Node) (found : Hoist),
    hoistDefault depth (skeletonParts parts) found = hoistDefault depth parts found
  | [], _ => rfl
  | [.mk form origin parts], found => by
    cases form
    case function =>
      rcases parts with _ | ⟨name, rest⟩
      · rfl
      change found.addFunction (identNames (skeleton name)) = _
      rw [identNames_skeleton]
      rfl
    case «class» =>
      rcases parts with _ | ⟨name, _ | ⟨members, rest⟩⟩
      · rfl
      · rfl
      change hoistMembers depth (skeleton members)
        (found.addAll depth (identNames (skeleton name))) = _
      rw [identNames_skeleton, hoistMembers_skeleton depth members]
      rfl
    case exprStmt =>
      rw [skeletonParts]
      rcases skeleton_exprStmt origin parts with h | h <;> rw [h] <;> rfl
    all_goals rfl
  | n :: m :: rest, found => by
    rw [skeletonParts, skeletonParts, hoistDefault_of_two, hoistDefault_of_two]

theorem hoistMembers_skeleton (depth : Depth) : ∀ (n : Node) (found : Hoist),
    hoistMembers depth (skeleton n) found = hoistMembers depth n found
  | .mk form origin parts, found => by
    cases form
    case members => exact hoistParts_skeleton depth parts found
    case exprStmt => rcases skeleton_exprStmt origin parts with h | h <;> rw [h] <;> rfl
    all_goals rfl

end

/-- What a list of statements declares shows in its skeleton. -/
theorem declaredNames_congr (around : List String) (inModule : Bool) {as bs : List Node}
    (h : skeletonStatements as = skeletonStatements bs) :
    declaredNames around inModule as = declaredNames around inModule bs := by
  have hearly := hoistEarly_skeleton { around, inModule } as {}
  have hlate := hoistLate_skeleton { around, inModule } as (hoistEarly { around, inModule } as {})
  rw [h, hoistEarly_skeleton] at hearly
  rw [h, hoistLate_skeleton, ← hearly] at hlate
  unfold declaredNames
  simp only
  rw [← hearly, ← hlate]

theorem memberNames_skeleton (members : List Node) :
    memberNames (skeletonParts members) = memberNames members := by
  refine flatMap_skeleton ?_ members
  rintro ⟨form, origin, parts⟩
  cases form
  case enumMember =>
    rcases parts with _ | ⟨⟨form, place, inner⟩, rest⟩
    · rfl
    cases form
    case exprStmt =>
      have hmember : skeleton (.mk .enumMember origin (.mk .exprStmt place inner :: rest)) =
          .mk .enumMember origin (skeleton (.mk .exprStmt place inner) :: skeletonParts rest) := rfl
      rw [hmember]
      rcases skeleton_exprStmt place inner with h | h
      · rw [h]
        rfl
      · rw [h]
    all_goals rfl
  case exprStmt =>
    rcases skeleton_exprStmt origin parts with h | h
    · rw [h]
      rfl
    · rw [h]
  all_goals rfl

/-- The names that parameters bind early show in their skeleton. -/
theorem earlyNames_skeleton : ∀ n : Node,
    earlyNames (parametersOf (skeleton n)) = earlyNames (parametersOf n)
  | .mk form origin parts => by
    cases form
    case group =>
      refine flatMap_skeleton ?_ parts
      rintro ⟨form, place, inner⟩
      cases form
      case exprStmt => rcases skeleton_exprStmt place inner with h | h <;> rw [h] <;> rfl
      all_goals first | rfl | exact patternNames_skeleton _
    case exprStmt => rcases skeleton_exprStmt origin parts with h | h <;> rw [h] <;> rfl
    all_goals rfl

end Node

end CallExpander
