import CallExpander.Proofs.Tree.Skeleton

/-!
# Marking names is stable

Marking the names of a tree whose names are marked, and whose markers are cleaned up, changes
nothing. Neither cleaning up nor marking changes what is declared anywhere in the tree, so every
name is looked up in the same scope the second time.
-/

namespace CallExpander.Node

/-! ## Marking keeps the skeleton -/

theorem Alike.ident {name : String} {a b : Bool} {origin : Origin} {parts : List Node} :
    Alike (.mk (.ident name a) origin parts) (.mk (.ident name b) origin parts) where
  skeleton := by
    rw [skeleton_of_parts (by simp) rfl rfl, skeleton_of_parts (by simp) rfl rfl]
    rfl
  isRemoved := rfl
  isRemovedStatement := rfl

/-- A relation of trees that parts carry over to the whole, and that does not tell marks on names
apart. -/
structure Congruence (R : Node → Node → Prop) : Prop where
  refl : ∀ n, R n n
  ident : ∀ {name : String} {a b : Bool} {origin : Origin} {parts : List Node},
    R (.mk (.ident name a) origin parts) (.mk (.ident name b) origin parts)
  node : ∀ {form : Form} {origin : Origin} {as bs : List Node}, List.Forall₂ R as bs →
    R (.mk form origin as) (.mk form origin bs)

theorem Congruence.refl_all {R : Node → Node → Prop} (hR : Congruence R) (parts : List Node) :
    List.Forall₂ R parts parts :=
  List.forall₂_same.mpr fun n _ => hR.refl n

theorem alike : Congruence Alike := ⟨.refl, .ident, .node⟩

variable {R : Node → Node → Prop}

mutual

theorem rel_mark (hR : Congruence R) (env : Env) : ∀ n, R (mark env n).1 n
  | .mk form origin parts => by
    unfold mark
    split
    · next heq => cases heq; exact hR.ident
    · next heq => cases heq; exact hR.refl _
    · next heq => cases heq; exact hR.node (rel_markFunction hR _ _)
    · next heq => cases heq; exact hR.node (rel_markArrow hR _ _)
    · next heq => cases heq; exact hR.node (rel_markAccessor hR _ _)
    · next heq => cases heq; split <;> exact hR.node (rel_markClass hR _ _ _)
    · next heq => cases heq; exact hR.node (rel_markDefault hR _ _)
    · next heq => cases heq; exact hR.node (rel_markAll hR _ _)
    · next heq => cases heq; exact hR.node (rel_markAll hR _ _)
    · next heq => cases heq; exact hR.node (rel_markAll hR _ _)
    · next heq => cases heq; exact hR.node (rel_markAll hR _ _)
    · next heq => cases heq; exact hR.node (rel_markAll hR _ _)
    · next heq => cases heq; exact hR.node (rel_markDeclared hR _ _)
    · next heq => cases heq; exact hR.node (rel_markAll hR _ _)
    · next heq => cases heq; exact hR.node (rel_markAll hR _ _)
    · next heq => cases heq; exact hR.node (rel_markAll hR _ _)
    · next heq => cases heq; exact hR.node (rel_markAll hR _ _)
    · next heq => cases heq; exact hR.node (rel_markCase hR _ _)
    · next heq => cases heq; exact hR.node (rel_markCatch hR _ _)
    · next heq => cases heq; exact hR.node (rel_markEnum hR _ _)
    · next heq => cases heq; exact hR.node (rel_markAll hR _ _)
    · next heq => cases heq; exact hR.refl _
    · next heq => cases heq; exact hR.node (rel_markAll hR _ _)

theorem rel_markAll (hR : Congruence R) (env : Env) :
    ∀ parts, List.Forall₂ R (markAll env parts).1 parts
  | [] => .nil
  | n :: rest => .cons (rel_mark hR env n) (rel_markAll hR _ rest)

theorem rel_markDefault (hR : Congruence R) (env : Env) :
    ∀ parts, List.Forall₂ R (markDefault env parts).1 parts
  | [] => .nil
  | [.mk form origin parts] => by
    unfold markDefault
    split
    · next heq => cases heq
    · next heq => cases heq; exact .cons (hR.node (rel_markAll hR _ _)) .nil
    · next heq => cases heq; exact .cons (rel_mark hR env _) .nil
  | n :: m :: rest => by
    unfold markDefault
    split
    · next heq => cases heq
    · next heq => cases heq
    · next heq => cases heq; exact .cons (rel_mark hR env n) (rel_markAll hR _ (m :: rest))

theorem rel_markPattern (hR : Congruence R) (env : Env) : ∀ n, R (markPattern env n).1 n
  | .mk form origin parts => by
    unfold markPattern
    split
    · next heq => cases heq; exact hR.ident
    · next heq => cases heq; exact hR.node (rel_markProperty hR _ _)
    · next heq => cases heq; exact hR.node (rel_markDeclared hR _ _)
    · next heq => cases heq; exact hR.node (rel_markDeclared hR _ _)
    · next heq => cases heq; exact hR.node (rel_markDeclared hR _ _)
    · next heq => cases heq; exact hR.node (rel_markPatterns hR _ _)
    · next heq => cases heq; exact hR.node (rel_markPatterns hR _ _)
    · next heq => cases heq; exact hR.node (rel_markPatterns hR _ _)
    · next heq => cases heq; exact hR.node (rel_markPatterns hR _ _)
    · exact hR.refl _

theorem rel_markPatterns (hR : Congruence R) (env : Env) :
    ∀ parts, List.Forall₂ R (markPatterns env parts).1 parts
  | [] => .nil
  | n :: rest => .cons (rel_markPattern hR env n) (rel_markPatterns hR _ rest)

theorem rel_markDeclared (hR : Congruence R) (env : Env) :
    ∀ parts, List.Forall₂ R (markDeclared env parts).1 parts
  | [] => .nil
  | target :: rest => .cons (rel_markPattern hR env target) (rel_markAll hR _ rest)

theorem rel_markProperty (hR : Congruence R) (env : Env) :
    ∀ parts, List.Forall₂ R (markProperty env parts).1 parts
  | [] => .nil
  | key :: rest => .cons (rel_mark hR env key) (rel_markPatterns hR _ rest)

theorem rel_markParameters (hR : Congruence R) (env : Env) : ∀ n, R (markParameters env n).1 n
  | .mk form origin parts => by
    unfold markParameters
    split
    · next heq => cases heq; exact hR.node (rel_markPatterns hR _ _)
    · exact hR.refl _

theorem rel_markFunction (hR : Congruence R) (env : Env) :
    ∀ parts, List.Forall₂ R (markFunction env parts) parts
  | name :: params :: body :: typeParams :: rest =>
    .cons (rel_mark hR env name) (.cons (rel_markParameters hR _ params)
      (.cons (rel_mark hR _ body) (.cons (rel_mark hR _ typeParams) (rel_markAll hR _ rest))))
  | [] | [_] | [_, _] | [_, _, _] => hR.refl_all _

theorem rel_markArrow (hR : Congruence R) (env : Env) :
    ∀ parts, List.Forall₂ R (markArrow env parts) parts
  | params :: body :: typeParams :: rest =>
    .cons (rel_markParameters hR _ params)
      (.cons (rel_mark hR _ body) (.cons (rel_mark hR _ typeParams) (rel_markAll hR _ rest)))
  | [] | [_] | [_, _] => hR.refl_all _

theorem rel_markAccessor (hR : Congruence R) (env : Env) :
    ∀ parts, List.Forall₂ R (markAccessor env parts) parts
  | key :: params :: rest =>
    .cons (rel_mark hR env key) (.cons (rel_markParameters hR _ params) (rel_markAll hR _ rest))
  | [] | [_] => hR.refl_all _

theorem rel_markClass (hR : Congruence R) (env : Env) (isExpression : Bool) :
    ∀ parts, List.Forall₂ R (markClass env isExpression parts) parts
  | name :: members :: parent :: rest => by
    refine .cons (rel_mark hR _ name) (.cons (rel_mark hR _ members) (.cons ?_ (rel_markAll hR _ rest)))
    cases isExpression
    · exact rel_mark hR _ parent
    · exact rel_mark hR _ parent
  | [] | [_] | [_, _] => hR.refl_all _

theorem rel_markCase (hR : Congruence R) (env : Env) :
    ∀ parts, List.Forall₂ R (markCase env parts).1 parts
  | [test, consequent] => .cons (rel_mark hR _ test) (.cons (rel_mark hR env consequent) .nil)
  | [] | [_] | _ :: _ :: _ :: _ => hR.refl_all _

theorem rel_markCatch (hR : Congruence R) (env : Env) :
    ∀ parts, List.Forall₂ R (markCatch env parts) parts
  | [param, .mk form origin statements] => by
    unfold markCatch
    split
    · next heq =>
      cases heq
      refine .cons (rel_markPattern hR env param) (.cons ?_ .nil)
      exact hR.node (rel_markAll hR _ statements)
    · exact hR.refl_all _
  | [] | [_] => hR.refl_all _
  | _ :: _ :: _ :: _ => by
    unfold markCatch
    split
    · next heq => cases heq
    · exact hR.refl_all _

theorem rel_markEnum (hR : Congruence R) (env : Env) :
    ∀ parts, List.Forall₂ R (markEnum env parts) parts
  | [name, .mk form origin members] => by
    unfold markEnum
    split
    · next heq =>
      cases heq
      exact .cons (hR.refl name) (.cons (hR.node (rel_markAll hR _ members)) .nil)
    · exact hR.refl_all _
  | [] | [_] => hR.refl_all _
  | _ :: _ :: _ :: _ => by
    unfold markEnum
    split
    · next heq => cases heq
    · exact hR.refl_all _

end

/-! ## Marking twice -/

theorem sweep_exprStmt (origin : Origin) (parts : List Node) :
    (isRemovedStatement (.mk .exprStmt origin parts) = true ∧
      sweep (.mk .exprStmt origin parts) = emptyStatement) ∨
    (isRemovedStatement (.mk .exprStmt origin parts) = false ∧
      sweep (.mk .exprStmt origin parts) = .mk .exprStmt origin (sweepParts parts)) := by
  rcases sweep_cases .exprStmt origin parts with
    ⟨h, _⟩ | ⟨hs, h, _⟩ | ⟨_, _, h, _⟩ | ⟨hs, _, _, h, _⟩
  · cases h
  · exact .inl ⟨hs, h⟩
  · cases h
  · rw [h, sweepParts_eq_map]; exact .inr ⟨hs, rfl⟩

/-- A statement that is nothing but a marker has no names to mark. -/
theorem mark_of_isRemovedStatement (env : Env) :
    ∀ {n : Node}, isRemovedStatement n = true → mark env n = (n, env)
  | .mk form origin parts, h => by
    cases form <;> try cases h
    rcases parts with _ | ⟨⟨form, place, inner⟩, _ | ⟨_, _⟩⟩ <;> try cases h
    cases form <;> first | rfl | cases h

theorem identNames_sweep {a b : Node} (h : Alike a b) : identNames (sweep a) = identNames b := by
  rw [← identNames_skeleton, skeleton_sweep, h.skeleton, identNames_skeleton]

theorem nameSteps_sweep {a b : Node} (h : Alike a b) : nameSteps (sweep a) = nameSteps b := by
  rw [← nameSteps_skeleton, skeleton_sweep, h.skeleton, nameSteps_skeleton]

theorem earlyNames_sweep {a b : Node} (h : Alike a b) :
    earlyNames (parametersOf (sweep a)) = earlyNames (parametersOf b) := by
  rw [← earlyNames_skeleton, skeleton_sweep, h.skeleton, earlyNames_skeleton]

theorem skeletonParts_sweep (parts : List Node) :
    skeletonParts (sweepParts parts) = skeletonParts parts := by
  rw [skeletonParts_eq_map, sweepParts_eq_map, skeletonParts_eq_map, map_skeleton_sweep]

theorem memberNames_sweep {as bs : List Node} (h : List.Forall₂ Alike as bs) :
    memberNames (sweepParts as) = memberNames bs := by
  rw [← memberNames_skeleton, skeletonParts_sweep, skeletonParts_eq_map, map_skeleton_congr h,
    ← skeletonParts_eq_map, memberNames_skeleton]

theorem hoist_sweep (env : Env) {as bs : List Node} (h : List.Forall₂ Alike as bs) :
    env.hoist (sweepStatements as) = env.hoist bs := by
  unfold Env.hoist
  rw [declaredNames_congr _ _ ((skeletonStatements_sweep as).trans (skeletonStatements_congr h))]

theorem hoistItems_sweep (env : Env) {as bs : List Node} (h : List.Forall₂ Alike as bs) :
    env.hoistItems (sweepStatements as) = env.hoistItems bs := by
  unfold Env.hoistItems
  rw [declaredNames_congr _ _ ((skeletonStatements_sweep as).trans (skeletonStatements_congr h))]

/-- Marking is stable on a form if it is on the parts. -/
theorem mark_sweep_of {env : Env} {form : Form} {origin : Origin} {parts : List Node}
    (f : List Node → List Node × Env) (clean : List Node → List Node)
    (hmark : ∀ parts, mark env (.mk form origin parts) = (.mk form origin (f parts).1, (f parts).2))
    (hsweep : ∀ parts, sweep (.mk form origin parts) = .mk form origin (clean parts))
    (h : f (clean (f parts).1) = (clean (f parts).1, (f parts).2)) :
    mark env (sweep (mark env (.mk form origin parts)).1) =
      (sweep (mark env (.mk form origin parts)).1, (mark env (.mk form origin parts)).2) := by
  simp only [hmark, hsweep, h]

theorem flatMap_take_sweep {f : Node → List String} (h : ∀ {a b}, Alike a b → f (sweep a) = f b)
    {as bs : List Node} (hab : List.Forall₂ Alike as bs) :
    ((sweepParts as).take 1).flatMap f = (bs.take 1).flatMap f := by
  cases hab with
  | nil => rfl
  | cons hn _ => simp [sweepParts, h hn]

theorem markDefault_of_two (env : Env) (n m : Node) (rest : List Node) :
    markDefault env (n :: m :: rest) = markAll env (n :: m :: rest) := by
  unfold markDefault
  split
  · next heq => cases heq
  · next heq => cases heq
  · next heq => cases heq; rfl

theorem markCatch_of_three (env : Env) (a b c : Node) (rest : List Node) :
    markCatch env (a :: b :: c :: rest) = a :: b :: c :: rest := by
  unfold markCatch
  split
  · next heq => cases heq
  · rfl

theorem markEnum_of_three (env : Env) (a b c : Node) (rest : List Node) :
    markEnum env (a :: b :: c :: rest) = a :: b :: c :: rest := by
  unfold markEnum
  split
  · next heq => cases heq
  · rfl

theorem sweep_block (origin : Origin) (parts : List Node) :
    sweep (.mk .block origin parts) = .mk .block origin (sweepStatements parts) := rfl

theorem sweep_enumMembers (origin : Origin) (parts : List Node) :
    sweep (.mk .enumMembers origin parts) = .mk .enumMembers origin (sweepParts parts) := rfl

mutual

/-- Marking the names of a tree a second time, after cleaning it up, changes nothing. -/
theorem mark_sweep (env : Env) : ∀ n : Node,
    mark env (sweep (mark env n).1) = (sweep (mark env n).1, (mark env n).2)
  | .mk form origin parts => by
    cases form
    case ident => rfl
    case removed => rfl
    case importEquals =>
      refine mark_sweep_of (fun parts => (parts, env.declare ((parts.take 1).flatMap nameSteps)))
        sweepParts (fun _ => rfl) (fun _ => rfl) ?_
      simp only [flatMap_take_sweep nameSteps_sweep (alike.refl_all parts)]
    case function role _ _ _ =>
      cases role with
      | expression =>
        refine mark_sweep_of (fun parts =>
          (markFunction (env.function.declare ((parts.take 1).flatMap identNames)) parts, env))
          sweepParts (fun _ => rfl) (fun _ => rfl) ?_
        simp only [flatMap_take_sweep identNames_sweep (rel_markFunction alike _ parts),
          markFunction_sweep _ parts]
      | declaration =>
        refine mark_sweep_of (fun parts => (markFunction env parts, env)) sweepParts
          (fun _ => rfl) (fun _ => rfl) ?_
        simp only [markFunction_sweep env parts]
      | method =>
        refine mark_sweep_of (fun parts => (markFunction env parts, env)) sweepParts
          (fun _ => rfl) (fun _ => rfl) ?_
        simp only [markFunction_sweep env parts]
    case arrow =>
      refine mark_sweep_of (fun parts => (markArrow env parts, env)) sweepParts
        (fun _ => rfl) (fun _ => rfl) ?_
      simp only [markArrow_sweep env parts]
    case objectAccessor =>
      refine mark_sweep_of (fun parts => (markAccessor env parts, env)) sweepParts
        (fun _ => rfl) (fun _ => rfl) ?_
      simp only [markAccessor_sweep env parts]
    case «class» role _ _ =>
      cases role with
      | expression =>
        refine mark_sweep_of (fun parts => (markClass env true parts, env)) sweepParts
          (fun _ => rfl) (fun _ => rfl) ?_
        simp only [markClass_sweep env true parts]
      | declaration | method =>
        refine mark_sweep_of (fun parts =>
          (markClass (env.declare ((parts.take 1).flatMap identNames)) false parts,
            env.declare ((parts.take 1).flatMap identNames))) sweepParts
          (fun _ => rfl) (fun _ => rfl) ?_
        simp only [flatMap_take_sweep identNames_sweep (rel_markClass alike _ _ parts),
          markClass_sweep _ _ parts]
    case exportDefaultDecl =>
      exact mark_sweep_of (markDefault env) sweepParts (fun _ => rfl) (fun _ => rfl)
        (markDefault_sweep env parts)
    case block | staticBlock =>
      refine mark_sweep_of (fun parts => ((markAll (env.block.hoist parts) parts).1, env))
        sweepStatements (fun _ => rfl) (fun _ => rfl) ?_
      simp only [hoist_sweep _ (rel_markAll alike _ parts), markStatements_sweep _ parts]
    case body | consequent =>
      refine mark_sweep_of (fun parts => markAll (env.hoist parts) parts)
        sweepStatements (fun _ => rfl) (fun _ => rfl) ?_
      simp only [hoist_sweep _ (rel_markAll alike _ parts), markStatements_sweep _ parts]
    case moduleBlock =>
      refine mark_sweep_of (fun parts => markAll (env.hoistItems parts) parts)
        sweepStatements (fun _ => rfl) (fun _ => rfl) ?_
      simp only [hoistItems_sweep _ (rel_markAll alike _ parts), markStatements_sweep _ parts]
    case declarator =>
      exact mark_sweep_of (markDeclared env) sweepParts (fun _ => rfl) (fun _ => rfl)
        (markDeclared_sweep env parts)
    case forStmt | forIn | forOf | cases =>
      refine mark_sweep_of (fun parts => ((markAll env.block parts).1, env)) sweepParts
        (fun _ => rfl) (fun _ => rfl) ?_
      simp only [markAll_sweep env.block parts]
    case «case» =>
      exact mark_sweep_of (markCase env) sweepParts (fun _ => rfl) (fun _ => rfl)
        (markCase_sweep env parts)
    case catchClause =>
      refine mark_sweep_of (fun parts => (markCatch env.function parts, env)) sweepParts
        (fun _ => rfl) (fun _ => rfl) ?_
      simp only [markCatch_sweep env.function parts]
    case «enum» =>
      refine mark_sweep_of (fun parts =>
        (markEnum (env.declare ((parts.take 1).flatMap nameSteps)).block parts,
          env.declare ((parts.take 1).flatMap nameSteps))) sweepParts (fun _ => rfl) (fun _ => rfl) ?_
      simp only [flatMap_take_sweep nameSteps_sweep (rel_markEnum alike _ parts),
        markEnum_sweep _ parts]
    case moduleDecl =>
      refine mark_sweep_of (fun parts =>
        ((markAll ((env.declare (((parts.take 1).flatMap nameSteps).take 1)).block.declare
            (((parts.take 1).flatMap nameSteps).drop 1)) parts).1,
          env.declare (((parts.take 1).flatMap nameSteps).take 1))) sweepParts
        (fun _ => rfl) (fun _ => rfl) ?_
      simp only [flatMap_take_sweep nameSteps_sweep (rel_markAll alike _ parts),
        markAll_sweep _ parts]
    -- Marking does not change whether a statement is a marker, which decides what becomes of it.
    case exprStmt =>
      by_cases hstatement : isRemovedStatement (.mk .exprStmt origin parts) = true
      · rw [mark_of_isRemovedStatement env hstatement]
        rcases sweep_exprStmt origin parts with ⟨_, h⟩ | ⟨h, _⟩
        · rw [h]; rfl
        · rw [hstatement] at h; cases h
      · have halike := @Alike.node .exprStmt origin _ _ (rel_markAll alike env parts)
        have hmarked := halike.isRemovedStatement
        rcases sweep_exprStmt origin (markAll env parts).1 with ⟨h, _⟩ | ⟨_, h⟩
        · exact absurd (hmarked ▸ h) hstatement
        · have hparts := markAll_sweep env parts
          change mark env (sweep (.mk .exprStmt origin (markAll env parts).1)) =
            (sweep (.mk .exprStmt origin (markAll env parts).1), (markAll env parts).2)
          rw [h]
          simp only [mark, hparts]
    -- All other forms mark their parts one after the other.
    all_goals
      exact mark_sweep_of (markAll env) sweepParts (fun _ => rfl) (fun _ => rfl)
        (markAll_sweep env parts)

theorem markAll_sweep (env : Env) : ∀ parts : List Node,
    markAll env (sweepParts (markAll env parts).1) =
      (sweepParts (markAll env parts).1, (markAll env parts).2)
  | [] => rfl
  | n :: rest => by
    have hn := mark_sweep env n
    have hrest := markAll_sweep (mark env n).2 rest
    simp only [markAll, sweepParts, hn, hrest]

theorem markStatements_sweep (env : Env) : ∀ parts : List Node,
    markAll env (sweepStatements (markAll env parts).1) =
      (sweepStatements (markAll env parts).1, (markAll env parts).2)
  | [] => rfl
  | n :: rest => by
    have hn := mark_sweep env n
    have hrest := markStatements_sweep (mark env n).2 rest
    by_cases hstatement : isRemovedStatement n = true
    · rw [mark_of_isRemovedStatement env hstatement] at hrest
      simp only [markAll, sweepStatements, mark_of_isRemovedStatement env hstatement, hstatement,
        if_true, hrest]
    · have hmarked : isRemovedStatement (mark env n).1 = false := by
        rw [(rel_mark alike env n).isRemovedStatement]
        simpa using hstatement
      simp only [markAll, sweepStatements, hmarked, Bool.false_eq_true, if_false, hn, hrest]

theorem markDefault_sweep (env : Env) : ∀ parts : List Node,
    markDefault env (sweepParts (markDefault env parts).1) =
      (sweepParts (markDefault env parts).1, (markDefault env parts).2)
  | [] => rfl
  | [.mk form origin parts] => by
    have hn := mark_sweep env (.mk form origin parts)
    cases form
    case «class» =>
      exact congrArg (fun p => ([Node.mk _ origin p.1], p.2)) (markAll_sweep env parts)
    case exprStmt =>
      change mark env (sweep (.mk .exprStmt origin (markAll env parts).1)) =
        (sweep (.mk .exprStmt origin (markAll env parts).1), (markAll env parts).2) at hn
      change markDefault env [sweep (.mk .exprStmt origin (markAll env parts).1)] =
        ([sweep (.mk .exprStmt origin (markAll env parts).1)], (markAll env parts).2)
      rcases sweep_exprStmt origin (markAll env parts).1 with ⟨_, h⟩ | ⟨_, h⟩ <;> rw [h] at hn ⊢ <;>
        exact congrArg (fun p => ([p.1], p.2)) hn
    all_goals exact congrArg (fun p => ([p.1], p.2)) hn
  | n :: m :: rest => by
    have hn := mark_sweep env n
    have hrest := markAll_sweep (mark env n).2 (m :: rest)
    simp only [markAll, sweepParts] at hrest
    simp only [markDefault_of_two, markAll, sweepParts, hn, hrest]

theorem markPattern_sweep (env : Env) : ∀ n : Node,
    markPattern env (sweep (markPattern env n).1) =
      (sweep (markPattern env n).1, (markPattern env n).2)
  | .mk form origin parts => by
    cases form
    case patternProperty =>
      exact congrArg (fun p => (Node.mk _ origin p.1, p.2)) (markProperty_sweep env parts)
    case patternShorthand | patternDefault | annotated =>
      exact congrArg (fun p => (Node.mk _ origin p.1, p.2)) (markDeclared_sweep env parts)
    case arrayPattern | objectPattern | rest | parameterProperty =>
      exact congrArg (fun p => (Node.mk _ origin p.1, p.2)) (markPatterns_sweep env parts)
    case exprStmt =>
      change markPattern env (sweep (.mk .exprStmt origin parts)) =
        (sweep (.mk .exprStmt origin parts), env)
      rcases sweep_exprStmt origin parts with ⟨_, h⟩ | ⟨_, h⟩ <;> rw [h] <;> rfl
    all_goals rfl

theorem markPatterns_sweep (env : Env) : ∀ parts : List Node,
    markPatterns env (sweepParts (markPatterns env parts).1) =
      (sweepParts (markPatterns env parts).1, (markPatterns env parts).2)
  | [] => rfl
  | n :: rest => by
    have hn := markPattern_sweep env n
    have hrest := markPatterns_sweep (markPattern env n).2 rest
    simp only [markPatterns, sweepParts, hn, hrest]

theorem markDeclared_sweep (env : Env) : ∀ parts : List Node,
    markDeclared env (sweepParts (markDeclared env parts).1) =
      (sweepParts (markDeclared env parts).1, (markDeclared env parts).2)
  | [] => rfl
  | target :: rest => by
    have htarget := markPattern_sweep env target
    have hrest := markAll_sweep (markPattern env target).2 rest
    simp only [markDeclared, sweepParts, htarget, hrest]

theorem markProperty_sweep (env : Env) : ∀ parts : List Node,
    markProperty env (sweepParts (markProperty env parts).1) =
      (sweepParts (markProperty env parts).1, (markProperty env parts).2)
  | [] => rfl
  | key :: rest => by
    have hkey := mark_sweep env key
    have hrest := markPatterns_sweep (mark env key).2 rest
    simp only [markProperty, sweepParts, hkey, hrest]

theorem markParameters_sweep (env : Env) : ∀ n : Node,
    markParameters env (sweep (markParameters env n).1) =
      (sweep (markParameters env n).1, (markParameters env n).2)
  | .mk form origin parts => by
    cases form
    case group =>
      exact congrArg (fun p => (Node.mk _ origin p.1, p.2)) (markPatterns_sweep env parts)
    case exprStmt =>
      change markParameters env (sweep (.mk .exprStmt origin parts)) =
        (sweep (.mk .exprStmt origin parts), env)
      rcases sweep_exprStmt origin parts with ⟨_, h⟩ | ⟨_, h⟩ <;> rw [h] <;> rfl
    all_goals rfl

theorem markFunction_sweep (env : Env) : ∀ parts : List Node,
    markFunction env (sweepParts (markFunction env parts)) = sweepParts (markFunction env parts)
  | name :: params :: body :: typeParams :: rest => by
    obtain ⟨scope, hscope⟩ : ∃ scope, (mark env.function typeParams).2.declare
      (earlyNames (parametersOf params)) = scope := ⟨_, rfl⟩
    have hname := mark_sweep env name
    have htypes := mark_sweep env.function typeParams
    have hearly := earlyNames_sweep (rel_markParameters alike scope params)
    have hparams := markParameters_sweep scope params
    have hrest := markAll_sweep (markParameters scope params).2 rest
    have hbody := mark_sweep (markAll (markParameters scope params).2 rest).2 body
    simp only [markFunction, sweepParts, hname, htypes, hscope, hearly, hparams, hrest, hbody]
  | [] | [_] | [_, _] | [_, _, _] => rfl

theorem markArrow_sweep (env : Env) : ∀ parts : List Node,
    markArrow env (sweepParts (markArrow env parts)) = sweepParts (markArrow env parts)
  | params :: body :: typeParams :: rest => by
    obtain ⟨scope, hscope⟩ : ∃ scope, (mark env.function typeParams).2.declare
      (earlyNames (parametersOf params)) = scope := ⟨_, rfl⟩
    have htypes := mark_sweep env.function typeParams
    have hearly := earlyNames_sweep (rel_markParameters alike scope params)
    have hparams := markParameters_sweep scope params
    have hbody := mark_sweep (markParameters scope params).2 body
    have hrest := markAll_sweep (mark (markParameters scope params).2 body).2 rest
    simp only [markArrow, sweepParts, htypes, hscope, hearly, hparams, hbody, hrest]
  | [] | [_] | [_, _] => rfl

theorem markAccessor_sweep (env : Env) : ∀ parts : List Node,
    markAccessor env (sweepParts (markAccessor env parts)) = sweepParts (markAccessor env parts)
  | key :: params :: rest => by
    have hkey := mark_sweep env key
    have hparams := markParameters_sweep env.function params
    have hrest := markAll_sweep (markParameters env.function params).2.block rest
    simp only [markAccessor, sweepParts, hkey, hparams, hrest]
  | [] | [_] => rfl

theorem markClass_sweep (env : Env) (isExpression : Bool) : ∀ parts : List Node,
    markClass env isExpression (sweepParts (markClass env isExpression parts)) =
      sweepParts (markClass env isExpression parts)
  | name :: members :: parent :: rest => by
    cases isExpression with
    | false =>
      have hname := mark_sweep env.function name
      have hmembers := mark_sweep env.function members
      have hparent := mark_sweep env.function parent
      have hrest := markAll_sweep env.function rest
      simp only [markClass, sweepParts, Bool.false_eq_true, if_false, hname, hmembers, hparent, hrest]
    | true =>
      have halike := rel_mark alike (env.function.declare (identNames name)) name
      have hname := mark_sweep (env.function.declare (identNames name)) name
      have hmembers := mark_sweep (env.function.declare (identNames name)) members
      have hparent := mark_sweep env parent
      have hrest := markAll_sweep (env.function.declare (identNames name)) rest
      simp only [markClass, sweepParts, if_true, identNames_sweep halike, hname, hmembers, hparent,
        hrest]
  | [] | [_] | [_, _] => rfl

theorem markCase_sweep (env : Env) : ∀ parts : List Node,
    markCase env (sweepParts (markCase env parts).1) =
      (sweepParts (markCase env parts).1, (markCase env parts).2)
  | [test, consequent] => by
    have hconsequent := mark_sweep env consequent
    have htest := mark_sweep (mark env consequent).2 test
    simp only [markCase, sweepParts, hconsequent, htest]
  | [] | [_] | _ :: _ :: _ :: _ => rfl

theorem markCatch_sweep (env : Env) : ∀ parts : List Node,
    markCatch env (sweepParts (markCatch env parts)) = sweepParts (markCatch env parts)
  | [param, .mk form origin statements] => by
    cases form
    case block =>
      have hparam := markPattern_sweep env param
      have hscope := hoist_sweep (markPattern env param).2
        (rel_markAll alike ((markPattern env param).2.hoist statements) statements)
      have hblock := markStatements_sweep ((markPattern env param).2.hoist statements) statements
      simp only [markCatch, sweepParts, sweep_block, hparam, hscope, hblock]
    case exprStmt =>
      change markCatch env [sweep param, sweep (.mk .exprStmt origin statements)] =
        [sweep param, sweep (.mk .exprStmt origin statements)]
      rcases sweep_exprStmt origin statements with ⟨_, h⟩ | ⟨_, h⟩ <;> rw [h] <;> rfl
    all_goals rfl
  | [] | [_] => rfl
  | _ :: _ :: _ :: _ => by simp only [markCatch_of_three, sweepParts]

theorem markEnum_sweep (env : Env) : ∀ parts : List Node,
    markEnum env (sweepParts (markEnum env parts)) = sweepParts (markEnum env parts)
  | [name, .mk form origin members] => by
    cases form
    case enumMembers =>
      have hnames := memberNames_sweep
        (rel_markAll alike (env.declare (memberNames members)) members)
      have hmembers := markAll_sweep (env.declare (memberNames members)) members
      simp only [markEnum, sweepParts, sweep_enumMembers, hnames, hmembers]
    case exprStmt =>
      change markEnum env [sweep name, sweep (.mk .exprStmt origin members)] =
        [sweep name, sweep (.mk .exprStmt origin members)]
      rcases sweep_exprStmt origin members with ⟨_, h⟩ | ⟨_, h⟩ <;> rw [h] <;> rfl
    all_goals rfl
  | [] | [_] => rfl
  | _ :: _ :: _ :: _ => by simp only [markEnum_of_three, sweepParts]

end

/-- Resolving the names of a program whose names are resolved, after cleaning it up, changes
nothing. -/
theorem resolve_sweepStatements (items : List Node) :
    resolve (sweepStatements (resolve items)) = sweepStatements (resolve items) := by
  unfold resolve
  rw [hoistItems_sweep _ (rel_markAll alike _ items), markStatements_sweep]

end CallExpander.Node
