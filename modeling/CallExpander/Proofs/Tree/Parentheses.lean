import CallExpander.Tree.Literal

/-!
# Parentheses and values

The value of an expression is that of what is in parentheses, wherever they are: around it, in an array,
in an object. Only a minus does not look into them: it is read as the sign of a number that stands right
behind it.
-/

namespace CallExpander.Node

/-! ## Induction -/

/-- Proofs about a node can use what they prove for its parts. -/
theorem induction {P : Node → Prop}
    (node : ∀ form origin parts, (∀ n ∈ parts, P n) → P (.mk form origin parts)) (n : Node) : P n :=
  @Node.rec P (fun parts => ∀ n ∈ parts, P n) node (List.forall_mem_nil P)
    (fun _ _ hn hrest => List.forall_mem_cons.mpr ⟨hn, hrest⟩) n

/-- They can use it for the parts of its parts, too. -/
theorem induction_inside {P : Node → Prop}
    (node : ∀ form origin parts, (∀ n ∈ parts, P n ∧ ∀ m ∈ n.parts, P m) → P (.mk form origin parts))
    (n : Node) : P n := by
  have hboth : P n ∧ ∀ m ∈ n.parts, P m := by
    induction n using induction with
    | node form origin parts ih => exact ⟨node form origin parts ih, fun m hm => (ih m hm).1⟩
  exact hboth.1

/-! ## Expressions without parentheses -/

mutual

/-- An expression without the parentheses around it and around anything inside it. -/
def bare : Node → Node
  | .mk .paren _ [inner] => bare inner
  | .mk .object origin members => .mk .object origin (bareMembers members)
  | .mk form origin parts => .mk form origin (bareParts parts)

def bareParts : List Node → List Node
  | [] => []
  | n :: rest => bare n :: bareParts rest

/-- What is no expression has no parentheses around it, but there may be some inside. -/
def bareInside : Node → Node
  | .mk form origin parts => .mk form origin (bareParts parts)

/-- The members of an object without parentheses. Neither a member nor the key of one is an expression. -/
def bareMembers : List Node → List Node
  | [] => []
  | .mk .property origin [key, value] :: rest =>
    .mk .property origin [bareInside key, bare value] :: bareMembers rest
  | member :: rest => bareInside member :: bareMembers rest

end

mutual

/-- Whether a minus stands in front of parentheses: in the expression itself, in an element of an array,
or in the value of a property, at any depth. -/
def negatesParens : Node → Bool
  | .mk (.unary "-") _ [.mk .paren _ [_]] => true
  | .mk .paren _ [inner] => negatesParens inner
  | .mk .array _ elements => negatesParensIn elements
  | .mk .object _ members => negatesParensAmong members
  | _ => false

/-- Whether that is so in one of the elements. -/
def negatesParensIn : List Node → Bool
  | [] => false
  | n :: rest => negatesParens n || negatesParensIn rest

/-- Whether that is so in the value of one of the members. -/
def negatesParensAmong : List Node → Bool
  | [] => false
  | .mk .property _ [_, value] :: rest => negatesParens value || negatesParensAmong rest
  | _ :: rest => negatesParensAmong rest

end

theorem bare_array (origin : Origin) (elements : List Node) :
    bare (.mk .array origin elements) = .mk .array origin (bareParts elements) := rfl

theorem bare_unary (op : String) (origin : Origin) (parts : List Node) :
    bare (.mk (.unary op) origin parts) = .mk (.unary op) origin (bareParts parts) := rfl

theorem keyText?_bareInside (key : Node) : keyText? (bareInside key) = keyText? key := by
  obtain ⟨form, origin, parts⟩ := key
  rfl

theorem stringValue?_bare (e : Node) : e.bare.stringValue? = e.stringValue? := by
  induction e using induction with
  | node form origin parts ih =>
    cases form with
    | paren =>
      rcases parts with _ | ⟨inner, _ | ⟨second, rest⟩⟩
      · rfl
      · exact ih inner (List.mem_singleton_self _)
      · rfl
    | template quasis => cases parts <;> rfl
    | _ => rfl

/-- The value is what it is without parentheses, but for a minus in front of some, which has none. -/
def ReadsAsBare (e : Node) : Prop :=
  e.literal? = if e.negatesParens then none else e.bare.literal?

theorem literals?_bareParts {elements : List Node} (h : ∀ n ∈ elements, n.ReadsAsBare) :
    literals? elements =
      if negatesParensIn elements then none else literals? (bareParts elements) := by
  induction elements with
  | nil => rfl
  | cons n rest ih =>
    obtain ⟨hn, hrest⟩ := List.forall_mem_cons.mp h
    rw [literals?, hn, ih hrest, negatesParensIn, bareParts, literals?]
    cases n.negatesParens <;> cases negatesParensIn rest <;> cases literal? n.bare <;> rfl

theorem entries?_bareMembers {members : List Node}
    (h : ∀ n ∈ members, ∀ m ∈ n.parts, m.ReadsAsBare) (table : List (String × Json)) :
    entries? members table =
      if negatesParensAmong members then none else entries? (bareMembers members) table := by
  induction members generalizing table with
  | nil => rfl
  | cons member rest ih =>
    obtain ⟨hmember, hrest⟩ := List.forall_mem_cons.mp h
    obtain ⟨form, origin, parts⟩ := member
    cases form with
    | property =>
      rcases parts with _ | ⟨key, _ | ⟨value, _ | ⟨third, more⟩⟩⟩
      · exact (ite_self none).symm
      · exact (ite_self none).symm
      · have hvalue : value.ReadsAsBare := hmember value (by simp [parts])
        rw [entries?, hvalue, negatesParensAmong, bareMembers, entries?, keyText?_bareInside]
        cases value.negatesParens <;> cases keyText? key <;> cases literal? value.bare <;>
          simp [ih hrest]
      · exact (ite_self none).symm
    | _ => exact (ite_self none).symm

/-! ## Signs -/

theorem literal?_unary_of_ne {op : String} (h : op ≠ "-") (origin : Origin) (parts : List Node) :
    literal? (.mk (.unary op) origin parts) = none := by
  simp [literal?, h, stringValue?]

theorem literal?_unary_of_two (op : String) (origin : Origin) (first second : Node)
    (rest : List Node) : literal? (.mk (.unary op) origin (first :: second :: rest)) = none := by
  simp [literal?, stringValue?]

theorem readsAsBare_unary (op : String) (origin : Origin) (parts : List Node) :
    (Node.mk (.unary op) origin parts).ReadsAsBare := by
  rw [ReadsAsBare, bare_unary]
  by_cases h : op = "-"
  · subst h
    rcases parts with _ | ⟨⟨form, place, inside⟩, _ | ⟨second, rest⟩⟩
    · rfl
    · cases form with
      | paren => rcases inside with _ | ⟨inner, _ | ⟨second, rest⟩⟩ <;> rfl
      | _ => rfl
    · rw [bareParts, bareParts, literal?_unary_of_two, literal?_unary_of_two, ite_self]
  · rw [literal?_unary_of_ne h, literal?_unary_of_ne h, ite_self]

/-! ## The value of an expression -/

theorem readsAsBare (e : Node) : e.ReadsAsBare := by
  induction e using induction_inside with
  | node form origin parts ih =>
    cases form with
    | paren =>
      rcases parts with _ | ⟨inner, _ | ⟨second, rest⟩⟩
      · rfl
      · exact (ih inner (List.mem_singleton_self _)).1
      · rfl
    | array =>
      rw [ReadsAsBare, literal?, literals?_bareParts fun n hn => (ih n hn).1, negatesParens,
        bare_array, literal?]
      exact apply_ite (Option.map Json.arr) _ none _
    | object =>
      rw [ReadsAsBare, literal?, entries?_bareMembers fun n hn => (ih n hn).2, negatesParens, bare,
        literal?]
      exact apply_ite (Option.map Json.obj) _ none _
    | unary op => exact readsAsBare_unary op origin parts
    | template quasis => cases parts <;> rfl
    | _ => rfl

/-- Parentheses do not change what an expression is as a string. As a literal it has the value that it has
without them, unless a minus stands in front of parentheses: then it has none. -/
theorem parentheses_matter_behind_minus (e : Node) :
    e.bare.stringValue? = e.stringValue? ∧
    e.literal? = if e.negatesParens then none else e.bare.literal? :=
  ⟨stringValue?_bare e, readsAsBare e⟩

def negatedGroup : Node := build (.unary "-") [build .paren [number (.ofInt 1)]]

theorem negated_group_has_no_value :
    negatedGroup.bare.literal? = some (.num (.int (-1))) ∧ negatedGroup.literal? = none ∧
    ¬ ∀ e : Node, e.literal? = e.bare.literal? := by
  have hbare : negatedGroup.bare.literal? = some (.num (.int (-1))) := rfl
  have hnone : negatedGroup.literal? = none := rfl
  refine ⟨hbare, hnone, fun hall => ?_⟩
  cases hnone.symm.trans ((hall negatedGroup).trans hbare)

-- Elsewhere they are looked through: `([("a"), { k: (-1) }])`.
example :
    (build .paren [arrayOf [build .paren [string "a"],
      build .object [build .property [build (.name "k"),
        build .paren [build (.unary "-") [number (.ofInt 1)]]]]]]).literal? =
      some (.arr [.str "a", .obj [("k", .num (.int (-1)))]]) := rfl

end CallExpander.Node
