import CallExpander.Proofs.Tree.Marker

/-!
# Cleaning up, place by place

A place in a program is where a part of it stands, at any depth. What becomes of a marker depends on its
place only, and around it the program is cleaned up as it would be anyway. So what the recursion does can
be said of each place by itself.
-/

namespace CallExpander.Node

/-- A node around a place: all of it but the part in which the place is. There is no place in a marker. -/
structure Frame where
  form : Form
  origin : Origin
  before : List Node
  after : List Node
  isOpen : form ≠ .removed

/-- A place in the items of a program: the nodes around it, the innermost one first, and the items before
and behind the one in which it is. -/
structure Place where
  around : List Frame
  before : List Node
  after : List Node

namespace Frame

/-- The node with a part at the place. -/
def fill (frame : Frame) (n : Node) : Node :=
  .mk frame.form frame.origin (frame.before ++ n :: frame.after)

/-- The node with the other parts cleaned up. -/
def sweep (frame : Frame) : Frame :=
  if frame.form.isStatementList then
    { frame with before := sweepStatements frame.before, after := sweepStatements frame.after }
  else { frame with before := frame.before.map Node.sweep, after := frame.after.map Node.sweep }

end Frame

namespace Place

def fill (place : Place) (n : Node) : List Node :=
  place.before ++ place.around.foldl (fun n frame => frame.fill n) n :: place.after

def sweep (place : Place) : Place where
  around := place.around.map Frame.sweep
  before := sweepStatements place.before
  after := sweepStatements place.after

def isListed (place : Place) : Bool :=
  match place.around with
  | [] => true
  | frame :: _ => frame.form.isStatementList

/-- Whether a place is that of the whole expression of a statement. -/
def isWhole (place : Place) : Bool :=
  match place.around with
  | ⟨.exprStmt, _, [], [], _⟩ :: _ => true
  | _ => false

end Place

/-- A node that cleaning up leaves where it is. -/
def Solid (n : Node) : Prop := n.isRemoved = false ∧ n.isRemovedStatement = false

theorem sweepStatements_eq_filter (items : List Node) :
    sweepStatements items = (items.filter fun n => !n.isRemovedStatement).map sweep := by
  induction items with
  | nil => rfl
  | cons n rest ih =>
    rw [sweepStatements, ih]
    cases h : n.isRemovedStatement <;> simp [h]

theorem sweepStatements_append (as bs : List Node) :
    sweepStatements (as ++ bs) = sweepStatements as ++ sweepStatements bs := by
  simp only [sweepStatements_eq_filter, List.filter_append, List.map_append]

/-- A statement that is no marker stays in its list. -/
theorem sweepStatements_around {n : Node} (h : n.isRemovedStatement = false) (before after : List Node) :
    sweepStatements (before ++ n :: after) =
      sweepStatements before ++ n.sweep :: sweepStatements after := by
  rw [sweepStatements_append, sweepStatements, h, if_neg (by simp)]

theorem sweep_of_list {form : Form} (hlist : form.isStatementList = true) (origin : Origin)
    (parts : List Node) : sweep (.mk form origin parts) = .mk form origin (sweepStatements parts) := by
  rcases sweep_cases form origin parts with
    ⟨rfl, -, -⟩ | ⟨hstatement, -, -⟩ | ⟨-, -, -, hsweep, -⟩ | ⟨-, -, hother, -, -⟩
  · cases hlist
  · rw [isRemovedStatement_of_list hlist] at hstatement
    cases hstatement
  · exact hsweep
  · rw [hlist] at hother
    cases hother

theorem solid_of_list {form : Form} (hlist : form.isStatementList = true) (origin : Origin)
    (parts : List Node) : Solid (.mk form origin parts) := by
  refine ⟨isRemoved_of_ne ?_, isRemovedStatement_of_list hlist⟩
  rintro rfl
  cases hlist

/-- Only the marker of a removed call makes a statement a marker, as the whole of its expression. -/
theorem isRemovedStatement_fill {frame : Frame} {n : Node}
    (h : (frame.fill n).isRemovedStatement = true) :
    frame.form = .exprStmt ∧ frame.before = [] ∧ frame.after = [] ∧ n.isRemoved = true := by
  unfold Frame.fill isRemovedStatement at h
  split at h
  · next inner hnode =>
    injection hnode with hform _ hparts
    rcases List.append_eq_singleton_iff.mp hparts with ⟨hbefore, hrest⟩ | ⟨-, hrest⟩
    · obtain ⟨rfl, hafter⟩ := List.cons.inj hrest
      exact ⟨hform, hbefore, hafter, h⟩
    · cases hrest
  · cases h

/-- Around what is no marker, nothing is one. -/
theorem solid_fill {n : Node} (h : n.isRemoved = false) (frame : Frame) : Solid (frame.fill n) := by
  refine ⟨isRemoved_of_ne frame.isOpen, ?_⟩
  by_contra hstatement
  have hremoved := (isRemovedStatement_fill (by simpa using hstatement)).2.2.2
  rw [h] at hremoved
  cases hremoved

/-- Cleaning up a node that stays cleans up each part of it. -/
theorem Frame.sweep_fill {frame : Frame} {n : Node} (hfilled : (frame.fill n).isRemovedStatement = false)
    (hlisted : frame.form.isStatementList = true → n.isRemovedStatement = false) :
    (frame.fill n).sweep = frame.sweep.fill n.sweep := by
  unfold Frame.fill at hfilled ⊢
  rcases sweep_cases frame.form frame.origin (frame.before ++ n :: frame.after) with
    ⟨hremoved, -, -⟩ | ⟨hstatement, -, -⟩ | ⟨-, -, hlist, hsweep, -⟩ | ⟨-, -, hother, hsweep, -⟩
  · exact absurd hremoved frame.isOpen
  · rw [hfilled] at hstatement
    cases hstatement
  · rw [hsweep, sweepStatements_around (hlisted hlist), Frame.sweep, if_pos hlist]
  · rw [hsweep, List.map_append, List.map_cons, Frame.sweep, if_neg (by simp [hother])]

theorem sweep_foldl (around : List Frame) {n : Node} (h : Solid n) :
    Solid (around.foldl (fun n frame => frame.fill n) n) ∧
      (around.foldl (fun n frame => frame.fill n) n).sweep =
        (around.map Frame.sweep).foldl (fun n frame => frame.fill n) n.sweep := by
  induction around generalizing n with
  | nil => exact ⟨h, rfl⟩
  | cons frame rest ih =>
    have hfilled := solid_fill h.1 frame
    obtain ⟨hsolid, hsweep⟩ := ih hfilled
    refine ⟨hsolid, hsweep.trans ?_⟩
    rw [Frame.sweep_fill hfilled.2 fun _ => h.2, List.map_cons, List.foldl_cons]

namespace Place

variable {n : Node}

/-- A part that stays is cleaned up where it stands, and so is all around it. -/
theorem sweepStatements_fill (place : Place) (h : Solid n) :
    sweepStatements (place.fill n) = place.sweep.fill n.sweep := by
  obtain ⟨hsolid, hsweep⟩ := sweep_foldl place.around h
  rw [fill, sweepStatements_around hsolid.2, hsweep]
  rfl

/-- A part that stays makes the node around it stay. -/
theorem sweepStatements_fill_around {frame : Frame} {around : List Frame} {before after : List Node}
    (hfilled : (frame.fill n).isRemovedStatement = false)
    (hlisted : frame.form.isStatementList = true → n.isRemovedStatement = false) :
    sweepStatements (fill ⟨frame :: around, before, after⟩ n) =
      fill (sweep ⟨frame :: around, before, after⟩) n.sweep := by
  have hsolid : Solid (frame.fill n) := ⟨isRemoved_of_ne frame.isOpen, hfilled⟩
  have hrest := sweepStatements_fill ⟨around, before, after⟩ hsolid
  rw [Frame.sweep_fill hfilled hlisted] at hrest
  exact hrest

end Place

theorem sweep_of_isRemoved : ∀ {n : Node}, n.isRemoved = true → n.sweep = undefined
  | .mk form _ _, h => by
    cases form <;> first | rfl | cases h

theorem sweep_of_isRemovedStatement : ∀ {n : Node}, n.isRemovedStatement = true →
    n.sweep = emptyStatement
  | .mk form origin parts, h => by
    rcases sweep_cases form origin parts with
      ⟨rfl, -, -⟩ | ⟨-, hsweep, -⟩ | ⟨hother, -⟩ | ⟨hother, -⟩
    · cases h
    · exact hsweep
    all_goals
      rw [h] at hother
      cases hother

theorem isRemoved_of_isRemovedStatement {n : Node} (h : n.isRemovedStatement = true) :
    n.isRemoved = false := by
  unfold isRemovedStatement at h
  split at h
  · rfl
  · cases h

theorem isRemovedStatement_of_isRemoved : ∀ {n : Node}, n.isRemoved = true →
    n.isRemovedStatement = false
  | .mk form _ _, h => by
    cases form <;> first | rfl | cases h

namespace Place

/-- The statements of a list are cleaned up in their order, without those that are markers. -/
theorem sweepStatements_fill_list (place : Place) {form : Form} (hlist : form.isStatementList = true)
    (origin : Origin) (parts : List Node) :
    sweepStatements (place.fill (.mk form origin parts)) = place.sweep.fill
      (.mk form origin ((parts.filter fun n => !n.isRemovedStatement).map Node.sweep)) := by
  rw [sweepStatements_fill place (solid_of_list hlist origin parts), sweep_of_list hlist,
    sweepStatements_eq_filter]

/-- A statement that is a marker and stands alone becomes empty. -/
theorem sweepStatements_fill_alone (place : Place) (h : n.isRemovedStatement = true)
    (halone : place.isListed = false) :
    sweepStatements (place.fill n) = place.sweep.fill emptyStatement := by
  obtain ⟨_ | ⟨frame, around⟩, before, after⟩ := place
  · cases halone
  rw [← sweep_of_isRemovedStatement h]
  refine sweepStatements_fill_around (solid_fill (isRemoved_of_isRemovedStatement h) frame).2 ?_
  intro hlist
  rw [show frame.form.isStatementList = false from halone] at hlist
  cases hlist

/-- A marker that is not the whole of a statement becomes `void 0`. -/
theorem sweepStatements_fill_marker (place : Place) (h : n.isRemoved = true)
    (hpart : place.isWhole = false) :
    sweepStatements (place.fill n) = place.sweep.fill undefined := by
  rw [← sweep_of_isRemoved h]
  have hstatement := isRemovedStatement_of_isRemoved h
  obtain ⟨_ | ⟨frame, around⟩, before, after⟩ := place
  · exact sweepStatements_around hstatement before after
  refine sweepStatements_fill_around ?_ fun _ => hstatement
  by_contra hfilled
  obtain ⟨hform, hbefore, hafter, -⟩ := isRemovedStatement_fill (by simpa using hfilled)
  obtain ⟨form, origin, inFront, behind, isOpen⟩ := frame
  simp only at hform hbefore hafter
  subst hform hbefore hafter
  cases hpart

end Place

theorem sweepStatements_of_unmarked {items : List Node} (h : ∀ n ∈ items, n.hasMarker = false) :
    sweepStatements items = items := by
  rw [sweepStatements_eq_map fun n hn => isRemovedStatement_of_unmarked (h n hn),
    List.map_congr_left (g := id) (sweep_parts_of_unmarked h), List.map_id]

/-- Cleaning up the items of a program leaves no marker, has nothing left to do a second time, and leaves
a program without markers as it is. The items, and at every place the statements of a list, are cleaned up
in their order without those that are nothing but a marker. Such a statement becomes empty at a place
where it stands alone, and a marker that is not the whole of a statement becomes `void 0`. -/
theorem markers_resolve_by_place (items : List Node) :
    (∀ n ∈ sweepStatements items, n.hasMarker = false) ∧
    sweepStatements (sweepStatements items) = sweepStatements items ∧
    ((∀ n ∈ items, n.hasMarker = false) → sweepStatements items = items) ∧
    sweepStatements items = (items.filter fun n => !n.isRemovedStatement).map sweep ∧
    ∀ place : Place,
      (∀ form origin parts, form.isStatementList = true → items = place.fill (.mk form origin parts) →
        sweepStatements items = place.sweep.fill
          (.mk form origin ((parts.filter fun n => !n.isRemovedStatement).map sweep))) ∧
      (∀ n, n.isRemovedStatement = true → place.isListed = false → items = place.fill n →
        sweepStatements items = place.sweep.fill emptyStatement) ∧
      ∀ n, n.isRemoved = true → place.isWhole = false → items = place.fill n →
        sweepStatements items = place.sweep.fill undefined := by
  have hclean : ∀ n ∈ sweepStatements items, n.hasMarker = false := by
    intro n hn
    obtain ⟨m, -, rfl⟩ := mem_sweepStatements hn
    exact unmarked_sweep m
  refine ⟨hclean, sweepStatements_of_unmarked hclean, sweepStatements_of_unmarked,
    sweepStatements_eq_filter items, fun place => ⟨?_, ?_, ?_⟩⟩
  · rintro form origin parts hlist rfl
    exact place.sweepStatements_fill_list hlist origin parts
  · rintro n h halone rfl
    exact place.sweepStatements_fill_alone h halone
  · rintro n h hpart rfl
    exact place.sweepStatements_fill_marker h hpart

/-- A statement that is nothing but the marker of a removed call. -/
def gone : Node := build .exprStmt [removedMarker]

/-- Markers in a branch, in the arguments of a call, and among the statements of a function that is an
argument. -/
def strewn : List Node :=
  [build .ifStmt [identifier "x", gone, missing],
    build .exprStmt [callOf (identifier "f") [removedMarker, build (.arrow false)
      [build .group [], build .body [gone, build .exprStmt [identifier "y"]], missing, missing]]]]

def branch : Place where
  around := [⟨.ifStmt, .built, [identifier "x"], [missing], nofun⟩]
  before := []
  after := strewn.drop 1

def argument : Place where
  around := [⟨.group, .built, [], [build (.arrow false) [build .group [],
      build .body [gone, build .exprStmt [identifier "y"]], missing, missing]], nofun⟩,
    ⟨.call, .built, [identifier "f"], [missing], nofun⟩, ⟨.exprStmt, .built, [], [], nofun⟩]
  before := strewn.take 1
  after := []

def functionBody : Place where
  around := [⟨.arrow false, .built, [build .group []], [missing, missing], nofun⟩,
    ⟨.group, .built, [removedMarker], [], nofun⟩,
    ⟨.call, .built, [identifier "f"], [missing], nofun⟩, ⟨.exprStmt, .built, [], [], nofun⟩]
  before := strewn.take 1
  after := []

theorem strewn_markers_resolve :
    gone.isRemovedStatement = true ∧ branch.isListed = false ∧ strewn = branch.fill gone ∧
    sweepStatements strewn = branch.sweep.fill emptyStatement ∧
    removedMarker.isRemoved = true ∧ argument.isWhole = false ∧ strewn = argument.fill removedMarker ∧
    sweepStatements strewn = argument.sweep.fill undefined ∧
    strewn = functionBody.fill (build .body [gone, build .exprStmt [identifier "y"]]) ∧
    sweepStatements strewn = functionBody.sweep.fill (build .body [build .exprStmt [identifier "y"]]) := by
  obtain ⟨-, -, -, -, hplaces⟩ := markers_resolve_by_place strewn
  exact ⟨rfl, rfl, rfl, (hplaces branch).2.1 gone rfl rfl rfl, rfl, rfl, rfl,
    (hplaces argument).2.2 removedMarker rfl rfl rfl, rfl,
    (hplaces functionBody).1 .body .built [gone, build .exprStmt [identifier "y"]] rfl rfl⟩

end CallExpander.Node
