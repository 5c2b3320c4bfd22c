import CallExpander.Proofs.Body

/-!
# Changes while items are out

While an item is out, the rest of the program is changed, and other items are taken out and are put
back or dropped in the meantime. What becomes of the items is what the same changes make of a plain
list in which nothing is ever out: an item that is put back replaces what stood in its place, and one
that is dropped is deleted. The list only has to be told where an item that was taken out has moved to.
-/

namespace CallExpander

namespace Body

/-- Changes of the items of a program, made one after the other. An item that is taken out comes with
what is changed while it is out. -/
inductive Alterations where
  | done
  /-- Inserts items at an index. -/
  | insert (index : Nat) (items : List Node) (rest : Alterations)
  /-- Drops an item. -/
  | remove (index : Nat) (rest : Alterations)
  /-- Takes an item out, and puts another one into its place later. -/
  | replace (index : Nat) (meanwhile : Alterations) (item : Node) (rest : Alterations)
  /-- Takes an item out, and drops its place later. -/
  | withdraw (index : Nat) (meanwhile rest : Alterations)
  deriving Inhabited

/-- Insertion and the exchange of an item go together. -/
theorem set_insert {α : Type} {xs : List α} {index : Nat} (new : List α) (place : Nat) (x : α)
    (hindex : index ≤ xs.length) :
    (xs.set place x).take index ++ new ++ (xs.set place x).drop index =
      (xs.take index ++ new ++ xs.drop index).set (shift index new.length place) x := by
  have htake : (xs.take index).length = index := List.length_take_of_le hindex
  rw [List.take_set, List.drop_set]
  unfold shift
  split
  · next hlt =>
    rw [if_neg (Nat.not_le.mpr hlt), List.append_assoc, List.append_assoc,
      List.set_append_left _ _ (htake.symm ▸ hlt)]
  · next hge =>
    have hle : index ≤ place := Nat.le_of_not_lt hge
    have hlength : (xs.take index ++ new).length = index + new.length := by
      rw [List.length_append, htake]
    rw [if_pos hle, List.set_append_right _ _ (by omega), List.set_eq_of_length_le (by omega)]
    congr 2
    omega

/-- So do the loss of an item and the exchange of another one. -/
theorem set_eraseIdx {α : Type} {xs : List α} {index place : Nat} (x : α) (hne : place ≠ index) :
    (xs.set place x).eraseIdx index = (xs.eraseIdx index).set (unshift index place) x := by
  unfold unshift
  split
  · next hlt => exact List.eraseIdx_set_lt hlt
  · next hge => exact List.eraseIdx_set_gt (by omega)

def putBack : List Nat → List Node → List Node → List Node
  | place :: places, item :: others, items => putBack places others (items.set place item)
  | _, _, items => items

theorem putBack_set {places : List Nat} {index : Nat} (hindex : index ∉ places) (item : Node)
    (others items : List Node) :
    putBack places others (items.set index item) = (putBack places others items).set index item := by
  induction places generalizing others items with
  | nil => rfl
  | cons place places ih =>
    obtain ⟨hne, hrest⟩ := not_or.mp (mt List.mem_cons.mpr hindex)
    cases others with
    | nil => rfl
    | cons other others => rw [putBack, putBack, List.set_comm _ _ hne, ih hrest]

theorem putBack_eraseIdx {places : List Nat} {index : Nat} (hindex : index ∉ places)
    (others items : List Node) :
    putBack (places.map (unshift index)) others (items.eraseIdx index) =
      (putBack places others items).eraseIdx index := by
  induction places generalizing others items with
  | nil => rfl
  | cons place places ih =>
    obtain ⟨hne, hrest⟩ := not_or.mp (mt List.mem_cons.mpr hindex)
    cases others with
    | nil => rfl
    | cons other others =>
      rw [List.map_cons, putBack, putBack, ← set_eraseIdx other (Ne.symm hne), ih hrest]

/-- The items of a program with some of those that are out put back, the latest first. -/
def restore (body : Body) (others : List Node) : List Node :=
  putBack body.pending others body.items

theorem detach?_eq {body : Body} {index : Nat} (hindex : index < body.size) :
    body.detach? index = some (body.items[index],
      ⟨body.items.set index Node.emptyStatement, index :: body.pending⟩) := by
  rw [detach?, List.getElem?_eq_getElem hindex, Option.map_some]

theorem reattach?_eq {items : List Node} {place : Nat} {rest : List Nat}
    (hplace : place < items.length) (item : Node) :
    reattach? ⟨items, place :: rest⟩ item = some (place, ⟨items.set place item, rest⟩) :=
  if_pos hplace

theorem discard?_eq {items : List Node} {place : Nat} {rest : List Nat}
    (hplace : place < items.length) :
    discard? ⟨items, place :: rest⟩ =
      some (place, ⟨items.eraseIdx place, rest.map (unshift place)⟩) :=
  congrArg (Option.map (place, ·)) (if_pos hplace)

namespace Alterations

/-- Makes the changes in a program; none if an item or a pending place is needed that does not
exist. -/
def perform? : Alterations → Body → Option Body
  | .done, body => some body
  | .insert index items rest, body => rest.perform? (body.insertAll index items)
  | .remove index rest, body => (body.remove? index).bind rest.perform?
  | .replace index meanwhile item rest, body => do
    let (_, body) ← body.detach? index
    let body ← meanwhile.perform? body
    let (_, body) ← body.reattach? item
    rest.perform? body
  | .withdraw index meanwhile rest, body => do
    let (_, body) ← body.detach? index
    let body ← meanwhile.perform? body
    let (_, body) ← body.discard?
    rest.perform? body

/-- Where a place is after the changes. -/
def move : Alterations → Nat → Nat
  | .done, place => place
  | .insert index items rest, place => rest.move (shift index items.length place)
  | .remove index rest, place => rest.move (unshift index place)
  | .replace _ meanwhile _ rest, place => rest.move (meanwhile.move place)
  | .withdraw index meanwhile rest, place =>
    rest.move (unshift (meanwhile.move index) (meanwhile.move place))

def apply : Alterations → List Node → List Node
  | .done, items => items
  | .insert index new rest, items => rest.apply (items.take index ++ new ++ items.drop index)
  | .remove index rest, items => rest.apply (items.eraseIdx index)
  | .replace index meanwhile item rest, items =>
    rest.apply ((meanwhile.apply items).set (meanwhile.move index) item)
  | .withdraw index meanwhile rest, items =>
    rest.apply ((meanwhile.apply items).eraseIdx (meanwhile.move index))

/-- How many items there are after the changes. -/
def resize : Alterations → Nat → Nat
  | .done, size => size
  | .insert _ items rest, size => rest.resize (size + items.length)
  | .remove _ rest, size => rest.resize (size - 1)
  | .replace _ meanwhile _ rest, size => rest.resize (meanwhile.resize size)
  | .withdraw _ meanwhile rest, size => rest.resize (meanwhile.resize size - 1)

/-- Among so many items of which some are out, the changes concern only items that are there and not
out. -/
def Fits : Alterations → Nat → List Nat → Prop
  | .done, _, _ => True
  | .insert index items rest, size, out =>
    index ≤ size ∧ rest.Fits (size + items.length) (out.map (shift index items.length))
  | .remove index rest, size, out =>
    index < size ∧ index ∉ out ∧ rest.Fits (size - 1) (out.map (unshift index))
  | .replace index meanwhile _ rest, size, out =>
    index < size ∧ index ∉ out ∧ meanwhile.Fits size (index :: out) ∧
      rest.Fits (meanwhile.resize size) (out.map meanwhile.move)
  | .withdraw index meanwhile rest, size, out =>
    index < size ∧ index ∉ out ∧ meanwhile.Fits size (index :: out) ∧
      rest.Fits (meanwhile.resize size - 1)
        (out.map fun place => unshift (meanwhile.move index) (meanwhile.move place))

instance Fits.decidable : ∀ (alterations : Alterations) (size : Nat) (out : List Nat),
    Decidable (alterations.Fits size out)
  | .done, _, _ => inferInstanceAs (Decidable True)
  | .insert _ _ rest, _, _ =>
    have := Fits.decidable rest
    inferInstanceAs (Decidable (_ ∧ _))
  | .remove _ rest, _, _ =>
    have := Fits.decidable rest
    inferInstanceAs (Decidable (_ ∧ _))
  | .replace _ meanwhile _ rest, _, _ =>
    have := Fits.decidable meanwhile
    have := Fits.decidable rest
    inferInstanceAs (Decidable (_ ∧ _))
  | .withdraw _ meanwhile rest, _, _ =>
    have := Fits.decidable meanwhile
    have := Fits.decidable rest
    inferInstanceAs (Decidable (_ ∧ _))

variable {alterations : Alterations} {size place : Nat} {out : List Nat} {items : List Node}

/-- Items that are out at the same time stay apart. -/
theorem move_injOn (h : alterations.Fits size out) {a b : Nat} (ha : a ∈ out) (hb : b ∈ out)
    (heq : alterations.move a = alterations.move b) : a = b := by
  induction alterations generalizing size out a b with
  | done => exact heq
  | insert index items rest ih =>
    obtain ⟨-, hrest⟩ := h
    exact shift_injective index items.length
      (ih hrest (List.mem_map_of_mem ha) (List.mem_map_of_mem hb) heq)
  | remove index rest ih =>
    obtain ⟨-, hfree, hrest⟩ := h
    have hmoved := ih hrest (List.mem_map_of_mem ha) (List.mem_map_of_mem hb) heq
    exact unshift_injOn index (fun h => hfree (h ▸ ha)) (fun h => hfree (h ▸ hb)) hmoved
  | replace index meanwhile item rest ihMeanwhile ihRest =>
    obtain ⟨-, -, hmeanwhile, hrest⟩ := h
    have hmoved := ihRest hrest (List.mem_map_of_mem ha) (List.mem_map_of_mem hb) heq
    exact ihMeanwhile hmeanwhile (List.mem_cons_of_mem _ ha) (List.mem_cons_of_mem _ hb) hmoved
  | withdraw index meanwhile rest ihMeanwhile ihRest =>
    obtain ⟨-, hfree, hmeanwhile, hrest⟩ := h
    have hmoved := ihRest hrest (List.mem_map_of_mem ha) (List.mem_map_of_mem hb) heq
    have hinner : ∀ {a b : Nat}, a ∈ index :: out → b ∈ index :: out →
        meanwhile.move a = meanwhile.move b → a = b := ihMeanwhile hmeanwhile
    -- Neither of the two is the one that is dropped in the end.
    have happart : ∀ {c : Nat}, c ∈ out → meanwhile.move c ≠ meanwhile.move index := fun hc heq =>
      hfree (hinner (List.mem_cons_of_mem _ hc) List.mem_cons_self heq ▸ hc)
    exact hinner (List.mem_cons_of_mem _ ha) (List.mem_cons_of_mem _ hb)
      (unshift_injOn _ (happart ha) (happart hb) hmoved)

/-- What is dropped is not what is out. -/
theorem Fits.move_ne {index : Nat} (h : alterations.Fits size (index :: out)) (hfree : index ∉ out)
    (hplace : place ∈ out) : alterations.move place ≠ alterations.move index := fun heq =>
  hfree (move_injOn h (List.mem_cons_of_mem _ hplace) List.mem_cons_self heq ▸ hplace)

/-- An item that is out keeps a place among the others. -/
theorem Fits.move_lt (h : alterations.Fits size out) (hplace : place ∈ out) (hlt : place < size) :
    alterations.move place < alterations.resize size := by
  induction alterations generalizing size out place with
  | done => exact hlt
  | insert index items rest ih =>
    refine ih h.2 (List.mem_map_of_mem hplace) ?_
    unfold shift
    split <;> omega
  | remove index rest ih =>
    obtain ⟨hindex, hfree, hrest⟩ := h
    have hne : place ≠ index := fun h => hfree (h ▸ hplace)
    refine ih hrest (List.mem_map_of_mem hplace) ?_
    unfold unshift
    split <;> omega
  | replace index meanwhile item rest ihMeanwhile ihRest =>
    obtain ⟨-, -, hmeanwhile, hrest⟩ := h
    exact ihRest hrest (List.mem_map_of_mem hplace)
      (ihMeanwhile hmeanwhile (List.mem_cons_of_mem _ hplace) hlt)
  | withdraw index meanwhile rest ihMeanwhile ihRest =>
    obtain ⟨hindex, hfree, hmeanwhile, hrest⟩ := h
    have hne := hmeanwhile.move_ne hfree hplace
    have hplace' := ihMeanwhile hmeanwhile (List.mem_cons_of_mem _ hplace) hlt
    have hindex' := ihMeanwhile hmeanwhile List.mem_cons_self hindex
    refine ihRest hrest (List.mem_map_of_mem (f := fun place => unshift _ (meanwhile.move place)) hplace) ?_
    unfold unshift
    split <;> omega

theorem length_insert (new : List Node) {index : Nat} (hindex : index ≤ items.length) :
    (items.take index ++ new ++ items.drop index).length = items.length + new.length := by
  simp only [List.length_append, List.length_take, List.length_drop]
  omega

/-- The changes make a list as long as they say. -/
theorem length_apply (h : alterations.Fits items.length out) :
    (alterations.apply items).length = alterations.resize items.length := by
  induction alterations generalizing items out with
  | done => rfl
  | insert index new rest ih =>
    obtain ⟨hindex, hrest⟩ := h
    have hlength := length_insert new hindex
    rw [← hlength] at hrest
    rw [apply, resize, ih hrest, hlength]
  | remove index rest ih =>
    obtain ⟨hindex, -, hrest⟩ := h
    have hlength := List.length_eraseIdx_of_lt hindex
    rw [← hlength] at hrest
    rw [apply, resize, ih hrest, hlength]
  | replace index meanwhile item rest ihMeanwhile ihRest =>
    obtain ⟨-, -, hmeanwhile, hrest⟩ := h
    have hlength := ihMeanwhile hmeanwhile
    rw [← hlength, ← List.length_set (i := meanwhile.move index) (a := item)] at hrest
    rw [apply, resize, ihRest hrest, List.length_set, hlength]
  | withdraw index meanwhile rest ihMeanwhile ihRest =>
    obtain ⟨hindex, -, hmeanwhile, hrest⟩ := h
    have hlt := hmeanwhile.move_lt List.mem_cons_self hindex
    have hlength := ihMeanwhile hmeanwhile
    have herase := List.length_eraseIdx_of_lt (hlength.symm ▸ hlt)
    rw [hlength] at herase
    rw [← herase] at hrest
    rw [apply, resize, ihRest hrest, herase]

theorem length_replaced (h : alterations.Fits items.length out) (place : Nat) (item : Node) :
    ((alterations.apply items).set place item).length = alterations.resize items.length :=
  List.length_set.trans (length_apply h)

theorem length_withdrawn {index : Nat} (h : alterations.Fits items.length (index :: out))
    (hindex : index < items.length) :
    ((alterations.apply items).eraseIdx (alterations.move index)).length =
      alterations.resize items.length - 1 := by
  have hlength := length_apply h
  rw [List.length_eraseIdx_of_lt (hlength.symm ▸ h.move_lt List.mem_cons_self hindex), hlength]

/-- The changes leave an item that is out alone, whatever it is, and move its place. -/
theorem apply_set (h : alterations.Fits items.length out) (hplace : place ∈ out) (item : Node) :
    alterations.apply (items.set place item) =
      (alterations.apply items).set (alterations.move place) item := by
  induction alterations generalizing items out place with
  | done => rfl
  | insert index new rest ih =>
    obtain ⟨hindex, hrest⟩ := h
    rw [← length_insert new hindex] at hrest
    rw [apply, apply, move, set_insert new place item hindex]
    exact ih hrest (List.mem_map_of_mem hplace)
  | remove index rest ih =>
    obtain ⟨hindex, hfree, hrest⟩ := h
    rw [← List.length_eraseIdx_of_lt hindex] at hrest
    rw [apply, apply, move, set_eraseIdx item fun heq : place = index => hfree (heq ▸ hplace)]
    exact ih hrest (List.mem_map_of_mem hplace)
  | replace index meanwhile new rest ihMeanwhile ihRest =>
    obtain ⟨-, hfree, hmeanwhile, hrest⟩ := h
    have hne := hmeanwhile.move_ne hfree hplace
    rw [← length_replaced hmeanwhile (meanwhile.move index) new] at hrest
    rw [apply, apply, move, ihMeanwhile hmeanwhile (List.mem_cons_of_mem _ hplace),
      List.set_comm _ _ hne]
    exact ihRest hrest (List.mem_map_of_mem hplace)
  | withdraw index meanwhile rest ihMeanwhile ihRest =>
    obtain ⟨hindex, hfree, hmeanwhile, hrest⟩ := h
    have hne := hmeanwhile.move_ne hfree hplace
    rw [← length_withdrawn hmeanwhile hindex] at hrest
    rw [apply, apply, move, ihMeanwhile hmeanwhile (List.mem_cons_of_mem _ hplace),
      set_eraseIdx _ hne]
    exact ihRest hrest
      (List.mem_map_of_mem (f := fun place => unshift _ (meanwhile.move place)) hplace)

/-- A program in which an item was taken out and then the changes were made. -/
def opened (alterations : Alterations) (body : Body) (index : Nat) : Body where
  items := (alterations.apply body.items).set (alterations.move index) Node.emptyStatement
  pending := alterations.move index :: body.pending.map alterations.move

variable {body : Body} {index : Nat}

theorem move_lt_opened (h : alterations.Fits body.size (index :: body.pending))
    (hindex : index < body.size) : alterations.move index <
      ((alterations.apply body.items).set (alterations.move index) Node.emptyStatement).length := by
  have hlt := h.move_lt List.mem_cons_self hindex
  have hlength : (alterations.apply body.items).length = alterations.resize body.size := length_apply h
  rwa [List.length_set, hlength]

theorem reattach?_opened (h : alterations.Fits body.size (index :: body.pending))
    (hindex : index < body.size) (item : Node) :
    (alterations.opened body index).reattach? item = some (alterations.move index,
      ⟨(alterations.apply body.items).set (alterations.move index) item,
        body.pending.map alterations.move⟩) := by
  rw [opened, reattach?_eq (move_lt_opened h hindex), List.set_set]

theorem discard?_opened (h : alterations.Fits body.size (index :: body.pending))
    (hindex : index < body.size) :
    (alterations.opened body index).discard? = some (alterations.move index,
      ⟨(alterations.apply body.items).eraseIdx (alterations.move index),
        body.pending.map fun place => unshift (alterations.move index) (alterations.move place)⟩) := by
  rw [opened, discard?_eq (move_lt_opened h hindex), List.eraseIdx_set_eq, List.map_map]
  rfl

theorem perform?_detached (h : alterations.Fits body.size (index :: body.pending))
    (hperform : ∀ {body : Body}, alterations.Fits body.size body.pending →
      alterations.perform? body =
        some ⟨alterations.apply body.items, body.pending.map alterations.move⟩) :
    alterations.perform? ⟨body.items.set index Node.emptyStatement, index :: body.pending⟩ =
      some (alterations.opened body index) := by
  have hsize : size ⟨body.items.set index Node.emptyStatement, index :: body.pending⟩ = body.size :=
    List.length_set
  rw [hperform (by rwa [hsize]), apply_set h List.mem_cons_self]
  rfl

/-- In a program, the changes do to the items what they do to a list, and move every pending place. -/
theorem perform?_eq (h : alterations.Fits body.size body.pending) :
    alterations.perform? body =
      some ⟨alterations.apply body.items, body.pending.map alterations.move⟩ := by
  induction alterations generalizing body with
  | done => simp only [perform?, apply, move, List.map_id']
  | insert index new rest ih =>
    obtain ⟨hindex, hrest⟩ := h
    have hbody : rest.Fits (body.insertAll index new).size (body.insertAll index new).pending := by
      rwa [size_insertAll]
    rw [perform?, ih hbody, pending_insertAll, List.map_map]
    rfl
  | remove index rest ih =>
    obtain ⟨hindex, -, hrest⟩ := h
    have hremove : body.remove? index =
        some ⟨body.items.eraseIdx index, body.pending.map (unshift index)⟩ := if_pos hindex
    have hsize : size ⟨body.items.eraseIdx index, body.pending.map (unshift index)⟩ = body.size - 1 :=
      List.length_eraseIdx_of_lt hindex
    rw [perform?, hremove, Option.bind_some, ih (by rwa [hsize]), List.map_map]
    rfl
  | replace index meanwhile item rest ihMeanwhile ihRest =>
    obtain ⟨hindex, -, hmeanwhile, hrest⟩ := h
    have hsize : size ⟨(meanwhile.apply body.items).set (meanwhile.move index) item,
        body.pending.map meanwhile.move⟩ = meanwhile.resize body.size :=
      length_replaced hmeanwhile _ item
    simp only [perform?, detach?_eq hindex, perform?_detached hmeanwhile ihMeanwhile,
      reattach?_opened hmeanwhile hindex, Option.bind_eq_bind, Option.bind_some]
    rw [ihRest (by rwa [hsize]), List.map_map]
    rfl
  | withdraw index meanwhile rest ihMeanwhile ihRest =>
    obtain ⟨hindex, -, hmeanwhile, hrest⟩ := h
    have hsize : size ⟨(meanwhile.apply body.items).eraseIdx (meanwhile.move index),
        body.pending.map fun place => unshift (meanwhile.move index) (meanwhile.move place)⟩ =
        meanwhile.resize body.size - 1 := length_withdrawn hmeanwhile hindex
    simp only [perform?, detach?_eq hindex, perform?_detached hmeanwhile ihMeanwhile,
      discard?_opened hmeanwhile hindex, Option.bind_eq_bind, Option.bind_some]
    rw [ihRest (by rwa [hsize]), List.map_map]
    rfl

/-- The items that are out can be put back before the changes as well as after them. -/
theorem apply_putBack {places : List Nat} (h : alterations.Fits items.length out)
    (hplaces : ∀ place ∈ places, place ∈ out) (others : List Node) :
    alterations.apply (putBack places others items) =
      putBack (places.map alterations.move) others (alterations.apply items) := by
  induction places generalizing others items with
  | nil => rfl
  | cons place places ih =>
    obtain ⟨hplace, hrest⟩ := List.forall_mem_cons.mp hplaces
    cases others with
    | nil => rfl
    | cons item others =>
      rw [putBack, List.map_cons, putBack, ← apply_set h hplace]
      exact ih (by rwa [List.length_set]) hrest others

end Alterations

/-- Taking an item out goes together with changing the rest of the program. The changes, which may take
other items out and put them back or drop them, can be made; if the item is then put back, as whatever
it has become, the program is what the same changes make of the list in which it stood all along, and it
stands where it is said to stand; if it is dropped, the program is that list without it, and the item
behind it stands there. Places that were pending before are moved along, so that whatever is put back
into them later might as well have been there all along. -/
theorem detached_item_commutes (body : Body) {index : Nat} {alterations : Alterations}
    (hindex : index < body.size) (hfree : index ∉ body.pending)
    (hfits : alterations.Fits body.size (index :: body.pending)) :
    ∃ before out opened place, body.detach? index = some (before, out) ∧
      alterations.perform? out = some opened ∧
      (∀ item, ∃ closed, opened.reattach? item = some (place, closed) ∧
        closed.items = alterations.apply (body.items.set index item) ∧
        closed.items[place]? = some item ∧
        closed.pending = body.pending.map alterations.move ∧
        ∀ others, closed.restore others = alterations.apply ((body.restore others).set index item)) ∧
      ∃ closed, opened.discard? = some (place, closed) ∧
        closed.pending = body.pending.map (fun other => unshift place (alterations.move other)) ∧
        ∀ item, closed.items = (alterations.apply (body.items.set index item)).eraseIdx place ∧
          closed.items[place]? = (alterations.apply (body.items.set index item))[place + 1]? ∧
          ∀ others, closed.restore others =
            (alterations.apply ((body.restore others).set index item)).eraseIdx place := by
  have hopened := Alterations.perform?_detached hfits Alterations.perform?_eq
  have hset : ∀ item, alterations.apply (body.items.set index item) =
      (alterations.apply body.items).set (alterations.move index) item :=
    Alterations.apply_set hfits List.mem_cons_self
  have hrestore : ∀ item others, alterations.apply ((body.restore others).set index item) =
      putBack (body.pending.map alterations.move) others
        (alterations.apply (body.items.set index item)) := by
    intro item others
    rw [restore, ← putBack_set hfree]
    refine Alterations.apply_putBack ?_ (fun _ => List.mem_cons_of_mem index) others
    rwa [List.length_set]
  have hlt := Alterations.move_lt_opened hfits hindex
  refine ⟨_, _, _, alterations.move index, detach?_eq hindex, hopened, fun item => ?_, ?_⟩
  · refine ⟨_, Alterations.reattach?_opened hfits hindex item, (hset item).symm, ?_, rfl, ?_⟩
    · rw [List.length_set] at hlt
      exact List.getElem?_set_self hlt
    · intro others
      rw [hrestore, hset]
      rfl
  · refine ⟨_, Alterations.discard?_opened hfits hindex, rfl, fun item => ?_⟩
    have hitems : (alterations.apply body.items).eraseIdx (alterations.move index) =
        (alterations.apply (body.items.set index item)).eraseIdx (alterations.move index) := by
      rw [hset, List.eraseIdx_set_eq]
    refine ⟨hitems, ?_, fun others => ?_⟩
    · refine (congrArg (·[alterations.move index]?) hitems).trans ?_
      rw [List.getElem?_eraseIdx, if_neg (Nat.lt_irrefl _)]
    · have happart : alterations.move index ∉ body.pending.map alterations.move := by
        intro hmem
        obtain ⟨other, hother, heq⟩ := List.mem_map.mp hmem
        exact hfits.move_ne hfree hother heq
      rw [hrestore, ← putBack_eraseIdx happart, List.map_map, ← hitems]
      rfl

/-- A program of four items of which the last one is out. -/
def woven : Body where
  items := [Node.identifier "a", Node.identifier "b", Node.identifier "c", Node.emptyStatement]
  pending := [3]

/-- Changes in front of the second item, behind it, and at the third one, which goes away. -/
def weaving : Alterations :=
  .insert 0 [Node.identifier "f"] (.withdraw 3 (.insert 3 [Node.identifier "e"] .done)
    (.replace 0 .done (Node.identifier "g") .done))

/-- The second item is put back as the third one, in front of what was inserted behind it. -/
theorem woven_item_commutes : 1 < woven.size ∧ 1 ∉ woven.pending ∧
    weaving.Fits woven.size (1 :: woven.pending) ∧
    ∃ before out opened place closed, woven.detach? 1 = some (before, out) ∧
      weaving.perform? out = some opened ∧
      opened.reattach? (Node.identifier "x") = some (place, closed) ∧
      closed.items = [Node.identifier "g", Node.identifier "a", Node.identifier "x",
        Node.identifier "e", Node.emptyStatement] ∧
      closed.items[place]? = some (Node.identifier "x") ∧ closed.pending = [4] ∧
      closed.restore [Node.identifier "d"] = [Node.identifier "g", Node.identifier "a",
        Node.identifier "x", Node.identifier "e", Node.identifier "d"] := by
  have hindex : 1 < woven.size := by decide
  have hfree : 1 ∉ woven.pending := by decide
  have hfits : weaving.Fits woven.size (1 :: woven.pending) := by decide
  obtain ⟨before, out, opened, place, hdetach, hperform, hback, -⟩ :=
    detached_item_commutes woven hindex hfree hfits
  obtain ⟨closed, hreattach, hitems, hplace, hpending, hrestore⟩ := hback (Node.identifier "x")
  exact ⟨hindex, hfree, hfits, before, out, opened, place, closed, hdetach, hperform, hreattach,
    hitems, hplace, hpending, hrestore [Node.identifier "d"]⟩

end Body

end CallExpander
