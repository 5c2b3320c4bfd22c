import CallExpander.Body
import Mathlib.Data.List.Nodup

/-!
# Pending places under edits

Every change of the items of a program moves some of them, and the pending places move along. What
a change does to places is said once for each kind of change; that places stay different and in
range follows.
-/

namespace CallExpander

/-- Where an edit inserts items, and how many. -/
def Edit.place (body : Body) : Edit → Nat × Nat
  | .prepend items => (0, items.length)
  | .append items => (body.size, items.length)
  | .prependImports specs => (0, (Body.missingImports body.items [] specs).length)
  | .appendImports specs =>
    (Body.behindImports body.items, (Body.missingImports body.items [] specs).length)
  | .overwrite _ _ => (0, 0)

namespace Body

/-- Where a place is after `count` items were inserted at an index. -/
def shift (index count place : Nat) : Nat := if place ≥ index then place + count else place

/-- Where a place is after the item at an index went away. -/
def unshift (index place : Nat) : Nat := if place > index then place - 1 else place

theorem shift_injective (index count : Nat) : Function.Injective (shift index count) := by
  intro a b h
  unfold shift at h
  split at h <;> split at h <;> omega

theorem unshift_injOn (index : Nat) {a b : Nat} (ha : a ≠ index) (hb : b ≠ index)
    (h : unshift index a = unshift index b) : a = b := by
  unfold unshift at h
  split at h <;> split at h <;> omega

@[simp] theorem size_insertAll (body : Body) (index : Nat) (items : List Node) :
    (body.insertAll index items).size = body.size + items.length := by
  simp only [insertAll, size, List.length_append, List.length_take, List.length_drop]
  omega

theorem pending_insertAll (body : Body) (index : Nat) (items : List Node) :
    (body.insertAll index items).pending = body.pending.map (shift index items.length) := rfl

theorem size_ensureImports (body : Body) (index : Nat) (specs : List ImportSpec) :
    (body.ensureImports index specs).2.size =
      body.size + (missingImports body.items [] specs).length := by
  rw [ensureImports, size_insertAll, List.length_map]

theorem pending_ensureImports (body : Body) (index : Nat) (specs : List ImportSpec) :
    (body.ensureImports index specs).2.pending =
      body.pending.map (shift index (missingImports body.items [] specs).length) := by
  rw [ensureImports, pending_insertAll, List.length_map]

theorem behindImports_le (items : List Node) : behindImports items ≤ items.length := by
  unfold behindImports
  omega

theorem map_shift_zero (index : Nat) (pending : List Nat) : pending.map (shift index 0) = pending := by
  have hid : shift index 0 = id := by
    funext place
    simp [shift]
  rw [hid, List.map_id]

/-- What an edit does to the places of a program. -/
theorem edit_places (body : Body) (edit : Edit) :
    (edit.place body).1 ≤ body.size ∧
      (body.edit edit).2.size = body.size + (edit.place body).2 ∧
      (body.edit edit).2.pending =
        body.pending.map (shift (edit.place body).1 (edit.place body).2) := by
  cases edit with
  | prepend items => exact ⟨Nat.zero_le _, size_insertAll body 0 items, rfl⟩
  | append items => exact ⟨Nat.le_refl _, size_insertAll body body.size items, rfl⟩
  | prependImports specs =>
    exact ⟨Nat.zero_le _, size_ensureImports body 0 specs, pending_ensureImports body 0 specs⟩
  | appendImports specs =>
    exact ⟨behindImports_le body.items, size_ensureImports body (behindImports body.items) specs,
      pending_ensureImports body (behindImports body.items) specs⟩
  | overwrite index item =>
    refine ⟨Nat.zero_le _, ?_, ?_⟩ <;> unfold Body.edit Body.set? <;> simp only [Edit.place]
    · split
      · next body' h =>
        split at h
        · cases h
        · split at h <;> cases h
          simp [size]
      · rfl
    · rw [map_shift_zero]
      split
      · next body' h =>
        split at h
        · cases h
        · split at h <;> cases h
          rfl
      · rfl

/-- Pending places are different and in range. -/
structure Sound (body : Body) : Prop where
  nodup : body.pending.Nodup
  inRange : ∀ place ∈ body.pending, place < body.size

theorem Sound.edit {body : Body} (h : body.Sound) (edit : Edit) : (body.edit edit).2.Sound := by
  obtain ⟨hle, hsize, hpending⟩ := body.edit_places edit
  refine ⟨?_, ?_⟩
  · rw [hpending]
    exact h.nodup.map (shift_injective _ _)
  · intro place hplace
    rw [hpending] at hplace
    obtain ⟨before, hbefore, rfl⟩ := List.mem_map.mp hplace
    have hlt := h.inRange before hbefore
    rw [hsize]
    unfold shift
    split <;> omega

@[simp] theorem size_set (body : Body) (index : Nat) (item : Node) :
    size { body with items := body.items.set index item } = body.size :=
  List.length_set

theorem Sound.set {body : Body} (h : body.Sound) (index : Nat) (item : Node) :
    Sound { body with items := body.items.set index item } :=
  ⟨h.nodup, fun place hplace => by rw [size_set]; exact h.inRange place hplace⟩

/-- What taking an item out does to places. -/
theorem detach?_places {body body' : Body} {index : Nat} {item : Node}
    (h : body.detach? index = some (item, body')) :
    body.items[index]? = some item ∧ body'.items = body.items.set index Node.emptyStatement ∧
      body'.pending = index :: body.pending := by
  unfold detach? at h
  obtain ⟨item', hitem, heq⟩ := Option.map_eq_some_iff.mp h
  cases heq
  exact ⟨hitem, rfl, rfl⟩

theorem size_detach? {body body' : Body} {index : Nat} {item : Node}
    (h : body.detach? index = some (item, body')) : index < body.size ∧ body'.size = body.size := by
  obtain ⟨hitem, hitems, -⟩ := detach?_places h
  refine ⟨(List.getElem?_eq_some_iff.mp hitem).1, ?_⟩
  unfold size
  rw [hitems, List.length_set]

theorem Sound.detach {body body' : Body} {index : Nat} {item : Node} (h : body.Sound)
    (hfree : index ∉ body.pending) (hdetach : body.detach? index = some (item, body')) :
    body'.Sound := by
  obtain ⟨-, -, hpending⟩ := detach?_places hdetach
  obtain ⟨hlt, hsize⟩ := size_detach? hdetach
  refine ⟨?_, ?_⟩
  · rw [hpending]
    exact List.nodup_cons.mpr ⟨hfree, h.nodup⟩
  · rw [hpending, hsize]
    exact List.forall_mem_cons.mpr ⟨hlt, h.inRange⟩

/-- What putting an item back does to places. -/
theorem reattach?_places {body body' : Body} {index : Nat} {item : Node}
    (h : body.reattach? item = some (index, body')) :
    body.pending = index :: body'.pending ∧ body'.items = body.items.set index item ∧
      index < body.size := by
  unfold reattach? at h
  split at h
  · cases h
  · next place rest hpending =>
    split at h
    · next hlt => cases h; exact ⟨hpending, rfl, hlt⟩
    · cases h

/-- Putting an item back where it was taken out. -/
theorem reattach?_detach? {body body' : Body} {index : Nat} {item : Node}
    (h : body.detach? index = some (item, body')) : body'.reattach? item = some (index, body) := by
  obtain ⟨hlt, hsize⟩ := size_detach? h
  obtain ⟨hitem, hitems, hpending⟩ := detach?_places h
  have hback : body'.items.set index item = body.items := by
    obtain ⟨hindex, rfl⟩ := List.getElem?_eq_some_iff.mp hitem
    rw [hitems, List.set_set, List.set_getElem_self]
  unfold reattach?
  simp only [hpending, hsize, if_pos hlt, hback]

theorem Sound.reattach {body body' : Body} {index : Nat} {item : Node} (h : body.Sound)
    (hreattach : body.reattach? item = some (index, body')) : body'.Sound := by
  obtain ⟨hpending, hitems, -⟩ := reattach?_places hreattach
  have hnodup := h.nodup
  have hrange := h.inRange
  rw [hpending] at hnodup hrange
  refine ⟨(List.nodup_cons.mp hnodup).2, fun place hplace => ?_⟩
  have hlt := hrange place (List.mem_cons_of_mem _ hplace)
  simpa [size, hitems] using hlt

/-- What dropping an item does to places. -/
theorem remove?_places {body body' : Body} {index : Nat} (h : body.remove? index = some body') :
    index < body.size ∧ body'.items = body.items.eraseIdx index ∧ body'.size + 1 = body.size ∧
      body'.pending = body.pending.map (unshift index) := by
  unfold remove? at h
  split at h
  · next hlt =>
    cases h
    refine ⟨hlt, rfl, ?_, rfl⟩
    unfold size at hlt ⊢
    rw [List.length_eraseIdx_of_lt hlt]
    omega
  · cases h

theorem Sound.remove {body body' : Body} {index : Nat} (h : body.Sound)
    (hfree : index ∉ body.pending) (hremove : body.remove? index = some body') : body'.Sound := by
  obtain ⟨hlt, -, hsize, hpending⟩ := remove?_places hremove
  have hne : ∀ place ∈ body.pending, place ≠ index := fun place hplace heq => hfree (heq ▸ hplace)
  refine ⟨?_, ?_⟩
  · rw [hpending]
    exact h.nodup.map_on fun a ha b hb heq => unshift_injOn index (hne a ha) (hne b hb) heq
  · intro place hplace
    rw [hpending] at hplace
    obtain ⟨before, hbefore, rfl⟩ := List.mem_map.mp hplace
    have hrange := h.inRange before hbefore
    have hdiff := hne before hbefore
    unfold unshift
    split <;> omega

/-- Dropping the latest pending place drops the item that stands there. -/
theorem discard?_places {body body' : Body} {index : Nat} (h : body.discard? = some (index, body')) :
    ∃ rest, body.pending = index :: rest ∧
      remove? { body with pending := rest } index = some body' := by
  unfold discard? at h
  split at h
  · cases h
  · next place rest hpending =>
    obtain ⟨after, hremove, heq⟩ := Option.map_eq_some_iff.mp h
    cases heq
    exact ⟨rest, hpending, hremove⟩

/-- There is a place to put an item into. -/
def HasPlace (body : Body) : Prop := ∃ index rest, body.pending = index :: rest ∧ index < body.size

theorem not_hasPlace_of_reattach? {body : Body} {item : Node} (h : body.reattach? item = none) :
    ¬ body.HasPlace := by
  rintro ⟨index, rest, hpending, hlt⟩
  unfold reattach? at h
  simp only [hpending, if_pos hlt] at h
  cases h

theorem not_hasPlace_of_discard? {body : Body} (h : body.discard? = none) : ¬ body.HasPlace := by
  rintro ⟨index, rest, hpending, hlt⟩
  unfold discard? at h
  simp only [hpending, remove?, Option.map_eq_none_iff] at h
  split at h
  · cases h
  · next hge => exact hge hlt

theorem Sound.hasPlace {body : Body} (h : body.Sound) (hpending : body.pending ≠ []) :
    body.HasPlace := by
  obtain ⟨index, rest, heq⟩ := List.exists_cons_of_ne_nil hpending
  exact ⟨index, rest, heq, h.inRange index (heq ▸ List.mem_cons_self)⟩

/-- The places below the latest one. -/
theorem Sound.tail {body : Body} {index : Nat} {rest : List Nat} (h : body.Sound)
    (hpending : body.pending = index :: rest) :
    Sound { body with pending := rest } ∧ index ∉ rest := by
  have hnodup := h.nodup
  have hrange := h.inRange
  rw [hpending] at hnodup hrange
  obtain ⟨hfree, hrest⟩ := List.nodup_cons.mp hnodup
  exact ⟨⟨hrest, fun place hplace => hrange place (List.mem_cons_of_mem _ hplace)⟩, hfree⟩

theorem Sound.discard {body body' : Body} {index : Nat} (h : body.Sound)
    (hdiscard : body.discard? = some (index, body')) : body'.Sound := by
  obtain ⟨rest, hpending, hremove⟩ := discard?_places hdiscard
  obtain ⟨hrest, hfree⟩ := h.tail hpending
  exact hrest.remove hfree hremove

/-! ## The items in pending places -/

/-- Insertion moves the entries of a list as it moves places. -/
theorem getElem?_shift {α : Type} {xs : List α} {index : Nat} (new : List α) (place : Nat)
    (hindex : index ≤ xs.length) :
    (xs.take index ++ new ++ xs.drop index)[shift index new.length place]? = xs[place]? := by
  have htake : (xs.take index).length = index := List.length_take_of_le hindex
  unfold shift
  rw [List.append_assoc]
  split
  · rw [List.getElem?_append_right (by omega), List.getElem?_append_right (by omega),
      List.getElem?_drop, htake]
    congr 1
    omega
  · rw [List.getElem?_append_left (by omega), List.getElem?_take_of_lt (by omega)]

theorem getElem?_ensureImports {body : Body} {index : Nat} (specs : List ImportSpec) (place : Nat)
    (hindex : index ≤ body.size) : (body.ensureImports index specs).2.items[
      shift index (missingImports body.items [] specs).length place]? = body.items[place]? := by
  have hmoved :=
    getElem?_shift ((missingImports body.items [] specs).map ImportSpec.toItem) place hindex
  rwa [List.length_map] at hmoved

/-- A loss moves the other entries of a list as it moves places. -/
theorem getElem?_unshift {α : Type} {xs : List α} {index place : Nat} (hne : place ≠ index) :
    (xs.eraseIdx index)[unshift index place]? = xs[place]? := by
  rw [List.getElem?_eraseIdx]
  unfold unshift
  split
  · rw [if_neg (by omega)]
    congr 1
    omega
  · rw [if_pos (by omega)]

/-- An edit moves what is in a pending place, and does not change it. -/
theorem getElem?_edit {body : Body} {place : Nat} (edit : Edit) (hplace : place ∈ body.pending) :
    (body.edit edit).2.items[shift (edit.place body).1 (edit.place body).2 place]? =
      body.items[place]? := by
  cases edit with
  | prepend items => exact getElem?_shift items place (Nat.zero_le _)
  | append items => exact getElem?_shift items place (Nat.le_refl _)
  | prependImports specs => exact getElem?_ensureImports specs place (Nat.zero_le _)
  | appendImports specs => exact getElem?_ensureImports specs place (behindImports_le body.items)
  | overwrite index item =>
    have hshift : shift (Edit.place body (.overwrite index item)).1
        (Edit.place body (.overwrite index item)).2 place = place := by
      simp [Edit.place, shift]
    rw [hshift]
    unfold Body.edit set?
    simp only
    split
    · next body' h =>
      split at h
      · cases h
      · next hfree =>
        -- A pending place is not the one that is overwritten.
        have hne : index ≠ place := fun heq =>
          hfree (by simpa only [isPending, List.contains_iff_mem, heq] using hplace)
        split at h <;> cases h
        exact List.getElem?_set_ne hne
    · rfl

/-- Every pending place is held by an empty statement. -/
structure Held (body : Body) : Prop extends body.Sound where
  empty : ∀ place ∈ body.pending, body.items[place]? = some Node.emptyStatement

theorem held_of_idle {body : Body} (h : body.pending = []) : body.Held where
  nodup := by rw [h]; exact List.nodup_nil
  inRange := by rw [h]; simp
  empty := by rw [h]; simp

theorem Held.edit {body : Body} (h : body.Held) (edit : Edit) : (body.edit edit).2.Held where
  toSound := h.toSound.edit edit
  empty := by
    intro place hplace
    obtain ⟨-, -, hpending⟩ := body.edit_places edit
    rw [hpending] at hplace
    obtain ⟨before, hbefore, rfl⟩ := List.mem_map.mp hplace
    rw [getElem?_edit edit hbefore]
    exact h.empty before hbefore

theorem Held.set {body : Body} {index : Nat} (h : body.Held) (hfree : index ∉ body.pending)
    (item : Node) : Held { body with items := body.items.set index item } where
  toSound := h.toSound.set index item
  empty := by
    intro place hplace
    have hne : index ≠ place := fun heq => hfree (heq ▸ hplace)
    exact (List.getElem?_set_ne hne).trans (h.empty place hplace)

theorem Held.detach {body body' : Body} {index : Nat} {item : Node} (h : body.Held)
    (hfree : index ∉ body.pending) (hdetach : body.detach? index = some (item, body')) :
    body'.Held where
  toSound := h.toSound.detach hfree hdetach
  empty := by
    obtain ⟨-, hitems, hpending⟩ := detach?_places hdetach
    obtain ⟨hlt, -⟩ := size_detach? hdetach
    rw [hitems, hpending]
    refine List.forall_mem_cons.mpr ⟨List.getElem?_set_self hlt, fun place hplace => ?_⟩
    have hne : index ≠ place := fun heq => hfree (heq ▸ hplace)
    rw [List.getElem?_set_ne hne]
    exact h.empty place hplace

theorem Held.tail {body : Body} {index : Nat} {rest : List Nat} (h : body.Held)
    (hpending : body.pending = index :: rest) :
    Held { body with pending := rest } ∧ index ∉ rest := by
  obtain ⟨hsound, hfree⟩ := h.toSound.tail hpending
  refine ⟨⟨hsound, fun place hplace => ?_⟩, hfree⟩
  exact h.empty place (hpending ▸ List.mem_cons_of_mem _ hplace)

theorem Held.reattach {body body' : Body} {index : Nat} {item : Node} (h : body.Held)
    (hreattach : body.reattach? item = some (index, body')) : body'.Held := by
  obtain ⟨hpending, hitems, -⟩ := reattach?_places hreattach
  obtain ⟨hrest, hfree⟩ := h.tail hpending
  have hbody : body' = { body with items := body.items.set index item, pending := body'.pending } := by
    rw [← hitems]
  rw [hbody]
  exact hrest.set hfree item

theorem Held.remove {body body' : Body} {index : Nat} (h : body.Held)
    (hfree : index ∉ body.pending) (hremove : body.remove? index = some body') : body'.Held where
  toSound := h.toSound.remove hfree hremove
  empty := by
    intro place hplace
    obtain ⟨-, hitems, -, hpending⟩ := remove?_places hremove
    rw [hpending] at hplace
    obtain ⟨before, hbefore, rfl⟩ := List.mem_map.mp hplace
    have hne : before ≠ index := fun heq => hfree (heq ▸ hbefore)
    rw [hitems, getElem?_unshift hne]
    exact h.empty before hbefore

theorem Held.discard {body body' : Body} {index : Nat} (h : body.Held)
    (hdiscard : body.discard? = some (index, body')) : body'.Held := by
  obtain ⟨rest, hpending, hremove⟩ := discard?_places hdiscard
  obtain ⟨hrest, hfree⟩ := h.tail hpending
  exact hrest.remove hfree hremove

end Body

end CallExpander
