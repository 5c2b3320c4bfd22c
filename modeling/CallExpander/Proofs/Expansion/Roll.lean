import CallExpander.Proofs.Expansion.FixedPoint

/-!
# The items that a pass takes up

A roll gives every item of a program an identity and follows it through the events of a pass: edits
insert items, items go away, and the walk takes up one item after the other by its index alone. The
walk took up what it took up and has ahead of it what stands behind the current item; that these
two make up one line without repetition, to which an insertion adds exactly if it is made behind
the current item, is what every event keeps.
-/

namespace CallExpander

/-- The identities of the items of a program in a pass, and what became of them. -/
structure Roll where
  /-- The items in their order. -/
  items : List Nat
  /-- The first identity that no item has had yet. -/
  next : Nat
  /-- The item that the walk took up last. -/
  current : Option Nat := none
  /-- The items that the walk took up, in order. -/
  walked : List Nat := []
  /-- Items that were inserted in front of the one that the walk was at. -/
  front : List Nat := []
  /-- Items that were inserted behind it. -/
  behind : List Nat := []
  /-- Items that went away while the walk was at another one, as only a request can do. -/
  deleted : List Nat := []
  deriving Repr, DecidableEq, Inhabited

namespace Roll

/-- The roll at the start of a pass: items are numbered in their order. -/
def start (size : Nat) : Roll := { items := List.range size, next := size }

def fresh (roll : Roll) (count : Nat) : List Nat := (List.range count).map (roll.next + ·)

/-- Whether an index is not behind the item that the walk is at. -/
def isFront (roll : Roll) (index : Nat) : Bool :=
  roll.current.any fun id => index ≤ roll.items.idxOf id

def insert (roll : Roll) (index count : Nat) : Roll :=
  { roll with
    items := roll.items.take index ++ roll.fresh count ++ roll.items.drop index
    next := roll.next + count
    front := if roll.isFront index then roll.front ++ roll.fresh count else roll.front
    behind := if roll.isFront index then roll.behind else roll.behind ++ roll.fresh count }

def walk (roll : Roll) (index : Nat) : Roll :=
  match roll.items[index]? with
  | some id => { roll with current := some id, walked := roll.walked ++ [id] }
  | none => roll

def drop (roll : Roll) (index : Nat) : Roll :=
  match roll.items[index]? with
  | some id =>
    { roll with
      items := roll.items.eraseIdx index
      deleted := if roll.current = some id then roll.deleted else roll.deleted ++ [id] }
  | none => roll

/-- Follows one event. -/
def step (roll : Roll) : Event → Roll
  | .walked index => roll.walk index
  | .edited body edit => roll.insert (edit.place body).1 (edit.place body).2
  | .dropped index => roll.drop index
  | .resolved _ | .applied _ | .left _ => roll

/-- Follows the events of a pass over a program of some size. -/
def after (size : Nat) (events : List Event) : Roll := events.foldl step (start size)

theorem after_append (size : Nat) (events more : List Event) :
    after size (events ++ more) = more.foldl step (after size events) :=
  List.foldl_append

/-- What the walk took up, and behind it what is ahead of it from an index on. -/
def line (roll : Roll) (ahead : Nat) : List Nat := roll.walked ++ roll.items.drop ahead

/-- The walk is on course: of a program that had some size at the start of the pass, it has taken up
the right items, and the right ones are ahead. -/
structure OnCourse (roll : Roll) (size ahead : Nat) : Prop where
  nodup : roll.items.Nodup
  known : ∀ id, id ∈ roll.items ∨ id ∈ roll.walked → id < roll.next
  size_le : size ≤ roll.next
  once : (roll.line ahead).Nodup
  ordered : ((roll.line ahead).filter (· < size)).Pairwise (· < ·)
  covered : ∀ id, id < size ∨ id ∈ roll.behind → id ∈ roll.line ahead ∨ id ∈ roll.deleted
  passed : ∀ id ∈ roll.front, id ∉ roll.line ahead ∧ id < roll.next

theorem onCourse_start (size : Nat) : (start size).OnCourse size 0 where
  nodup := List.nodup_range
  known := by
    rintro id (hid | hid)
    · exact List.mem_range.mp hid
    · cases hid
  size_le := Nat.le_refl size
  once := List.nodup_range
  ordered := List.pairwise_lt_range.filter _
  covered := by
    rintro id (hid | hid)
    · exact .inl (List.mem_range.mpr hid)
    · cases hid
  passed := by intro id hid; cases hid

theorem mem_fresh {roll : Roll} {count id : Nat} (h : id ∈ roll.fresh count) :
    roll.next ≤ id ∧ id < roll.next + count := by
  obtain ⟨k, hk, rfl⟩ := List.mem_map.mp h
  have hlt := List.mem_range.mp hk
  omega

theorem nodup_fresh (roll : Roll) (count : Nat) : (roll.fresh count).Nodup :=
  List.nodup_range.map fun _ _ h => Nat.add_left_cancel h

@[simp] theorem length_fresh (roll : Roll) (count : Nat) : (roll.fresh count).length = count := by
  simp [fresh]

/-- New identities can be inserted anywhere without repeating one. -/
theorem nodup_insert_fresh {roll : Roll} {as bs : List Nat} (count : Nat) (h : (as ++ bs).Nodup)
    (hknown : ∀ id ∈ as ++ bs, id < roll.next) : (as ++ roll.fresh count ++ bs).Nodup := by
  have hperm : (as ++ roll.fresh count ++ bs).Perm (roll.fresh count ++ (as ++ bs)) := by
    rw [List.append_assoc]
    exact List.perm_append_comm_assoc as (roll.fresh count) bs
  rw [hperm.nodup_iff, List.nodup_append]
  refine ⟨roll.nodup_fresh count, h, fun a ha b hb heq => ?_⟩
  have hge := (mem_fresh ha).1
  have hlt := hknown b hb
  omega

/-! ## One event -/

theorem OnCourse.walk {roll : Roll} {size index : Nat} (h : roll.OnCourse size index)
    (hindex : index < roll.items.length) :
    (roll.walk index).OnCourse size (index + 1) ∧ (roll.walk index).items = roll.items ∧
      ∃ id, (roll.walk index).current = some id ∧ (roll.walk index).items[index]? = some id := by
  have hget : roll.items[index]? = some roll.items[index] := List.getElem?_eq_getElem hindex
  have hwalk : roll.walk index =
      { roll with
        current := some roll.items[index], walked := roll.walked ++ [roll.items[index]] } := by
    rw [Roll.walk, hget]
  -- The item moves from the head of what is ahead to the end of what was taken up.
  have hline : (roll.walk index).line (index + 1) = roll.line index := by
    rw [hwalk]
    simp only [line, List.append_assoc, List.singleton_append]
    rw [List.drop_eq_getElem_cons hindex]
  refine ⟨?_, by rw [hwalk], roll.items[index], by rw [hwalk], by rw [hwalk]; exact hget⟩
  refine ⟨?_, ?_, ?_, hline ▸ h.once, hline ▸ h.ordered, ?_, ?_⟩
  · rw [hwalk]; exact h.nodup
  · rw [hwalk]
    rintro id (hid | hid)
    · exact h.known id (.inl hid)
    · rcases List.mem_append.mp hid with hid | hid
      · exact h.known id (.inr hid)
      · rw [List.mem_singleton.mp hid]
        exact h.known _ (.inl (List.getElem_mem hindex))
  · rw [hwalk]; exact h.size_le
  · rw [hline, hwalk]; exact h.covered
  · rw [hline, hwalk]; exact h.passed

/-- The walk is at an item, on course, with the items behind that one ahead of it. -/
structure At (roll : Roll) (size place : Nat) : Prop where
  current : ∃ id, roll.current = some id ∧ roll.items[place]? = some id
  onCourse : roll.OnCourse size (place + 1)

theorem At.place_lt {roll : Roll} {size place : Nat} (h : roll.At size place) :
    place < roll.items.length := by
  obtain ⟨id, -, hget⟩ := h.current
  exact (List.getElem?_eq_some_iff.mp hget).1

theorem At.isFront {roll : Roll} {size place : Nat} (h : roll.At size place) (index : Nat) :
    roll.isFront index = decide (index ≤ place) := by
  obtain ⟨id, hcurrent, hget⟩ := h.current
  obtain ⟨hlt, rfl⟩ := List.getElem?_eq_some_iff.mp hget
  simp only [Roll.isFront, hcurrent, Option.any_some]
  rw [h.onCourse.nodup.idxOf_getElem place hlt]

/-- What an insertion leaves ahead of the walk: the same items if it is made in front of the current
one, and the new ones among them if it is made behind. -/
theorem line_insert {roll : Roll} {index : Nat} (place count : Nat)
    (hindex : index ≤ roll.items.length) :
    (index ≤ place ∧ (roll.insert index count).line (place + count + 1) = roll.line (place + 1)) ∨
    (place < index ∧ ∃ as bs, roll.line (place + 1) = as ++ bs ∧
      (roll.insert index count).line (place + 1) = as ++ roll.fresh count ++ bs) := by
  have htake : (roll.items.take index).length = index := List.length_take_of_le hindex
  by_cases hle : index ≤ place
  · refine .inl ⟨hle, ?_⟩
    have hlength : (roll.items.take index ++ roll.fresh count).length = index + count := by
      rw [List.length_append, htake, length_fresh]
    simp only [line, Roll.insert]
    rw [List.drop_append, hlength, List.drop_eq_nil_of_le (by omega), List.nil_append, List.drop_drop]
    congr 2
    omega
  · refine .inr ⟨by omega, roll.walked ++ (roll.items.take index).drop (place + 1),
      roll.items.drop index, ?_, ?_⟩
    · rw [List.append_assoc, ← List.drop_append_of_le_length (by omega), List.take_append_drop]
      rfl
    · simp only [line, Roll.insert, List.append_assoc]
      rw [List.drop_append_of_le_length (by omega)]

theorem getElem?_insert {roll : Roll} {index place : Nat} (count : Nat)
    (hindex : index ≤ roll.items.length) :
    (roll.insert index count).items[Body.shift index count place]? = roll.items[place]? := by
  have h := Body.getElem?_shift (roll.fresh count) place hindex
  rwa [length_fresh] at h

theorem At.insert {roll : Roll} {size place index : Nat} (h : roll.At size place) (count : Nat)
    (hindex : index ≤ roll.items.length) :
    (roll.insert index count).At size (Body.shift index count place) := by
  have hc := h.onCourse
  obtain ⟨id, hcurrent, hget⟩ := h.current
  have hitems : (roll.items.take index ++ roll.items.drop index).Nodup := by
    rw [List.take_append_drop]
    exact hc.nodup
  have hknown : ∀ id ∈ roll.line (place + 1), id < roll.next := by
    intro id hid
    rcases List.mem_append.mp hid with hid | hid
    · exact hc.known id (.inr hid)
    · exact hc.known id (.inl (List.mem_of_mem_drop hid))
  have hknown' : ∀ id, id ∈ (roll.insert index count).items ∨ id ∈ (roll.insert index count).walked →
      id < (roll.insert index count).next := by
    rintro id (hid | hid)
    · rcases List.mem_append.mp hid with hid | hid
      · rcases List.mem_append.mp hid with hid | hid
        · exact Nat.lt_add_right _ (hc.known id (.inl (List.mem_of_mem_take hid)))
        · exact (mem_fresh hid).2
      · exact Nat.lt_add_right _ (hc.known id (.inl (List.mem_of_mem_drop hid)))
    · exact Nat.lt_add_right _ (hc.known id (.inr hid))
  have hnodup : (roll.insert index count).items.Nodup := by
    refine nodup_insert_fresh count hitems fun id hid => ?_
    rw [List.take_append_drop] at hid
    exact hc.known id (.inl hid)
  have hsize : size ≤ (roll.insert index count).next := Nat.le_add_right_of_le hc.size_le
  refine ⟨⟨id, hcurrent, by rw [getElem?_insert count hindex]; exact hget⟩, ?_⟩
  rcases line_insert place count hindex with ⟨hle, hline⟩ | ⟨hlt, as, bs, hline, hline'⟩
  · -- In front: what is ahead stays, and the new items are none of it.
    have hfront : roll.isFront index = true := by rw [h.isFront]; simpa using hle
    have hshift : Body.shift index count place + 1 = place + count + 1 := by
      unfold Body.shift
      rw [if_pos hle]
    rw [hshift]
    refine ⟨hnodup, hknown', hsize, hline ▸ hc.once, hline ▸ hc.ordered, ?_, ?_⟩
    · rw [hline]
      simp only [Roll.insert, hfront, if_true]
      exact hc.covered
    · rw [hline]
      simp only [Roll.insert, hfront, if_true]
      intro id hid
      rcases List.mem_append.mp hid with hid | hid
      · exact ⟨(hc.passed id hid).1, Nat.lt_add_right _ (hc.passed id hid).2⟩
      · obtain ⟨hge, hlt⟩ := mem_fresh hid
        exact ⟨fun hmem => absurd (hknown id hmem) (by omega), hlt⟩
  · -- Behind: the new items come in ahead, and none of them was there at the start.
    have hfront : roll.isFront index = false := by rw [h.isFront]; simpa using hlt
    have hshift : Body.shift index count place + 1 = place + 1 := by
      unfold Body.shift
      rw [if_neg (by omega)]
    rw [hshift]
    rw [hline] at hknown
    have hmem : ∀ id, id ∈ as ++ roll.fresh count ++ bs ↔
        id ∈ as ++ bs ∨ id ∈ roll.fresh count := by
      intro id
      simp only [List.mem_append]
      tauto
    refine ⟨hnodup, hknown', hsize, ?_, ?_, ?_, ?_⟩
    · rw [hline']
      exact nodup_insert_fresh count (hline ▸ hc.once) hknown
    · have hnone : (roll.fresh count).filter (· < size) = [] := by
        refine List.filter_eq_nil_iff.mpr fun id hid => ?_
        have hge := (mem_fresh hid).1
        have hle := hc.size_le
        simp only [decide_eq_true_eq]
        omega
      have hordered := hc.ordered
      rw [hline, List.filter_append] at hordered
      rw [hline', List.filter_append, List.filter_append, hnone, List.append_nil]
      exact hordered
    · rw [hline']
      simp only [Roll.insert, hfront, Bool.false_eq_true, if_false]
      intro id hid
      rw [hmem]
      have hcovered := hc.covered id
      rw [hline] at hcovered
      simp only [List.mem_append] at hid hcovered ⊢
      tauto
    · rw [hline']
      simp only [Roll.insert, hfront, Bool.false_eq_true, if_false]
      intro id hid
      have hpassed := hc.passed id hid
      rw [hline] at hpassed
      refine ⟨fun hin => ?_, Nat.lt_add_right _ hpassed.2⟩
      rcases (hmem id).mp hin with hin | hin
      · exact hpassed.1 hin
      · have hge := (mem_fresh hin).1
        have hlt := hpassed.2
        omega

theorem drop_eq {roll : Roll} {index : Nat} (hindex : index < roll.items.length) :
    roll.drop index = { roll with
      items := roll.items.take index ++ roll.items.drop (index + 1)
      deleted := if roll.current = some roll.items[index] then roll.deleted
        else roll.deleted ++ [roll.items[index]] } := by
  rw [Roll.drop, List.getElem?_eq_getElem hindex]
  simp only [List.eraseIdx_eq_take_drop_succ]

/-- What the loss of an item leaves ahead of the walk: the same items if the lost one was not among
them, else all but that one. -/
theorem line_drop {roll : Roll} {index : Nat} (place : Nat) (hindex : index < roll.items.length) :
    (index ≤ place ∧ (roll.drop index).line place = roll.line (place + 1)) ∨
    (place < index ∧ ∃ as bs, roll.line (place + 1) = as ++ roll.items[index] :: bs ∧
      (roll.drop index).line (place + 1) = as ++ bs) := by
  have htake : (roll.items.take index).length = index := List.length_take_of_le (Nat.le_of_lt hindex)
  rw [drop_eq hindex]
  by_cases hle : index ≤ place
  · refine .inl ⟨hle, ?_⟩
    simp only [line]
    rw [List.drop_append, htake, List.drop_eq_nil_of_le (by omega), List.nil_append, List.drop_drop]
    congr 2
    omega
  · refine .inr ⟨by omega, roll.walked ++ (roll.items.take index).drop (place + 1),
      roll.items.drop (index + 1), ?_, ?_⟩
    · rw [List.append_assoc, ← List.drop_eq_getElem_cons hindex,
        ← List.drop_append_of_le_length (by omega), List.take_append_drop]
      rfl
    · simp only [line, List.append_assoc]
      rw [List.drop_append_of_le_length (by omega)]

theorem getElem?_drop {roll : Roll} {index place : Nat} (hindex : index < roll.items.length)
    (hne : index ≠ place) :
    (roll.drop index).items[Body.unshift index place]? = roll.items[place]? := by
  rw [Roll.drop, List.getElem?_eq_getElem hindex]
  exact Body.getElem?_unshift hne.symm

/-- What stays the same for the items that are left. -/
theorem OnCourse.sublist {roll : Roll} {size ahead : Nat} (h : roll.OnCourse size ahead)
    {index : Nat} (hindex : index < roll.items.length) :
    (roll.drop index).items.Nodup ∧
      ∀ id, id ∈ (roll.drop index).items ∨ id ∈ (roll.drop index).walked →
        id < (roll.drop index).next := by
  have hsub : (roll.drop index).items.Sublist roll.items := by
    rw [drop_eq hindex, ← List.eraseIdx_eq_take_drop_succ]
    exact List.eraseIdx_sublist roll.items index
  refine ⟨h.nodup.sublist hsub, ?_⟩
  rintro id (hid | hid)
  · have hlt := h.known id (.inl (hsub.subset hid))
    rw [drop_eq hindex]
    exact hlt
  · rw [drop_eq hindex] at hid ⊢
    exact h.known id (.inr hid)

/-- A request that drops another item leaves the walk on course. -/
theorem At.drop {roll : Roll} {size place index : Nat} (h : roll.At size place)
    (hindex : index < roll.items.length) (hne : index ≠ place) :
    (roll.drop index).At size (Body.unshift index place) := by
  have hc := h.onCourse
  obtain ⟨id, hcurrent, hget⟩ := h.current
  obtain ⟨hnodup, hknown⟩ := hc.sublist hindex
  have hother : roll.current ≠ some roll.items[index] := by
    rw [hcurrent]
    intro heq
    obtain ⟨hlt, hid⟩ := List.getElem?_eq_some_iff.mp hget
    rw [Option.some.injEq, ← hid] at heq
    exact hne ((hc.nodup.getElem_inj_iff).mp heq.symm)
  have hdeleted : (roll.drop index).deleted = roll.deleted ++ [roll.items[index]] := by
    rw [drop_eq hindex]
    exact if_neg hother
  have hsame : (roll.drop index).current = roll.current ∧ (roll.drop index).next = roll.next ∧
      (roll.drop index).front = roll.front ∧ (roll.drop index).behind = roll.behind := by
    rw [drop_eq hindex]
    exact ⟨rfl, rfl, rfl, rfl⟩
  obtain ⟨hcurrent', hnext, hfront, hbehind⟩ := hsame
  refine ⟨⟨id, by rw [hcurrent', hcurrent], by rw [getElem?_drop hindex hne]; exact hget⟩, ?_⟩
  rcases line_drop place hindex with ⟨hle, hline⟩ | ⟨hlt, as, bs, hline, hline'⟩
  · have hplace : Body.unshift index place + 1 = place := by
      unfold Body.unshift
      split <;> omega
    rw [hplace]
    refine ⟨hnodup, hknown, hnext ▸ hc.size_le, hline ▸ hc.once, hline ▸ hc.ordered, ?_, ?_⟩
    · rw [hline, hbehind, hdeleted]
      intro id hid
      rcases hc.covered id hid with hmem | hmem
      · exact .inl hmem
      · exact .inr (List.mem_append_left _ hmem)
    · rw [hline, hfront, hnext]
      exact hc.passed
  · have hplace : Body.unshift index place + 1 = place + 1 := by
      unfold Body.unshift
      split <;> omega
    rw [hplace]
    have hsub : (as ++ bs).Sublist (as ++ roll.items[index] :: bs) :=
      (List.Sublist.refl as).append (List.sublist_cons_self _ _)
    have honce := hc.once
    have hordered := hc.ordered
    rw [hline] at honce hordered
    refine ⟨hnodup, hknown, hnext ▸ hc.size_le, ?_, ?_, ?_, ?_⟩
    · rw [hline']
      exact honce.sublist hsub
    · rw [hline']
      exact hordered.sublist (hsub.filter _)
    · rw [hline', hbehind, hdeleted]
      intro id hid
      have hcovered := hc.covered id hid
      rw [hline] at hcovered
      simp only [List.mem_append, List.mem_cons] at hcovered ⊢
      tauto
    · rw [hline', hfront, hnext]
      intro id hid
      have hpassed := hc.passed id hid
      rw [hline] at hpassed
      exact ⟨fun hin => hpassed.1 (hsub.subset hin), hpassed.2⟩

/-- When the item that the walk is at goes away, the next one is in its place. -/
theorem At.dropCurrent {roll : Roll} {size place : Nat} (h : roll.At size place) :
    (roll.drop place).OnCourse size place := by
  have hc := h.onCourse
  have hindex := h.place_lt
  obtain ⟨id, hcurrent, hget⟩ := h.current
  obtain ⟨hnodup, hknown⟩ := hc.sublist hindex
  obtain ⟨hlt, hid⟩ := List.getElem?_eq_some_iff.mp hget
  have hdrop : roll.drop place =
      { roll with items := roll.items.take place ++ roll.items.drop (place + 1) } := by
    rw [drop_eq hlt, hid, if_pos hcurrent]
  obtain ⟨-, hline⟩ | ⟨habove, -⟩ := line_drop place hindex
  · refine ⟨hnodup, hknown, ?_, hline ▸ hc.once, hline ▸ hc.ordered, ?_, ?_⟩
    · rw [hdrop]; exact hc.size_le
    · rw [hline, hdrop]; exact hc.covered
    · rw [hline, hdrop]; exact hc.passed
  · omega

end Roll

end CallExpander
