import CallExpander.Proofs.Expansion.Roll

/-!
# A pass neither skips nor repeats an item

The walk of a pass knows nothing but an index. While it is at an item, that item is the bottom one
of the pending places, and edits move this place with the item it stands for; so the index that
expanding an item gives is the one behind it, wherever it is by then.
-/

namespace CallExpander

def Event.walkedIndex? : Event → Option Nat
  | .walked index => some index
  | _ => none

theorem filterMap_walkedIndex?_of_none {event : Event} (h : event.walkedIndex? = none)
    (events : List Event) : (events ++ [event]).filterMap Event.walkedIndex? =
      events.filterMap Event.walkedIndex? := by
  simp [List.filterMap_append, h]

namespace Roll

/-- A roll has an identity for every item, and one for every item that was taken up. -/
structure Tallies (roll : Roll) (events : List Event) (body : Body) : Prop where
  items : roll.items.length = body.size
  walked : roll.walked.length = (events.filterMap Event.walkedIndex?).length

/-- The walk is at the item whose place is the bottom one of the pending places. -/
structure Inside (size : Nat) (past : List Event) (run : Run) : Prop where
  sound : run.body.Sound
  rolls : ∃ events place, run.history = past ++ events ∧
    run.body.pending.getLast? = some place ∧ (after size events).Tallies events run.body ∧
    (after size events).At size place

variable {size : Nat} {past : List Event} {run run' : Run}

/-- An event that is about no item. -/
theorem Inside.silent {event : Event} (h : Inside size past run)
    (hstep : ∀ roll : Roll, roll.step event = roll) (hwalked : event.walkedIndex? = none)
    (hhistory : run'.history = run.history ++ [event]) (hbody : run'.body = run.body) :
    Inside size past run' := by
  obtain ⟨events, place, hpast, hplace, htally, hat⟩ := h.rolls
  have hafter : after size (events ++ [event]) = after size events := by
    rw [after_append]
    exact hstep _
  refine ⟨hbody ▸ h.sound, events ++ [event], place, ?_, hbody ▸ hplace, ?_, hafter ▸ hat⟩
  · rw [hhistory, hpast, List.append_assoc]
  · rw [hafter, hbody]
    refine ⟨htally.items, ?_⟩
    rw [filterMap_walkedIndex?_of_none hwalked]
    exact htally.walked

theorem Inside.edit (h : Inside size past run) (edit : Edit) : Inside size past (run.edit edit) := by
  obtain ⟨events, place, hpast, hplace, htally, hat⟩ := h.rolls
  obtain ⟨hle, hsize, hpending⟩ := run.body.edit_places edit
  have hindex : (edit.place run.body).1 ≤ (after size events).items.length := by
    rw [htally.items]
    exact hle
  have hafter : after size (events ++ [.edited run.body edit]) =
      (after size events).insert (edit.place run.body).1 (edit.place run.body).2 := by
    rw [after_append]
    rfl
  refine ⟨h.sound.edit edit, events ++ [.edited run.body edit],
    Body.shift (edit.place run.body).1 (edit.place run.body).2 place, ?_, ?_, ?_, ?_⟩
  · change run.history ++ _ = _
    rw [hpast, List.append_assoc]
  · change (run.body.edit edit).2.pending.getLast? = _
    rw [hpending, List.getLast?_map, hplace]
    rfl
  · rw [hafter]
    refine ⟨?_, ?_⟩
    · change _ = (run.body.edit edit).2.size
      have hitems := htally.items
      rw [hsize]
      simp only [Roll.insert, List.length_append, List.length_take, List.length_drop, length_fresh]
      omega
    · rw [filterMap_walkedIndex?_of_none rfl]
      exact htally.walked
  · rw [hafter]
    exact hat.insert _ hindex

/-- Another item than the one that the walk is at goes away. -/
theorem Inside.drop {index : Nat} {body : Body} (h : Inside size past run)
    (hfree : index ∉ run.body.pending) (hremove : run.body.remove? index = some body)
    (hhistory : run'.history = run.history ++ [.dropped index]) (hbody : run'.body = body) :
    Inside size past run' := by
  obtain ⟨events, place, hpast, hplace, htally, hat⟩ := h.rolls
  obtain ⟨hlt, -, hsize, hpending⟩ := Body.remove?_places hremove
  have hindex : index < (after size events).items.length := by
    rw [htally.items]
    exact hlt
  have hne : index ≠ place := fun heq => hfree (heq ▸ List.mem_of_getLast? hplace)
  have hafter : after size (events ++ [.dropped index]) = (after size events).drop index := by
    rw [after_append]
    rfl
  refine ⟨?_, events ++ [.dropped index], Body.unshift index place, ?_, ?_, ?_, ?_⟩
  · rw [hbody]
    exact h.sound.remove hfree hremove
  · rw [hhistory, hpast, List.append_assoc]
  · rw [hbody, hpending, List.getLast?_map, hplace]
    rfl
  · rw [hafter, hbody, drop_eq hindex]
    refine ⟨?_, ?_⟩
    · have hitems := htally.items
      simp only [List.length_append, List.length_take, List.length_drop]
      omega
    · rw [filterMap_walkedIndex?_of_none rfl]
      exact htally.walked
  · rw [hafter]
    exact hat.drop hindex hne

/-- A change of items that moves none of them. -/
theorem Inside.congr (h : Inside size past run) (hsound : run'.body.Sound)
    (hhistory : run'.history = run.history) (hsize : run'.body.size = run.body.size)
    (hplace : run'.body.pending.getLast? = run.body.pending.getLast?) : Inside size past run' := by
  obtain ⟨events, place, hpast, hlast, htally, hat⟩ := h.rolls
  refine ⟨hsound, events, place, hhistory.trans hpast, hplace.trans hlast, ?_, hat⟩
  exact ⟨htally.items.trans hsize.symm, htally.walked⟩

end Roll

theorem getLast?_cons_of_some {places : List Nat} {place : Nat} (h : places.getLast? = some place)
    {index : Nat} : (index :: places).getLast? = places.getLast? := by
  rw [List.getLast?_cons, h]
  rfl

/-- Taking the latest of several places away leaves the bottom one. -/
theorem getLast?_of_length_cons {first places : List Nat} {index place : Nat}
    (h : first.getLast? = some place) (hlength : first.length + 1 = (index :: places).length) :
    (index :: places).getLast? = places.getLast? := by
  cases places with
  | nil =>
    have hnil : first = [] := List.length_eq_zero_iff.mp (Nat.succ.inj hlength)
    rw [hnil] at h
    cases h
  | cons second rest => rfl

/-- While an item is expanded, the walk stays at it and on course. -/
def rolling (job : Job) (size : Nat) (past : List Event) : Discipline job where
  inv run := Roll.Inside size past run
  rel := Run.Level
  fails _ _ _ := True
  tree _ _ := True
  allows _ := True
  handlers := @Job.makes_anything job
  rel_refl := Run.Level.refl
  rel_trans := @Run.Level.trans
  fails_refl _ _ := trivial
  fails_trans _ _ := trivial
  tree_mono _ _ := trivial
  tree_parts _ _ _ := trivial
  tree_mk _ _ := trivial
  tree_sweep _ := trivial
  applying hi _ _ _ _ := ⟨hi.silent (fun _ => rfl) rfl rfl rfl, rfl⟩
  withContext context hi := ⟨hi.silent (fun _ => rfl) rfl rfl rfl, rfl, trivial⟩
  edit {run} edit _ hi := ⟨hi.edit edit, .edit run edit⟩
  retiring hi hfree _ _ h := by
    have hlevel := Run.Level.retiring h
    obtain ⟨rest, -, rfl⟩ | ⟨body, -, hremove, rfl⟩ := Run.retiring?_cases h
    · exact ⟨hi.congr (hi.sound.set _ rest) rfl (Body.size_set _ _ rest) rfl, hlevel⟩
    · exact ⟨hi.drop hfree hremove rfl rfl, hlevel⟩
  detach hi hfree hdetach := by
    obtain ⟨-, -, hpending⟩ := Body.detach?_places hdetach
    obtain ⟨-, hsize⟩ := Body.size_detach? hdetach
    obtain ⟨_, place, -, hplace, -, -⟩ := hi.rolls
    refine ⟨hi.congr (hi.sound.detach hfree hdetach) rfl hsize ?_, trivial⟩
    simp only [hpending]
    exact getLast?_cons_of_some hplace
  reattach hi _ hdetach hr hmid _ _ hreattach := by
    obtain ⟨-, -, hpending⟩ := Body.detach?_places hdetach
    obtain ⟨hpending', hitems, -⟩ := Body.reattach?_places hreattach
    obtain ⟨_, place, -, hplace, -, -⟩ := hi.rolls
    have hlevel := hr.reattach hdetach hreattach
    simp only [Run.Level, hpending, hpending'] at hr
    have hlast := getLast?_of_length_cons hplace hr
    rw [← hpending'] at hlast
    refine ⟨hmid.congr (hmid.sound.reattach hreattach) rfl ?_ hlast.symm, hlevel⟩
    simp [Body.size, hitems]
  discard {_ _ _ _ mid _ _} hi _ hdetach hr hmid _ hdiscard := by
    obtain ⟨-, -, hpending⟩ := Body.detach?_places hdetach
    obtain ⟨rest, hrest, hremove⟩ := Body.discard?_places hdiscard
    obtain ⟨_, place, -, hplace, -, -⟩ := hi.rolls
    have hlevel := hr.discard hdetach hdiscard
    simp only [Run.Level, hpending, hrest] at hr
    have hlast := getLast?_of_length_cons hplace hr
    obtain ⟨hsound, hfree⟩ := hmid.sound.tail hrest
    -- The latest place goes first, and then the item that stands there, which is not the walk's.
    have hbelow : Roll.Inside size past { mid with body := { mid.body with pending := rest } } :=
      hmid.congr hsound rfl rfl (by rw [hrest]; exact hlast.symm)
    exact ⟨hbelow.drop hfree hremove rfl rfl, hlevel⟩
  restore _ _ _ _ _ := trivial
  lost _ _ _ _ _ := trivial

namespace Roll

variable {job : Job} {size : Nat} {past : List Event} {run run' : Run}

/-- The walk is between two items, with those from an index on ahead of it. -/
structure Between (size : Nat) (past : List Event) (run : Run) (index : Nat) : Prop where
  idle : run.Idle
  rolls : ∃ events, run.history = past ++ events ∧ (after size events).Tallies events run.body ∧
    (after size events).OnCourse size index

/-- Taking up the item at the index ahead puts the walk inside it. -/
theorem Between.enter {index : Nat} {item : Node} {body : Body} (h : Between size past run index)
    (hdetach : run.body.detach? index = some (item, body)) :
    Inside size past { run.record (.walked index) with body } := by
  obtain ⟨events, hpast, htally, hcourse⟩ := h.rolls
  obtain ⟨-, -, hpending⟩ := Body.detach?_places hdetach
  obtain ⟨hlt, hsize⟩ := Body.size_detach? hdetach
  have hfree := h.idle.free index
  obtain ⟨hcourse', hitems, hcurrent⟩ := hcourse.walk (htally.items ▸ hlt)
  have hafter : after size (events ++ [.walked index]) = (after size events).walk index := by
    rw [after_append]
    rfl
  refine ⟨h.idle.sound.detach hfree hdetach, events ++ [.walked index], index, ?_, ?_, ?_, ?_⟩
  · change run.history ++ _ = _
    rw [hpast, List.append_assoc]
  · change body.pending.getLast? = some index
    rw [hpending, h.idle]
    rfl
  · rw [hafter]
    refine ⟨?_, ?_⟩
    · rw [hitems, htally.items]
      exact hsize.symm
    · have hwalked : ((after size events).walk index).walked.length =
          (after size events).walked.length + 1 := by
        rw [Roll.walk, List.getElem?_eq_getElem (htally.items ▸ hlt)]
        simp
      rw [hwalked, htally.walked]
      simp [List.filterMap_append, Event.walkedIndex?]
  · rw [hafter]
    exact ⟨hcurrent, hcourse'⟩

/-- Expanding an item brings the walk behind it. -/
theorem Between.expandItem {budget index next : Nat} (h : Between size past run index)
    (hitem : job.expandItem (job.walker budget) index (run.record (.walked index)) = .ok next run') :
    Between size past run' next := by
  have hstart : (run.record (.walked index)).Idle := h.idle
  have hidle : run'.Idle := Job.idle_expandItem hstart hitem
  obtain ⟨item, body, item', mid, hdetach, hvisit, hend⟩ := Job.ok_expandItem_of_idle hstart hitem
  have hinside := h.enter hdetach
  obtain ⟨hmid, -, -⟩ := (Discipline.keeps_visit ((rolling job size past).serves_walker budget)
    item).ok hinside trivial hvisit
  obtain ⟨events, place, hpast, hplace, htally, hat⟩ := hmid.rolls
  refine ⟨hidle, ?_⟩
  obtain ⟨body', hpending, hremove, rfl⟩ | ⟨place', body', hpending, hreattach, rfl, rfl⟩ := hend
  · obtain ⟨-, -, hsize, -⟩ := Body.remove?_places hremove
    rw [hpending] at hplace
    obtain rfl : next = place := Option.some.inj hplace
    have hafter : after size (events ++ [.dropped next]) = (after size events).drop next := by
      rw [after_append]
      rfl
    refine ⟨events ++ [.dropped next], ?_, ?_, ?_⟩
    · change mid.history ++ _ = _
      rw [hpast, List.append_assoc]
    · rw [hafter, drop_eq hat.place_lt]
      refine ⟨?_, ?_⟩
      · have hitems := htally.items
        change body'.size + 1 = mid.body.size at hsize
        have hplace := hat.place_lt
        simp only [List.length_append, List.length_take, List.length_drop, Run.dropping]
        omega
      · rw [filterMap_walkedIndex?_of_none rfl]
        exact htally.walked
    · rw [hafter]
      exact hat.dropCurrent
  · obtain ⟨-, hitems, -⟩ := Body.reattach?_places hreattach
    rw [hpending] at hplace
    obtain rfl : place' = place := Option.some.inj hplace
    refine ⟨events, hpast, ⟨?_, htally.walked⟩, hat.onCourse⟩
    rw [htally.items]
    simp [Body.size, hitems]

/-- A walk begins at the first item, on course. -/
theorem between_beginPass (h : run.Idle) :
    Between run.body.size run.history (Job.beginPass run) 0 := by
  refine ⟨h, [], (List.append_nil _).symm, ⟨?_, rfl⟩, onCourse_start _⟩
  change (List.range run.body.size).length = run.body.size
  exact List.length_range

end Roll

namespace Job

/-- The states in which the passes of an expansion start. -/
inductive Reaches (job : Job) (budget : Nat) (items : List Node) : Run → Prop
  | start : Reaches job budget items (job.start items)
  | pass {run run' : Run} {a : Unit} (h : Reaches job budget items run)
      (hpass : job.runPass budget run = .ok a run') : Reaches job budget items (job.refresh run')

variable {job : Job} {budget : Nat} {items : List Node} {run run' : Run}

theorem Reaches.fresh (h : job.Reaches budget items run) : job.Fresh run := by
  induction h with
  | start => exact job.fresh_start items
  | pass _ hpass ih => exact fresh_refresh ih hpass

/-- A pass that ends well took up no item twice. It took up every item that was there at its start,
in their order, and every item that was inserted behind the one it was at, except for items that a
request deleted; it took up none that was inserted in front. -/
theorem runPass_takes_up_each_once {a : Unit} (hreach : job.Reaches budget items run)
    (hpass : job.runPass budget run = .ok a run') :
    ∃ events, run'.history = run.history ++ events ∧
      let roll := Roll.after run.body.size events
      roll.items.length = run'.body.size ∧
      roll.walked.length = (events.filterMap Event.walkedIndex?).length ∧
      roll.walked.Nodup ∧
      (roll.walked.filter (· < run.body.size)).Pairwise (· < ·) ∧
      (∀ id < run.body.size, id ∉ roll.deleted → id ∈ roll.walked) ∧
      (∀ id ∈ roll.behind, id ∉ roll.deleted → id ∈ roll.walked) ∧
      ∀ id ∈ roll.front, id ∉ roll.walked := by
  have hstart := Roll.between_beginPass hreach.fresh.idle
  obtain ⟨last, hlast, hend⟩ := ok_expandFrom
    (P := Roll.Between run.body.size run.history) (fun h _ hitem => h.expandItem hitem) hstart hpass
  obtain ⟨events, hhistory, htally, hcourse⟩ := hlast.rolls
  refine ⟨events, hhistory, htally.items, htally.walked, ?_⟩
  -- Nothing is ahead of the walk any more.
  have hline : (Roll.after run.body.size events).line last =
      (Roll.after run.body.size events).walked := by
    rw [Roll.line, List.drop_eq_nil_of_le (htally.items ▸ hend), List.append_nil]
  have honce := hcourse.once
  have hordered := hcourse.ordered
  have hcovered := hcourse.covered
  have hpassed := hcourse.passed
  rw [hline] at honce hordered hcovered hpassed
  refine ⟨honce, hordered, fun id hid hdeleted => ?_, fun id hid hdeleted => ?_, fun id hid => ?_⟩
  · exact (hcovered id (.inl hid)).resolve_right hdeleted
  · exact (hcovered id (.inr hid)).resolve_right hdeleted
  · exact (hpassed id hid).1

/-- A module with a macro that removes its call and puts a statement before all others and one
behind them. -/
def bracketing : Job where
  registry := ⟨[("m", ⟨.macros [⟨"wrap", .helper fun _ _ _ workspace =>
    .ok () { workspace.toContext.remove with
      edits := [.prepend [Node.emptyStatement], .append [Node.emptyStatement]] },
    "", compatVersion⟩], []⟩)]⟩
  source := Source.ofPath "a.js" ""

/-- A program that calls the macro and goes on. -/
def bracketed : List Node :=
  [(ImportSpec.named "m" "wrap").toItem,
    Node.build .exprStmt [Node.callOf (Node.identifier "wrap") []], Node.emptyStatement]

theorem bracketing_takes_up_each_once : ∃ run',
    bracketing.runPass 4 (bracketing.start bracketed) = .ok () run' ∧
    ∃ events, run'.history = (bracketing.start bracketed).history ++ events ∧
      let roll := Roll.after 2 events
      roll.items.length = run'.body.size ∧
      roll.walked.length = (events.filterMap Event.walkedIndex?).length ∧
      roll.walked.Nodup ∧
      (roll.walked.filter (· < 2)).Pairwise (· < ·) ∧
      (∀ id < 2, id ∉ roll.deleted → id ∈ roll.walked) ∧
      (∀ id ∈ roll.behind, id ∉ roll.deleted → id ∈ roll.walked) ∧
      ∀ id ∈ roll.front, id ∉ roll.walked := by
  cases hpass : bracketing.runPass 4 (bracketing.start bracketed) with
  | ok a run' => exact ⟨run', rfl, runPass_takes_up_each_once .start hpass⟩
  | error halt run' =>
    have hends : (match bracketing.runPass 4 (bracketing.start bracketed) with
        | .ok _ _ => true
        | .error _ _ => false) = true := by decide +kernel
    rw [hpass] at hends
    cases hends

end Job

end CallExpander
