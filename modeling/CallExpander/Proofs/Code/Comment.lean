import CallExpander.Code.Gap
import CallExpander.Proofs.Code.Point
import CallExpander.Proofs.Text.Lines

/-!
# Where a block comment ends

Reading a block comment goes on to the first `*/`, wherever that comes from.
-/

namespace CallExpander.Code

/-- Whether the sign stands in a text that ends a block comment. -/
def EndsComment (chars : List Char) : Prop := ['*', '/'] <:+: chars

instance (chars : List Char) : Decidable (EndsComment chars) :=
  inferInstanceAs (Decidable (['*', '/'] <:+: chars))

/-- The sign comes first, or it stands in what follows. -/
theorem endsComment_cons_iff {c : Char} {chars : List Char} :
    EndsComment (c :: chars) ↔ (c = '*' ∧ chars.head? = some '/') ∨ EndsComment chars := by
  rw [EndsComment, List.infix_cons_iff]
  refine or_congr_left ?_
  cases chars <;> simp [eq_comm]

/-- The sign stands on one side of a character that is no part of it. -/
theorem endsComment_append_cons_iff {x : Char} {before behind : List Char} (hx : x ∉ ['*', '/']) :
    EndsComment (before ++ x :: behind) ↔ EndsComment before ∨ EndsComment behind :=
  Text.infix_append_cons_iff (by simp) hx

theorem endsComment_append_left_iff {before behind : List Char} (h : ∀ x ∈ before, x ∉ ['*', '/']) :
    EndsComment (before ++ behind) ↔ EndsComment behind :=
  Text.infix_append_left_iff (by simp) h

theorem endsComment_append_right_iff {before behind : List Char} (h : ∀ x ∈ behind, x ∉ ['*', '/']) :
    EndsComment (before ++ behind) ↔ EndsComment before :=
  Text.infix_append_right_iff (by simp) h

/-- A text with the sign in it has a first one. -/
theorem EndsComment.first {chars : List Char} (h : EndsComment chars) :
    ∃ inside outside, chars = inside ++ '*' :: '/' :: outside ∧ ¬ EndsComment inside := by
  induction chars with
  | nil => exact absurd h (by decide)
  | cons c chars ih =>
    by_cases hfirst : c = '*' ∧ chars.head? = some '/'
    · obtain ⟨rfl, hslash⟩ := hfirst
      obtain ⟨outside, rfl⟩ := List.head?_eq_some_iff.mp hslash
      exact ⟨[], outside, rfl, by decide⟩
    · obtain ⟨inside, outside, rfl, hinside⟩ := ih ((endsComment_cons_iff.mp h).resolve_left hfirst)
      refine ⟨c :: inside, outside, rfl, fun hmore => ?_⟩
      rcases endsComment_cons_iff.mp hmore with ⟨rfl, hslash⟩ | hmore
      · obtain ⟨tail, rfl⟩ := List.head?_eq_some_iff.mp hslash
        exact hfirst ⟨rfl, rfl⟩
      · exact hinside hmore

variable {start p : Point} {inside outside : List Char} {fuel : Nat}

theorem startsWith_end_eq_false {c : Char} (h : ¬ EndsComment (c :: inside))
    (hp : p.rest = c :: (inside ++ '*' :: '/' :: outside)) : p.startsWith "*/" = false := by
  rw [Point.startsWith, hp, Bool.eq_false_iff, ne_eq, List.isPrefixOf_iff_prefix]
  rintro ⟨tail, htail⟩
  refine h (endsComment_cons_iff.mpr (.inl ?_))
  cases inside with
  | nil => simp at htail
  | cons d inside =>
    obtain ⟨rfl, rfl, -⟩ : '*' = c ∧ '/' = d ∧ tail = inside ++ '*' :: '/' :: outside := by
      simpa using htail
    exact ⟨rfl, rfl⟩

/-- A comment ends at the first sign for it. -/
theorem blockComment_of_first (h : ¬ EndsComment inside)
    (hp : p.rest = inside ++ '*' :: '/' :: outside) (hfuel : inside.length < fuel) :
    blockComment start fuel p =
      some (start.textUpTo (p.move inside.length), p.move (inside.length + 2)) := by
  obtain ⟨fuel, rfl⟩ := Nat.exists_eq_succ_of_ne_zero (Nat.ne_zero_of_lt hfuel)
  induction inside generalizing p fuel with
  | nil => simp [blockComment, Point.startsWith, hp]
  | cons c inside ih =>
    have hlater : ¬ EndsComment inside := fun hlater => h (endsComment_cons_iff.mpr (.inr hlater))
    obtain ⟨fuel, rfl⟩ := Nat.exists_eq_succ_of_ne_zero (Nat.ne_zero_of_lt (Nat.lt_of_succ_lt_succ hfuel))
    have hmore : p.rest.isEmpty = false := by simp [hp]
    rw [blockComment, if_neg (by simp [startsWith_end_eq_false h hp]), if_neg (by simp [hmore]),
      ih hlater (Point.rest_move_of_cons hp) fuel (Nat.lt_of_succ_lt_succ hfuel), Point.move_move,
      Point.move_move, List.length_cons, Nat.add_comm 1, Nat.add_comm 1, Nat.add_right_comm]

end CallExpander.Code
