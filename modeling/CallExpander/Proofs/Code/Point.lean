import CallExpander.Code.Point

/-!
# Places further on

What stands at a place behind some more characters, and the text in between.
-/

namespace CallExpander

open Code

theorem Text.byteLength_append (cs ds : List Char) :
    Text.byteLength (cs ++ ds) = Text.byteLength cs + Text.byteLength ds := by
  induction cs with
  | nil => simp [Text.byteLength]
  | cons c cs ih => simpa [Text.byteLength, Nat.add_assoc] using ih

namespace Code.Point

variable {p : Point} {chars rest : List Char}

@[simp]
theorem rest_move (p : Point) (n : Nat) : (p.move n).rest = p.rest.drop n := rfl

@[simp]
theorem move_zero (p : Point) : p.move 0 = p := by
  simp [move, Text.byteLength]

theorem rest_move_of_append (h : p.rest = chars ++ rest) : (p.move chars.length).rest = rest := by
  simp [h]

theorem rest_move_of_cons {c : Char} (h : p.rest = c :: rest) : (p.move 1).rest = rest := by
  simp [h]

@[simp]
theorem move_move (p : Point) (m n : Nat) : (p.move m).move n = p.move (m + n) := by
  simp only [move, List.drop_drop, List.take_add, Text.byteLength_append, Nat.add_assoc]

theorem textUpTo_move (p : Point) (n : Nat) :
    p.textUpTo (p.move n) = String.ofList (p.rest.take n) := by
  have hlength : p.rest.length - (p.rest.drop n).length = min n p.rest.length := by
    rw [List.length_drop]
    omega
  rw [textUpTo, rest_move, hlength, ← List.take_eq_take_min]

theorem textUpTo_of_append (h : p.rest = chars ++ rest) :
    p.textUpTo (p.move chars.length) = String.ofList chars := by
  rw [textUpTo_move, h, List.take_left]

end Code.Point

end CallExpander
