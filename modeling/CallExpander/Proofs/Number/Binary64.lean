import CallExpander.Number.Binary64
import Mathlib

/-!
# Integers that are doubles

A double has room for the bits of every integer below 2^53: they are moved to the front of the mantissa,
and nothing is rounded. Of 2^53 itself, which has one bit more, the last bit is zero.
-/

namespace CallExpander.Number.Binary64

theorem shifted_neg (a k : Nat) : shifted a 1 (-k) = (a * 2 ^ k, 1) := by
  unfold shifted
  split
  · next h =>
    obtain rfl : k = 0 := by omega
    simp
  · simp

theorem roundDiv_one (m : Nat) : roundDiv m 1 = m := by
  simp [roundDiv, Nat.mod_one]

theorem two_pow_le_scaled {a : Nat} (hpos : a ≠ 0) (hlog : a.log2 ≤ 52) :
    2 ^ 52 ≤ a * 2 ^ (52 - a.log2) :=
  calc 2 ^ 52 = 2 ^ a.log2 * 2 ^ (52 - a.log2) := by rw [← Nat.pow_add, Nat.add_sub_cancel' hlog]
    _ ≤ a * 2 ^ (52 - a.log2) := Nat.mul_le_mul_right _ (Nat.log2_self_le hpos)

theorem scaled_lt_two_pow {a : Nat} (hlog : a.log2 ≤ 52) : a * 2 ^ (52 - a.log2) < 2 ^ 53 :=
  calc a * 2 ^ (52 - a.log2) < 2 ^ (a.log2 + 1) * 2 ^ (52 - a.log2) :=
        Nat.mul_lt_mul_of_pos_right Nat.lt_log2_self (Nat.two_pow_pos _)
    _ = 2 ^ 53 := by rw [← Nat.pow_add]; congr 1; omega

theorem exponentFor_one {a : Nat} (hpos : a ≠ 0) (hlog : a.log2 ≤ 52) :
    exponentFor a 1 = -(52 - a.log2 : Nat) := by
  have hguess : (a.log2 : Int) - (Nat.log2 1 : Int) - 52 = -(52 - a.log2 : Nat) := by
    have hone : Nat.log2 1 = 0 := by decide
    omega
  have hfull : ¬ a * 2 ^ (52 - a.log2) < 1 * Nat.pow 2 52 := by
    rw [Nat.pow_eq, Nat.one_mul]
    exact Nat.not_lt.mpr (two_pow_le_scaled hpos hlog)
  unfold exponentFor
  rw [hguess]
  dsimp only
  rw [shifted_neg]
  dsimp only
  rw [if_neg hfull, minExponent]
  omega

/-- What fits into a mantissa at its exponent is not rounded. -/
theorem ofRatio_of_fits {neg : Bool} {num m : Nat} {e : Int} (hpos : num ≠ 0)
    (hexponent : exponentFor num 1 = e) (hshifted : shifted num 1 e = (m, 1)) (hm : m < 2 ^ 53)
    (he : e ≤ maxExponent) : ofRatio neg num 1 = .finite neg m e := by
  have hnonzero : ¬ (decide (num = 0) || decide (1 = 0)) = true := by simp [hpos]
  have hne : ¬ m = Nat.pow 2 53 := by
    rw [Nat.pow_eq]
    exact hm.ne
  unfold ofRatio
  rw [if_neg hnonzero, hexponent]
  dsimp only
  rw [hshifted]
  dsimp only
  rw [roundDiv_one, if_neg hne]
  dsimp only
  rw [if_neg (Int.not_lt.mpr he)]

theorem ofRatio_of_lt (neg : Bool) {a : Nat} (hpos : a ≠ 0) (hlt : a < 2 ^ 53) :
    ofRatio neg a 1 = .finite neg (a * 2 ^ (52 - a.log2)) (-(52 - a.log2 : Nat)) := by
  have hlog : a.log2 ≤ 52 := Nat.lt_succ_iff.mp ((Nat.log2_lt hpos).mpr hlt)
  have hmax : -((52 - a.log2 : Nat) : Int) ≤ maxExponent := by
    rw [maxExponent]
    omega
  exact ofRatio_of_fits hpos (exponentFor_one hpos hlog) (shifted_neg a _) (scaled_lt_two_pow hlog) hmax

theorem toInt?_zero (neg : Bool) (e : Int) : (finite neg 0 e).toInt? = some 0 := by
  by_cases h : 0 ≤ e <;> simp [toInt?, ratio, h]

theorem toInt?_scaled (neg : Bool) (a k : Nat) :
    (finite neg (a * 2 ^ k) (-k)).toInt? = some (if neg then -a else a : Int) := by
  have hratio : ratio (a * 2 ^ k) (-k) = (a * 2 ^ k, 2 ^ k) := by
    unfold ratio
    split
    · next h =>
      obtain rfl : k = 0 := by omega
      simp
    · simp
  simp [toInt?, hratio, Nat.mul_div_cancel _ (Nat.two_pow_pos k)]

/-- The double nearest to an integer up to 2^53 is that integer. -/
theorem toInt?_ofInt {n : Int} (h : n.natAbs ≤ 2 ^ 53) : (ofInt n).toInt? = some n := by
  rcases Nat.lt_or_eq_of_le h with hlt | heq
  · by_cases hzero : n.natAbs = 0
    · obtain rfl := Int.natAbs_eq_zero.mp hzero
      exact toInt?_zero false minExponent
    · rw [ofInt, ofRatio_of_lt _ hzero hlt, toInt?_scaled]
      congr 1
      simp only [decide_eq_true_eq]
      omega
  · rcases Int.natAbs_eq n with hn | hn <;> rw [hn, heq] <;> decide

-- The integer behind them is none: it goes to the even neighbour.
example : (ofInt (2 ^ 53 + 1)).toInt? = some (2 ^ 53) := by decide

end CallExpander.Number.Binary64
