import CallExpander.Number.Binary64

/-!
The shortest decimal that reads back as a given number. For one, two, up to seventeen digits the
two neighbours of the value on that decimal grid are tested against the interval of reals that
round to it; the first grid with a hit wins, and of two hits the nearer one.
-/

namespace CallExpander.Number

/-- A positive decimal `digits * 10 ^ exponent`. -/
structure Decimal where
  digits : Nat
  exponent : Int
  deriving Repr, DecidableEq, Inhabited

def digitCount (n : Nat) : Nat :=
  (Nat.toDigits 10 n).length

/-- The decimal exponent of the leading digit of `num / den`. -/
def leadingExponent (num den : Nat) : Int :=
  if den ≤ num then (digitCount (num / den) : Int) - 1
  else
    let j := digitCount (den / num) - 1
    if den ≤ num * Nat.pow 10 j then -(j : Int) else -((j : Int) + 1)

/-- The ends of the interval that rounds to `m * 2 ^ e`, in quarters of `2 ^ e`. -/
def roundingInterval (m : Nat) (e : Int) : Nat × Nat :=
  let below := if m = Nat.pow 2 52 && Binary64.minExponent < e then 1 else 2
  (4 * m - below, 4 * m + 2)

/-- `digits * 10 ^ p` against `quarters * 2 ^ e / 4`, both scaled to naturals. -/
def scaledPair (digits : Nat) (p : Int) (quarters : Nat) (e : Int) : Nat × Nat :=
  let left := digits * Nat.pow 10 p.toNat * 4 * Nat.pow 2 (-e).toNat
  let right := quarters * Nat.pow 2 e.toNat * Nat.pow 10 (-p).toNat
  (left, right)

/-- Whether the decimal lies in the interval; the ends belong to it when the mantissa is even. -/
def insideInterval (m : Nat) (e : Int) (digits : Nat) (p : Int) : Bool :=
  let (low, high) := roundingInterval m e
  let (a, b) := scaledPair digits p low e
  let (c, d) := scaledPair digits p high e
  if m % 2 = 0 then b ≤ a && c ≤ d else b < a && c < d

/-- The best decimal on the grid of `k` digits, if one of the two neighbours reads back. -/
def onGrid (m : Nat) (e : Int) (k : Nat) : Option Decimal :=
  let (num, den) := Binary64.ratio m e
  let p := leadingExponent num den - (k : Int) + 1
  let (n, d) := (num * Nat.pow 10 (-p).toNat, den * Nat.pow 10 p.toNat)
  let low := n / d
  let nearer := if 2 * (n % d) < d || (2 * (n % d) = d && low % 2 = 0) then low else low + 1
  let farther := if nearer = low then low + 1 else low
  if insideInterval m e nearer p then some ⟨nearer, p⟩
  else if insideInterval m e farther p then some ⟨farther, p⟩
  else none

/-- Drops trailing zeros; the fuel bounds how many. -/
def Decimal.normalize : Nat → Decimal → Decimal
  | 0, d => d
  | fuel + 1, d =>
    if d.digits % 10 = 0 && d.digits ≠ 0 then
      Decimal.normalize fuel ⟨d.digits / 10, d.exponent + 1⟩
    else d

/-- The shortest decimal that rounds to `m * 2 ^ e`, for a positive mantissa. -/
def shortest (m : Nat) (e : Int) : Decimal :=
  let found := (List.range 17).findSome? fun k => onGrid m e (k + 1)
  Decimal.normalize 400 (found.getD ⟨m, 0⟩)

end CallExpander.Number
