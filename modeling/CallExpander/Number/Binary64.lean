/-!
Double-precision numbers, exactly. A finite number is a sign, a mantissa below 2^53 and a power of
two; every operation computes the exact rational result first and rounds it once, to the nearest
representable number and on a tie to the even mantissa.
-/

namespace CallExpander.Number

/-- A double-precision number. `finite neg m e` stands for `m * 2 ^ e`, negated if `neg`. -/
inductive Binary64 where
  | nan
  | infinite (neg : Bool)
  | finite (neg : Bool) (mantissa : Nat) (exponent : Int)
  deriving Repr, DecidableEq, Inhabited

namespace Binary64

def minExponent : Int := -1074

def maxExponent : Int := 971

def zero (neg : Bool) : Binary64 := .finite neg 0 minExponent

/-- The quotient rounded to the nearest integer, a tie to the even one. -/
def roundDiv (num den : Nat) : Nat :=
  let q := num / den
  let r := num % den
  if 2 * r < den then q
  else if den < 2 * r then q + 1
  else if q % 2 = 0 then q else q + 1

/-- Numerator and denominator of `num / den` divided by `2 ^ e`. -/
def shifted (num den : Nat) (e : Int) : Nat × Nat :=
  if 0 ≤ e then (num, den * Nat.pow 2 e.toNat) else (num * Nat.pow 2 (-e).toNat, den)

/-- The exponent at which `num / den` has a 53-bit mantissa, or the least one. -/
def exponentFor (num den : Nat) : Int :=
  let guess : Int := (num.log2 : Int) - (den.log2 : Int) - 52
  let (n, d) := shifted num den guess
  let e := if n < d * Nat.pow 2 52 then guess - 1 else guess
  max e minExponent

/-- The nearest number to the quotient of two naturals. -/
def ofRatio (neg : Bool) (num den : Nat) : Binary64 :=
  if num = 0 || den = 0 then zero neg
  else
    let e := exponentFor num den
    let (n, d) := shifted num den e
    let m := roundDiv n d
    let (m, e) := if m = Nat.pow 2 53 then (Nat.pow 2 52, e + 1) else (m, e)
    if maxExponent < e then .infinite neg else .finite neg m e

def ofInt (n : Int) : Binary64 :=
  ofRatio (n < 0) n.natAbs 1

/-- The nearest number to `digits * 10 ^ exponent`. Exponents far outside the range are decided
without computing the power. -/
def ofDecimal (neg : Bool) (digits : Nat) (exponent : Int) : Binary64 :=
  if digits = 0 then zero neg
  else
    let size : Int := (Nat.toDigits 10 digits).length
    if 400 < size + exponent then .infinite neg
    else if size + exponent < -400 then zero neg
    else if 0 ≤ exponent then ofRatio neg (digits * Nat.pow 10 exponent.toNat) 1
    else ofRatio neg digits (Nat.pow 10 (-exponent).toNat)

def negate : Binary64 → Binary64
  | .nan => .nan
  | .infinite neg => .infinite !neg
  | .finite neg m e => .finite (!neg) m e

def isNegative : Binary64 → Bool
  | .nan => false
  | .infinite neg => neg
  | .finite neg _ _ => neg

/-- The magnitude of a finite number as a quotient of two naturals. -/
def ratio (m : Nat) (e : Int) : Nat × Nat :=
  if 0 ≤ e then (m * Nat.pow 2 e.toNat, 1) else (m, Nat.pow 2 (-e).toNat)

def toInt? : Binary64 → Option Int
  | .finite neg m e =>
    let (n, d) := ratio m e
    if n % d = 0 then
      let k : Int := (n / d : Nat)
      some (if neg then -k else k)
    else none
  | _ => none

def add : Binary64 → Binary64 → Binary64
  | .nan, _ => .nan
  | _, .nan => .nan
  | .infinite a, .infinite b => if a = b then .infinite a else .nan
  | .infinite a, .finite .. => .infinite a
  | .finite .., .infinite b => .infinite b
  | .finite na ma ea, .finite nb mb eb =>
    let e := min ea eb
    let a : Int := (ma * Nat.pow 2 (ea - e).toNat : Nat)
    let b : Int := (mb * Nat.pow 2 (eb - e).toNat : Nat)
    let sum := (if na then -a else a) + (if nb then -b else b)
    if sum = 0 then zero (na && nb)
    else
      let (n, d) := ratio sum.natAbs e
      ofRatio (sum < 0) n d

end Binary64

end CallExpander.Number
