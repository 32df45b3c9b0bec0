/-!
# Double-precision numbers

Finite binary floating-point numbers with 53 significant bits, as exact integers: the magnitude is
`mant · 2 ^ exp`. All arithmetic is exact arithmetic on natural numbers followed by one rounding to
the nearest number of the format, ties to the even significand.

* `ofRatio` rounds a quotient.
* `ofDecimal` reads `digits · 10 ^ exponent`. The digits and the power of ten are each rounded
  before they are combined, so the last bit may differ from that of a single rounding.
-/

namespace AccessPolicy.Decimal

/-- A power of two. -/
def pow2 (n : Nat) : Nat := Nat.pow 2 n

/-- A power of ten. -/
def pow10 (n : Nat) : Nat := Nat.pow 10 n

/-- A quotient rounded to the nearest natural number, ties to the even one. -/
def roundDiv (num den : Nat) : Nat :=
  let q := num / den
  let r := num % den
  if 2 * r < den then q
  else if den < 2 * r then q + 1
  else if q % 2 = 0 then q else q + 1

/-- A finite double. Zero and the numbers below `2 ^ (-1022)` have the exponent `-1074`; all others
    have `2 ^ 52 ≤ mant < 2 ^ 53`, so equal numbers of one sign have equal fields. -/
structure Binary64 where
  negative : Bool
  mant : Nat
  exp : Int
deriving DecidableEq, Repr, Inhabited

namespace Binary64

/-- The exponent of the smallest numbers. -/
def minExp : Int := -1074

/-- The exponent of the largest numbers. -/
def maxExp : Int := 971

/-- Zero, with a sign. -/
def zero (negative : Bool) : Binary64 := ⟨negative, 0, minExp⟩

/-- The number with the other sign. -/
def neg (x : Binary64) : Binary64 := { x with negative := !x.negative }

/-- The magnitude as a quotient of natural numbers. -/
def ratio (x : Binary64) : Nat × Nat :=
  (x.mant * pow2 x.exp.toNat, pow2 (-x.exp).toNat)

/-- `num / den` over `2 ^ e`, rounded to an integer. -/
def significand (num den : Nat) (e : Int) : Nat :=
  roundDiv (num * pow2 (-e).toNat) (den * pow2 e.toNat)

/-- The exponent at which a positive quotient has 53 bits, but at least the least one. -/
def exponentOf (num den : Nat) : Int :=
  let e : Int := (Nat.log2 num : Int) - (Nat.log2 den : Int) - 52
  let e := if num * pow2 (-e).toNat < pow2 52 * (den * pow2 e.toNat) then e - 1 else e
  max e minExp

/-- The non-negative double nearest to a quotient, unless that is beyond the largest one. -/
def ofRatio (num den : Nat) : Option Binary64 :=
  if num = 0 then some (zero false)
  else
    let e := exponentOf num den
    let m := significand num den e
    let x : Binary64 := if m = pow2 53 then ⟨false, pow2 52, e + 1⟩ else ⟨false, m, e⟩
    if x.exp ≤ maxExp then some x else none

/-- The rounded product of two magnitudes. -/
def mul (x y : Binary64) : Option Binary64 :=
  ofRatio (x.ratio.1 * y.ratio.1) (x.ratio.2 * y.ratio.2)

/-- The rounded quotient of two magnitudes. -/
def div (x y : Binary64) : Option Binary64 :=
  ofRatio (x.ratio.1 * y.ratio.2) (x.ratio.2 * y.ratio.1)

/-- The largest power of ten that is a double. -/
def maxPow10 : Nat := 308

/-- `x · 10 ^ exponent` in steps of at most `10 ^ 308`, each of them rounded. There is no result
    when it would be too large. -/
def scale (x : Binary64) (exponent : Int) : Option Binary64 :=
  if exponent < -maxPow10 then
    if x.mant = 0 then some x
    else do
      let pow ← ofRatio (pow10 maxPow10) 1
      let y ← x.div pow
      scale y (exponent + maxPow10)
  else if exponent < 0 then do
    let pow ← ofRatio (pow10 (-exponent).toNat) 1
    x.div pow
  else if exponent ≤ maxPow10 then do
    let pow ← ofRatio (pow10 exponent.toNat) 1
    x.mul pow
  else if x.mant = 0 then some x
  else none
termination_by (-exponent).toNat
decreasing_by simp only [maxPow10] at *; omega

/-- The non-negative double for `digits · 10 ^ exponent`. -/
def ofDecimal (digits : Nat) (exponent : Int) : Option Binary64 := do
  let x ← ofRatio digits 1
  x.scale exponent

end Binary64

end AccessPolicy.Decimal
