import AccessPolicy.Decimal.Binary64

/-!
# The fewest digits that read back

Every double is the nearest one to a whole interval of real numbers. Its shortest decimal is the one
with the fewest digits in that interval, and of those the nearest to the number itself.

For a count of digits the candidates are the two neighbours of the number on the grid of decimals
with that many digits: if any point of the grid lies in the interval, so does one of them.
-/

namespace AccessPolicy.Decimal

/-- A positive number and the ends of its rounding interval, in units of a decimal grid: the point
    `d` of the grid stands for `d · unit`. The ends belong to the interval when `closed`. -/
structure Grid where
  value : Nat
  low : Nat
  high : Nat
  unit : Nat
  closed : Bool

namespace Grid

/-- The grid of the multiples of `10 ^ k` around a positive double. Below a power of two the
    neighbouring doubles are closer than above it. -/
def around (x : Binary64) (k : Int) : Grid :=
  let below := if x.mant = pow2 52 ∧ Binary64.minExp < x.exp then 1 else 2
  let e := x.exp - 2
  let scaled (n : Nat) := n * pow2 e.toNat * pow10 (-k).toNat
  { value := scaled (4 * x.mant)
    low := scaled (4 * x.mant - below)
    high := scaled (4 * x.mant + 2)
    unit := pow2 (-e).toNat * pow10 k.toNat
    closed := x.mant % 2 = 0 }

/-- Whether a point of the grid reads back as the number. -/
def holds (g : Grid) (d : Nat) : Bool :=
  let p := d * g.unit
  if g.closed then g.low ≤ p && p ≤ g.high else g.low < p && p < g.high

/-- The neighbour of the number that reads back, the nearer one if both do. -/
def best (g : Grid) : Option Nat :=
  let d := g.value / g.unit
  if g.holds d then
    if g.holds (d + 1) then some (roundDiv g.value g.unit) else some d
  else if g.holds (d + 1) then some (d + 1)
  else none

end Grid

/-- The power of ten of the leading digit of a positive double. -/
def leadingExponent (x : Binary64) : Int :=
  let n := x.ratio.1 * pow10 400 / x.ratio.2
  (Nat.toDigits 10 n).length - 401

/-- A decimal of `n` digits, where rounding up may have carried into one digit more. -/
def carried (n d : Nat) (k : Int) : Nat × Int := if d = pow10 n then (1, k + n) else (d, k)

/-- The first count of digits from `n` on, at most `n + fuel`, that has a decimal reading back, with
    the power of ten of its last digit. -/
def shortestFrom (x : Binary64) : Nat → Nat → Nat × Int
  | 0, n =>
    let k := leadingExponent x - n + 1
    let g := Grid.around x k
    carried n (roundDiv g.value g.unit) k
  | fuel + 1, n =>
    let k := leadingExponent x - n + 1
    match (Grid.around x k).best with
    | some d => carried n d k
    | none => shortestFrom x fuel (n + 1)

/-- The shortest decimal of a positive double, as digits and the power of ten of the last one.
    Seventeen digits always suffice. -/
def shortest (x : Binary64) : Nat × Int := shortestFrom x 16 1

end AccessPolicy.Decimal
