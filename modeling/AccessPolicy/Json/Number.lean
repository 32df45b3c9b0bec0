import AccessPolicy.Decimal.Shortest

/-!
# Numbers of a document

A number is an integer that fits 64 bits, signed or unsigned, or else a double. Integers out of that
range, minus zero and everything with a fraction or an exponent are doubles.

* `Numeral` is a number as written, and `Numeral.value?` its value. There is none when the double
  would be infinite.
* `Number.text` writes a number. A double has the fewest digits that read back, in positional form
  from `0.00001` to below `10 ^ 16` and with an exponent otherwise.
-/

namespace AccessPolicy.Json

open AccessPolicy.Decimal

/-- A number of a document. -/
inductive Number where
  | int (value : Int)
  | float (value : Binary64)
deriving DecidableEq, Repr, Inhabited

/-! ## Reading -/

/-- The parts of a written number: sign, digits before the point, digits behind it and exponent. -/
structure Numeral where
  negative : Bool
  whole : List Nat
  fraction : Option (List Nat)
  exponent : Option Int
deriving DecidableEq, Repr

namespace Numeral

/-- The number of values of an unsigned 64-bit word. -/
def wordSize : Nat := pow2 64

/-- Takes up digits as long as the result fits a word, and counts those left. -/
def absorb : Nat → List Nat → Nat × Nat
  | acc, [] => (acc, 0)
  | acc, d :: ds =>
    if acc * 10 + d < wordSize then absorb (acc * 10 + d) ds else (acc, ds.length + 1)

/-- The significant digits that fit a word, and the power of ten of the last of them. Digits before
    the point that do not fit count for the power, digits behind it are dropped. -/
def scientific (n : Numeral) : Nat × Int :=
  let whole := absorb 0 n.whole
  let fraction := n.fraction.getD []
  let all := absorb whole.1 fraction
  (all.1, (whole.2 : Int) - ((fraction.length - all.2 : Nat) : Int) + n.exponent.getD 0)

/-- The double that a numeral stands for. -/
def float? (n : Numeral) : Option Number := do
  let x ← Binary64.ofDecimal n.scientific.1 n.scientific.2
  some (.float (if n.negative then x.neg else x))

/-- The value of a numeral. -/
def value? (n : Numeral) : Option Number :=
  let whole := absorb 0 n.whole
  if n.fraction.isNone && n.exponent.isNone && whole.2 = 0 then
    if !n.negative then some (.int whole.1)
    else if whole.1 ≠ 0 ∧ whole.1 ≤ pow2 63 then some (.int (-whole.1))
    else n.float?
  else n.float?

end Numeral

/-! ## Writing -/

/-- The decimal digits of a natural number. -/
def digitChars (n : Nat) : List Char := Nat.toDigits 10 n

/-- Which leading powers of ten are written without an exponent. -/
def isPositional (lead : Int) : Bool := -5 ≤ lead && lead ≤ 15

/-- Digits with the power of ten of the first one, with a point and at least one digit on either
    side of it. -/
def positionalText (digits : List Char) (lead : Int) : List Char :=
  if lead < 0 then ['0', '.'] ++ List.replicate (-lead - 1).toNat '0' ++ digits
  else
    let n := lead.toNat + 1
    if digits.length ≤ n then digits ++ List.replicate (n - digits.length) '0' ++ ['.', '0']
    else digits.take n ++ ['.'] ++ digits.drop n

/-- An exponent with its sign. -/
def exponentText (lead : Int) : List Char :=
  ['e', if lead < 0 then '-' else '+'] ++ digitChars lead.natAbs

/-- Digits with the power of ten of the first one, one digit before the point. -/
def exponentialText (digits : List Char) (lead : Int) : List Char :=
  match digits with
  | [] => []
  | [d] => d :: exponentText lead
  | d :: ds => d :: '.' :: ds ++ exponentText lead

/-- The magnitude of a double. -/
def magnitudeText (x : Binary64) : List Char :=
  if x.mant = 0 then ['0', '.', '0']
  else
    let (d, k) := shortest x
    let digits := digitChars d
    let lead := k + digits.length - 1
    if isPositional lead then positionalText digits lead else exponentialText digits lead

/-- A number as text. -/
def Number.text : Number → String
  | .int n => toString n
  | .float x => String.ofList ((if x.negative then ['-'] else []) ++ magnitudeText x)

/-- The integer of a number, if it fits a signed 64-bit word. -/
def Number.int64? : Number → Option Int64
  | .int n => if -(pow2 63 : Int) ≤ n ∧ n < pow2 63 then some (Int64.ofInt n) else none
  | .float _ => none

end AccessPolicy.Json
