import Mathlib.Tactic.Ring
import Mathlib.Data.Nat.Log

/-!
# Binary64 numbers

Floating-point numbers by their bit pattern, as far as a program compares them, adds them up, or
multiplies an integer with one and casts the product back. A result is the exact one, rounded to
53 significant bits with ties to even; the cast truncates and saturates, and sends what is not a
number to zero.

## Main definitions

* `Binary64` — a bit pattern, with its sign and its magnitude.
* `Binary64.lt`, `Binary64.le` — comparisons, which fail on what is not a number.
* `Binary64.round53` — rounding to 53 significant bits.
* `Binary64.add`, `Binary64.sum` — addition.
* `Binary64.mulTruncate` — `(n as f64 * x) as u64`.

## Implementation notes

A product below the normal range may be rounded differently by the hardware. Its truncation is
zero either way, so the exponent range plays no role there. A sum is computed as a multiple of
`2 ^ (-1074)`, of which every number is one.
-/

/-- A binary64 number by its bit pattern. -/
structure Binary64 where
  /-- The bits: sign, 11 bits of exponent, 52 bits of fraction. -/
  bits : UInt64
  deriving DecidableEq, Repr

namespace Binary64

/-- The number `1.0`. -/
def one : Binary64 := ⟨0x3FF0000000000000⟩

/-- The sign bit. -/
def sign (x : Binary64) : Bool := decide (2 ^ 63 ≤ x.bits.toNat)

/-- The exponent field. -/
def exponent (x : Binary64) : ℕ := x.bits.toNat / 2 ^ 52 % 2 ^ 11

/-- The fraction field. -/
def fraction (x : Binary64) : ℕ := x.bits.toNat % 2 ^ 52

/-- The absolute value of a floating-point number. -/
inductive Magnitude
  /-- Not a number. -/
  | nan
  /-- Infinity. -/
  | infinite
  /-- The number `mantissa * 2 ^ scale`. -/
  | finite (mantissa : ℕ) (scale : ℤ)
  deriving DecidableEq, Repr

/-- The absolute value. -/
def magnitude (x : Binary64) : Magnitude :=
  if x.exponent = 2047 then
    if x.fraction = 0 then .infinite else .nan
  else if x.exponent = 0 then .finite x.fraction (-1074)
  else .finite (2 ^ 52 + x.fraction) (x.exponent - 1075)

/-- The number of low bits that do not fit among 53 significant bits. -/
def excess (n : ℕ) : ℕ := n.log2 - 52

/-- Round to 53 significant bits, ties to even. -/
def round53 (n : ℕ) : ℕ :=
  let unit := 2 ^ excess n
  let quotient := n / unit
  let rest := n % unit
  if unit < 2 * rest ∨ 2 * rest = unit ∧ quotient % 2 = 1 then (quotient + 1) * unit
  else quotient * unit

/-! ## Comparisons -/

/-- The bit pattern is not a number. -/
def isNaN (x : Binary64) : Bool := decide (x.magnitude = .nan)

/-- Numbers are ordered by their sign and their other bits. Both zeros are zero. -/
def rank (x : Binary64) : ℤ :=
  if x.sign then -((x.bits.toNat % 2 ^ 63 : ℕ) : ℤ) else ((x.bits.toNat % 2 ^ 63 : ℕ) : ℤ)

/-- `x < y` -/
def lt (x y : Binary64) : Bool := !x.isNaN && !y.isNaN && decide (x.rank < y.rank)

/-- `x <= y` -/
def le (x y : Binary64) : Bool := !x.isNaN && !y.isNaN && decide (x.rank ≤ y.rank)

/-! ## Addition -/

/-- What is not a number. -/
def nan : Binary64 := ⟨0x7FF8000000000000⟩

/-- The number `0.0`. -/
def zero : Binary64 := ⟨0⟩

/-- The number `± n * 2 ^ (-1074)`, rounded. -/
def ofMultiple (negative : Bool) (n : ℕ) : Binary64 :=
  let rounded := round53 n
  let bits := if 2 ^ 2098 ≤ rounded then 2047 * 2 ^ 52
    else if rounded < 2 ^ 52 then rounded
    else excess rounded * 2 ^ 52 + rounded / 2 ^ excess rounded
  ⟨UInt64.ofNat (if negative then 2 ^ 63 + bits else bits)⟩

/-- A finite number as a multiple of `2 ^ (-1074)`. -/
def multiple (negative : Bool) (mantissa : ℕ) (scale : ℤ) : ℤ :=
  let n := mantissa * 2 ^ (scale + 1074).toNat
  if negative then -(n : ℤ) else (n : ℤ)

/-- `x + y` -/
def add (x y : Binary64) : Binary64 :=
  match x.magnitude, y.magnitude with
  | .finite m e, .finite m' e' =>
    let total := multiple x.sign m e + multiple y.sign m' e'
    ofMultiple (if total = 0 then x.sign && y.sign else decide (total < 0)) total.natAbs
  | .nan, _ => nan
  | _, .nan => nan
  | .infinite, .infinite => if x.sign = y.sign then x else nan
  | .infinite, .finite _ _ => x
  | .finite _ _, .infinite => y

/-- The sum of a list, from left to right. -/
def sum (l : List Binary64) : Binary64 := l.foldl add zero

/-! ## Products -/

/-- The product of a number and a float, cast back: `(n as f64 * x) as u64`. -/
def mulTruncate (n : UInt64) (x : Binary64) : UInt64 :=
  match x.magnitude with
  | .nan => 0
  | .infinite => if n = 0 ∨ x.sign then 0 else UInt64.ofNat (2 ^ 64 - 1)
  | .finite mantissa scale =>
    if x.sign then 0
    else
      let product := round53 (round53 n.toNat * mantissa)
      let truncated := match scale with
        | .ofNat k => product * 2 ^ k
        | .negSucc k => product / 2 ^ (k + 1)
      UInt64.ofNat (min truncated (2 ^ 64 - 1))

end Binary64
