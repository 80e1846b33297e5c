/-!
# Binary floating-point numbers

A finite double is a sign, a significand of at most 53 bits and a power of two, all exact, so that
rounding is arithmetic on natural numbers: `round` takes a ratio to the nearest double, a tie to the
even significand. `ofDecimal` reads a decimal number: its digits are rounded first, and the product
with, or the quotient by, the power of ten after that.
-/

namespace TableGraph

/-- A finite double: `significand * 2 ^ exponent`, negated if `negative` says so. The significand has
53 bits, or the exponent is the least one. -/
structure Binary64 where
  negative : Bool
  significand : Nat
  exponent : Int
  deriving DecidableEq, Repr

namespace Binary64

/-- The least exponent, which zero and the subnormal numbers have. -/
def minExponent : Int := -1074

def maxExponent : Int := 971

def zero (negative : Bool) : Binary64 := ⟨negative, 0, minExponent⟩

/-- The quotient rounded to the nearest natural number, a tie to the even one. -/
def divNearest (num den : Nat) : Nat :=
  let q := num / den
  let r := num % den
  if 2 * r < den then q
  else if 2 * r > den then q + 1
  else if q % 2 = 0 then q else q + 1

/-- The ratio with its power of two moved into numerator and denominator. -/
def scale (num den : Nat) (exponent : Int) : Nat × Nat :=
  match exponent with
  | .ofNat e => (num * Nat.pow 2 e, den)
  | .negSucc e => (num, den * Nat.pow 2 (e + 1))

/-- The exponent at which the significand of a positive ratio has 53 bits, the least exponent
apart. -/
def exponentOf (num den : Nat) : Int :=
  let e : Int := max ((num.log2 : Int) - den.log2 - 52) minExponent
  let (n, d) := scale num den (-e)
  if n / d < Nat.pow 2 52 && minExponent < e then e - 1 else e

/-- The double nearest to a ratio, unless it is beyond the greatest. -/
def round (negative : Bool) (num den : Nat) : Option Binary64 :=
  if num = 0 then some (zero negative)
  else
    let e := exponentOf num den
    let (n, d) := scale num den (-e)
    let m := divNearest n d
    let (m, e) := if m = Nat.pow 2 53 then (Nat.pow 2 52, e + 1) else (m, e)
    if maxExponent < e then none else some ⟨negative, m, e⟩

/-- The product, rounded. -/
def mul? (x y : Binary64) : Option Binary64 :=
  let (n, d) := scale (x.significand * y.significand) 1 (x.exponent + y.exponent)
  round (x.negative != y.negative) n d

/-- The quotient by a number other than zero, rounded. -/
def div? (x y : Binary64) : Option Binary64 :=
  let (n, d) := scale x.significand y.significand (x.exponent - y.exponent)
  round (x.negative != y.negative) n d

/-- The greatest power of ten that is a double to the nearest. -/
def maxPowerOfTen : Nat := 308

/-- A decimal number with a negative power of ten, divided in steps that doubles reach. -/
def divPowerOfTen (x : Binary64) (power : Nat) : Option Binary64 := do
  if power ≤ maxPowerOfTen then x.div? (← round false (Nat.pow 10 power) 1)
  else if power ≤ 2 * maxPowerOfTen then
    let y ← x.div? (← round false (Nat.pow 10 maxPowerOfTen) 1)
    y.div? (← round false (Nat.pow 10 (power - maxPowerOfTen)) 1)
  else some (zero x.negative)

/-- The decimal number `digits * 10 ^ power`, with `digits` below `2 ^ 64`; none if it is beyond the
greatest double. -/
def ofDecimal (negative : Bool) (digits : Nat) (power : Int) : Option Binary64 := do
  let x ← round negative digits 1
  if x.significand = 0 then some x
  else
    match power with
    | .ofNat p => if p ≤ maxPowerOfTen then x.mul? (← round false (Nat.pow 10 p) 1) else none
    | .negSucc p => x.divPowerOfTen (p + 1)

end Binary64

end TableGraph
