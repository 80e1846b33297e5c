import TableGraph.Number.Binary64

/-!
# Shortest decimal text

`Binary64.shortest` finds the decimal number with the fewest digits that is read back as a given
double, the nearest such number if there are several. It tries ever finer grids of powers of ten, and
on each the two points next to the double. `Binary64.text` writes the digits: positionally between
`10 ^ -5` and `10 ^ 16`, with a signed exponent elsewhere.
-/

namespace TableGraph.Binary64

/-- The point of a decimal grid next to `num / den` that lies in the interval of reals rounded to the
double, the nearer one if both do. `ulp` is the distance to the next double in units of `1 / den`;
below a power of two it is half of that. -/
def gridPoint? (num den ulp : Nat) (isEven isPower : Bool) : Option Nat :=
  let d := num / den
  let r := num % den
  let within (distance quarters : Nat) : Bool :=
    if isEven then 4 * distance ≤ quarters * ulp else 4 * distance < quarters * ulp
  let below := d ≠ 0 && within r (if isPower then 1 else 2)
  let above := within (den - r) 2
  match below, above with
  | true, true => some (if 2 * r < den || (2 * r = den && d % 2 = 0) then d else d + 1)
  | true, false => some d
  | false, true => some (d + 1)
  | false, false => none

/-- Try the grid of `10 ^ power` and, while no point fits, the next finer ones. -/
def searchGrids (x : Binary64) : Nat → Int → Nat × Int
  | 0, power => (x.significand, power)
  | tries + 1, power =>
    let (unit, den) := scale 1 1 x.exponent
    let (unit, den) :=
      match power with
      | .ofNat p => (unit, den * Nat.pow 10 p)
      | .negSucc p => (unit * Nat.pow 10 (p + 1), den)
    let isPower := x.significand = Nat.pow 2 52 && minExponent < x.exponent
    match gridPoint? (x.significand * unit) den unit (x.significand % 2 = 0) isPower with
    | some digits => (digits, power)
    | none => searchGrids x tries (power - 1)

def digitCount (n : Nat) : Nat :=
  (Nat.toDigits 10 n).length

/-- The decimal number `digits * 10 ^ power` with the fewest digits that is rounded to a positive
double. -/
def shortest (x : Binary64) : Nat × Int :=
  let (num, den) := scale x.significand 1 x.exponent
  searchGrids x 40 ((digitCount num : Int) - digitCount den + 1)

/-- Write `0.digits * 10 ^ point` with at least one digit on each side of the point. -/
def positional (digits : List Char) (point : Int) : List Char :=
  match point with
  | .ofNat p =>
    let whole := digits.take p ++ List.replicate (p - digits.length) '0'
    let fraction := digits.drop p
    (if whole.isEmpty then ['0'] else whole) ++ '.' :: (if fraction.isEmpty then ['0'] else fraction)
  | .negSucc p => '0' :: '.' :: List.replicate (p + 1) '0' ++ digits

/-- Write `d.igits * 10 ^ power` with an exponent. -/
def scientific (digits : List Char) (power : Int) : List Char :=
  let mantissa :=
    match digits with
    | first :: second :: rest => first :: '.' :: second :: rest
    | short => short
  mantissa ++ 'e' :: (if power < 0 then '-' else '+') :: Nat.toDigits 10 power.natAbs

/-- The text of a double: the fewest digits that are read back as it. -/
def text (x : Binary64) : String :=
  let sign := if x.negative then ['-'] else []
  if x.significand = 0 then String.ofList (sign ++ ['0', '.', '0'])
  else
    let (n, power) := shortest x
    let all := Nat.toDigits 10 n
    let digits := (all.reverse.dropWhile (· == '0')).reverse
    let point := power + all.length
    let body :=
      if -5 < point && point ≤ 16 then positional digits point else scientific digits (point - 1)
    String.ofList (sign ++ body)

end TableGraph.Binary64
