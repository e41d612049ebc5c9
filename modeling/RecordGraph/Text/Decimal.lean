import RecordGraph.Data.Binary64

/-!
# Shortest decimal text of a floating-point number

The value of a finite number is `significand * 2 ^ exponent`. The decimals that
read back as it fill the interval up to halfway to each neighbour, ends included
exactly when the significand is even. `shortest` takes the coarsest decimal grid
with a point in that interval and of its points the one nearest to the value, from a
tie the even one. All of it is arithmetic on natural numbers: the three numbers
compared are kept over one denominator.

`layout` then writes the digits: positionally while the first digit stands from
`10 ^ -5` to `10 ^ 15`, with `.0` behind a whole number, otherwise with an exponent
that always carries its sign.
-/

namespace RecordGraph.Text.Decimal

/-- A decimal `digits * 10 ^ exponent`. -/
structure Scaled where
  digits : Nat
  exponent : Int
deriving DecidableEq, Repr

/-- The value and the ends of the interval that reads back as it, in units of
`2 ^ scale`, and whether the ends belong to it. -/
structure Interval where
  low : Nat
  value : Nat
  high : Nat
  scale : Int
  closed : Bool

/-- The interval of a positive finite number, in quarters of the last place. Below
a power of two the lower neighbour is half as far away. -/
def Interval.ofMagnitude (magnitude : Nat) : Interval :=
  let field : Nat := magnitude / Nat.pow 2 52
  let fraction : Nat := magnitude % Nat.pow 2 52
  let significand := if field = 0 then fraction else Nat.pow 2 52 + fraction
  let exponent : Int := if field = 0 then -1074 else (field : Int) - 1075
  let low := if fraction = 0 ∧ 1 < field then 4 * significand - 1 else 4 * significand - 2
  ⟨low, 4 * significand, 4 * significand + 2, exponent - 2, significand % 2 = 0⟩

/-- Number of decimal digits of a natural number. -/
def digitCount (n : Nat) : Nat :=
  (Nat.toDigits 10 n).length

/-- The power of ten of the first digit of `n * 2 ^ scale`. Every finite number
times `10 ^ 330` has a digit before the point. -/
def leadingExponent (n : Nat) (scale : Int) : Int :=
  let shifted := n * Nat.pow 10 330
  let whole :=
    if 0 ≤ scale then shifted * Nat.pow 2 scale.toNat else shifted / Nat.pow 2 (-scale).toNat
  digitCount whole - 331

/-- The point of the grid `10 ^ exponent` nearest to the value, if one of the
value's two neighbours on that grid lies in the interval. -/
def Interval.onGrid? (i : Interval) (exponent : Int) : Option Nat :=
  let numerator := Nat.pow 2 i.scale.toNat * Nat.pow 10 (-exponent).toNat
  let unit := Nat.pow 2 (-i.scale).toNat * Nat.pow 10 exponent.toNat
  let inside (point : Nat) : Bool :=
    if i.closed then i.low * numerator ≤ point * unit && point * unit ≤ i.high * numerator
    else i.low * numerator < point * unit && point * unit < i.high * numerator
  let below := i.value * numerator / unit
  let rest := i.value * numerator % unit
  let belowNearer := 2 * rest < unit || (2 * rest == unit && below % 2 == 0)
  match inside below, inside (below + 1) with
  | true, true => some (if belowNearer then below else below + 1)
  | true, false => some below
  | false, true => some (below + 1)
  | false, false => none

/-- Move trailing zeros of the digits into the exponent, at most `fuel` of them. -/
def dropZeros : Nat → Scaled → Scaled
  | 0, d => d
  | fuel + 1, d =>
    if d.digits ≠ 0 ∧ d.digits % 10 = 0 then dropZeros fuel ⟨d.digits / 10, d.exponent + 1⟩ else d

/-- The shortest decimal that reads back as a positive finite number; seventeen
digits always suffice. -/
def shortest (magnitude : Nat) : Scaled :=
  let interval := Interval.ofMagnitude magnitude
  let leading := leadingExponent interval.value interval.scale
  let found := (List.range 17).findSome? fun (count : Nat) =>
    let exponent := leading - (count : Int)
    (interval.onGrid? exponent).map fun point => (⟨point, exponent⟩ : Scaled)
  match found with
  | some d => dropZeros 20 d
  | none => ⟨0, 0⟩

/-- The exponents of the first digit that are written positionally. -/
structure Positional where
  least : Int
  greatest : Int

/-- From `0.00001` to `1000000000000000.0`. -/
def positional : Positional := ⟨-5, 15⟩

/-- Write the digits of a decimal. -/
def layout (d : Scaled) : String :=
  let digits := Nat.toDigits 10 d.digits
  let leading : Int := d.exponent + digits.length - 1
  let zeros (n : Nat) : List Char := List.replicate n '0'
  String.ofList <|
    if positional.least ≤ leading ∧ leading ≤ positional.greatest then
      if leading < 0 then '0' :: '.' :: zeros (-leading - 1).toNat ++ digits
      else
        let whole := leading.toNat + 1
        if digits.length ≤ whole then digits ++ zeros (whole - digits.length) ++ ['.', '0']
        else digits.take whole ++ '.' :: digits.drop whole
    else
      let head := match digits with
        | first :: [] => [first]
        | first :: rest => first :: '.' :: rest
        | [] => []
      let sign := if leading < 0 then '-' else '+'
      head ++ 'e' :: sign :: Nat.toDigits 10 leading.natAbs

/-- The text of a finite number. -/
def text (x : Binary64) : String :=
  let unsigned := if x.magnitude = 0 then "0.0" else layout (shortest x.magnitude)
  if x.isNegative then "-" ++ unsigned else unsigned

example : text ⟨0x3FB999999999999A⟩ = "0.1" := by decide +kernel
example : text ⟨0x8000000000000000⟩ = "-0.0" := by decide +kernel
example : text ⟨1⟩ = "5e-324" := by decide +kernel
example : text (.ofInt (10 ^ 16)) = "1e+16" := by decide +kernel
example : text (.ofInt (10 ^ 15)) = "1000000000000000.0" := by decide +kernel

end RecordGraph.Text.Decimal
