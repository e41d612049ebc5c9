/-!
# Binary floating-point numbers as words

A 64-bit floating-point number is kept as its word, so that order, equality and
the rounding of integers are statements about integers. Finite numbers are
ordered by `rank`, the magnitude bits with the sign in front; the two zeros share
rank zero, hence they are equal in the order although their words differ.
Arithmetic that may leave the finite numbers answers `none` when it does.
-/

namespace RecordGraph

/-- A 64-bit binary floating-point number, by its word. -/
structure Binary64 where
  bits : UInt64
deriving DecidableEq, Repr

namespace Binary64

/-- The word without its sign. -/
def magnitude (x : Binary64) : Nat :=
  x.bits.toNat % 0x8000000000000000

/-- Whether the sign bit is set; negative zero has it too. -/
def isNegative (x : Binary64) : Bool :=
  0x8000000000000000 ≤ x.bits.toNat

/-- The place of a number in the order: the finite numbers are ordered as their
ranks are, and the two zeros have the same one. -/
def rank (x : Binary64) : Int :=
  if x.isNegative then -x.magnitude else x.magnitude

/-- Positive zero. -/
def zero : Binary64 := ⟨0⟩

/-- Negative zero. -/
def negativeZero : Binary64 := ⟨0x8000000000000000⟩

/-- Drop `shift` low bits, going to the nearest quotient and from a tie to the even one. -/
def roundShift (n shift : Nat) : Nat :=
  let unit := Nat.pow 2 shift
  let quotient := n / unit
  let rest := n % unit
  if 2 * rest < unit then quotient
  else if 2 * rest = unit then quotient + quotient % 2
  else quotient + 1

/-- The magnitude of the number nearest to a natural number below `2 ^ 1023`. The
exponent field and the significand are added, so a significand that rounds up to
the next power of two carries into the exponent. -/
def magnitudeOfNat (n : Nat) : Nat :=
  if n = 0 then 0
  else
    let top := n.log2
    let significand := if top ≤ 52 then n * Nat.pow 2 (52 - top) else roundShift n (top - 52)
    (top + 1022) * Nat.pow 2 52 + significand

/-- The number nearest to an integer; an integer zero is positive zero. -/
def ofInt (i : Int) : Binary64 :=
  let magnitude := magnitudeOfNat i.natAbs
  ⟨UInt64.ofNat (if i < 0 then 0x8000000000000000 + magnitude else magnitude)⟩

/-- The word read as a machine number. -/
def toFloat (x : Binary64) : Float :=
  Float.ofBits x.bits

/-- A machine number, unless it is infinite or not a number. -/
def ofFloat? (x : Float) : Option Binary64 :=
  if x.isFinite then some ⟨x.toBits⟩ else none

/-- The sum of a list from the left, starting at negative zero, which is neutral
for every number; `none` if it leaves the finite numbers. -/
def sum? (xs : List Binary64) : Option Binary64 :=
  ofFloat? (xs.foldl (fun acc x => acc + x.toFloat) negativeZero.toFloat)

/-- The sum of a list divided by its length, or by one if it is empty. -/
def mean? (xs : List Binary64) : Option Binary64 :=
  ofFloat? (xs.foldl (fun acc x => acc + x.toFloat) negativeZero.toFloat /
    Float.ofNat (max xs.length 1))

@[simp] theorem rank_zero : zero.rank = 0 := by decide

@[simp] theorem rank_negativeZero : negativeZero.rank = 0 := by decide

@[simp] theorem magnitudeOfNat_zero : magnitudeOfNat 0 = 0 := rfl

/-- Integers of at most 53 bits lose nothing: `3` is `1.5 * 2 ^ 1`. -/
example : ofInt 3 = ⟨0x4008000000000000⟩ := by decide

/-- Two neighbouring integers above `2 ^ 53` may have one nearest number. -/
example : ofInt (2 ^ 53 + 1) = ofInt (2 ^ 53) := by decide

end Binary64

end RecordGraph
