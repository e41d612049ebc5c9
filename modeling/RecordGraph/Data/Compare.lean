import RecordGraph.Data.Value

/-!
# Order of stored values

`Value.compare?` orders two numbers, two texts, two truth values, or two nulls, and
nothing else. Two integers that both fit a signed 64-bit word are compared exactly;
any other two numbers are compared as floating-point numbers. `Value.same` is the
equality that goes with it: numbers are the same when they compare equal, so `1` and
`1.0` are, and all other values when they are equal documents.
-/

namespace RecordGraph

/-- Two numbers: exactly when both are signed 64-bit integers, else by rank. -/
def Number.compare (a b : Number) : Ordering :=
  match a.signed?, b.signed? with
  | some i, some j => Ord.compare i j
  | _, _ => Ord.compare a.toBinary64.rank b.toBinary64.rank

theorem Number.compare_of_signed {a b : Number} {i j : Int} (left : a.signed? = some i)
    (right : b.signed? = some j) : a.compare b = Ord.compare i j := by
  rw [Number.compare, left, right]

theorem Number.compare_of_unsigned {a b : Number}
    (unsigned : a.signed? = none ∨ b.signed? = none) :
    a.compare b = Ord.compare a.toBinary64.rank b.toBinary64.rank := by
  unfold Number.compare
  rcases unsigned with left | right
  · rw [left]
  · rw [right]
    cases a.signed? <;> rfl

namespace Value

/-- The order of two values of one kind; values of different kinds, lists and
objects have none. -/
def compare? : Value → Value → Option Ordering
  | .num a, .num b => some (a.compare b)
  | .str a, .str b => some (Ord.compare a b)
  | .bool a, .bool b => some (Ord.compare a b)
  | .null, .null => some .eq
  | _, _ => none

/-- Whether two stored values count as the same. -/
def same : Value → Value → Bool
  | .num a, .num b => a.compare b == .eq
  | a, b => a == b

@[simp] theorem same_num (a b : Number) : same (.num a) (.num b) = (a.compare b == .eq) := rfl

@[simp] theorem same_str (a b : String) : same (.str a) (.str b) = (a == b) := rfl

/-- Kind does not matter between numbers. -/
example : same (ofInt 1) (.num (.float ⟨0x3FF0000000000000⟩)) = true := by decide

end Value

end RecordGraph
