import RecordGraph.Data.Binary64
import RecordGraph.Data.Dict

/-!
# Values and records

Attribute values, filters and whole rows are documents: null, truth values,
numbers, text, lists, and objects whose fields stand in key order. A record is the
field list of an object.

Two notions of equality live here and in `Data.Compare`. The one of this file, `==`,
is equality of documents: an integer is never equal to a floating-point number, and
floating-point numbers are equal when their ranks are, so the two zeros are. It is
what deciding "the same condition again" needs; stored values are compared by
`Value.same` instead.
-/

namespace RecordGraph

/-- A number: an integer, kept exactly, or a floating-point number. -/
inductive Number where
  | int (value : Int)
  | float (value : Binary64)
deriving Repr

namespace Number

/-- Equality of documents on numbers. -/
def beq : Number → Number → Bool
  | .int i, .int j => i == j
  | .float x, .float y => x.rank == y.rank
  | _, _ => false

instance : BEq Number := ⟨beq⟩

/-- The value of an integer that fits a signed 64-bit word. -/
def signed? : Number → Option Int
  | .int i => if -0x8000000000000000 ≤ i ∧ i < 0x8000000000000000 then some i else none
  | .float _ => none

/-- The nearest floating-point number. -/
def toBinary64 : Number → Binary64
  | .int i => .ofInt i
  | .float x => x

end Number

/-- A document. -/
inductive Value where
  | null
  | bool (value : Bool)
  | num (value : Number)
  | str (value : String)
  | arr (items : List Value)
  | obj (fields : List (String × Value))
deriving Repr

/-- The fields of an object, in key order. -/
abbrev Record := Dict Value

namespace Value

instance : Inhabited Value := ⟨.null⟩

/-- An integer as a value. -/
def ofInt (i : Int) : Value := .num (.int i)

/-- A floating-point number as a value; what is not a finite number is null. -/
def ofBinary64? : Option Binary64 → Value
  | some x => .num (.float x)
  | none => .null

/-- A machine number as a value. -/
def ofFloat (x : Float) : Value :=
  ofBinary64? (Binary64.ofFloat? x)

/-- A machine number as a value, rounded to single precision first. -/
def ofSingle (x : Float) : Value :=
  ofFloat x.toFloat32.toFloat

mutual

/-- Equality of documents. -/
def beq : Value → Value → Bool
  | .null, .null => true
  | .bool a, .bool b => a == b
  | .num a, .num b => a == b
  | .str a, .str b => a == b
  | .arr xs, .arr ys => beqItems xs ys
  | .obj xs, .obj ys => beqFields xs ys
  | _, _ => false

/-- Equality of lists of documents. -/
def beqItems : List Value → List Value → Bool
  | [], [] => true
  | x :: xs, y :: ys => beq x y && beqItems xs ys
  | _, _ => false

/-- Equality of field lists, keys and values alike. -/
def beqFields : List (String × Value) → List (String × Value) → Bool
  | [], [] => true
  | (k, x) :: xs, (l, y) :: ys => k == l && beq x y && beqFields xs ys
  | _, _ => false

end

instance : BEq Value := ⟨beq⟩

/-- Whether the value is null. -/
def isNull : Value → Bool
  | .null => true
  | _ => false

/-- Whether the value is text. -/
def isText : Value → Bool
  | .str _ => true
  | _ => false

/-- The text of a text value. -/
def text? : Value → Option String
  | .str s => some s
  | _ => none

/-- The integer of a value that is one and fits a signed 64-bit word. -/
def signed? : Value → Option Int
  | .num n => n.signed?
  | _ => none

/-- The nearest floating-point number of a numeric value. -/
def binary64? : Value → Option Binary64
  | .num n => some n.toBinary64
  | _ => none

/-- A value that is there and not null. -/
def present? : Option Value → Option Value
  | some .null => none
  | other => other

/-- Whether a value is missing or null. -/
def isNullish (value : Option Value) : Bool :=
  (present? value).isNone

@[simp] theorem isNull_eq_true_iff {v : Value} : v.isNull = true ↔ v = .null := by
  cases v <;> simp [isNull]

@[simp] theorem present?_none : present? none = none := rfl

@[simp] theorem present?_null : present? (some .null) = none := rfl

theorem present?_eq_some_iff {o : Option Value} {v : Value} :
    present? o = some v ↔ o = some v ∧ v ≠ .null := by
  cases o with
  | none => simp
  | some w => cases w <;> simp [present?] <;> rintro rfl <;> simp

end Value

end RecordGraph
