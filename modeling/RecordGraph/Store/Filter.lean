import RecordGraph.Data.Compare
import RecordGraph.Failure.Storage
import RecordGraph.Text.Dotted
import RecordGraph.Text.Lowercase
import RecordGraph.Text.Pattern

/-!
# Evaluation of filters

`Filter.matchesAll` evaluates the map of a filter on one record: its entries in key
order, up to the first that does not hold. What stands under the conjunction key and
the disjunction key is evaluated as further maps. A column reference is read from
the record itself; whatever would need another table, or a function, is refused.

`Operator.test` is the meaning of one comparison on values. A missing value counts
as null, and null is never ordered before or after anything.
-/

namespace RecordGraph

namespace Operator

/-- Whether an attribute has exactly the expected value, null included. -/
def isEqual (actual : Option Value) (expected : Value) : Bool :=
  match Value.present? actual with
  | none => expected.isNull
  | some v => v.same expected

/-- Whether an attribute is ordered before or after an operand in the way asked for. -/
def isOrdered (actual : Option Value) (operand : Value) (accept : Ordering → Bool) : Bool :=
  match Value.present? actual with
  | none => false
  | some v => (v.compare? operand).any accept

/-- Whether an attribute is one of the values of a list. -/
def isMember (v : Value) (set : List Value) : Bool :=
  set.any v.same

/-- Whether an attribute lies between the two ends of a range, ends included. -/
def isInside (actual : Option Value) : Value → Bool
  | .arr [low, high] => isOrdered actual low (·.isGE) && isOrdered actual high (·.isLE)
  | _ => false

/-- Whether a text attribute matches a pattern; none unless both are text. -/
def matchesPattern? (fold : String → String) (actual : Option Value) (operand : Value) :
    Option Bool :=
  match actual, operand with
  | some (.str s), .str pattern => some (Text.Pattern.isMatch (fold s) (fold pattern))
  | _, _ => none

/-- The value of a comparison, unless it needs more than the two values. -/
def test? (actual : Option Value) (operand : Value) : Operator → Option Bool
  | .eq | .is => some (isEqual actual operand)
  | .not => some (!isEqual actual operand)
  | .ne => some ((Value.present? actual).any fun v => !operand.isNull && !v.same operand)
  | .gt => some (isOrdered actual operand (·.isGT))
  | .gte => some (isOrdered actual operand (·.isGE))
  | .lt => some (isOrdered actual operand (·.isLT))
  | .lte => some (isOrdered actual operand (·.isLE))
  | .isIn =>
    match Value.present? actual, operand with
    | some v, .arr set => some (isMember v set)
    | _, _ => some false
  | .notIn =>
    match Value.present? actual, operand with
    | some v, .arr set => some (!isMember v set)
    | _, _ => some true
  | .between => some (isInside actual operand)
  | .notBetween => some ((Value.present? actual).isSome && !isInside actual operand)
  | .like => some ((matchesPattern? id actual operand).getD false)
  | .notLike => some (!(matchesPattern? id actual operand).getD false)
  | .iLike => some ((matchesPattern? Text.lower actual operand).getD false)
  | .notILike => some (!(matchesPattern? Text.lower actual operand).getD false)
  | .overlap | .contains | .contained | .any | .adjacent | .strictLeft | .strictRight
  | .noExtendRight | .noExtendLeft => none

/-- The value of a comparison. -/
def test (op : Operator) (actual : Option Value) (operand : Value) : Except StorageError Bool :=
  match test? actual operand op with
  | some b => .ok b
  | none => .error (.unsupported (.operator op))

end Operator

namespace Filter

/-- The value that a column reference or a call stands for in a record. -/
def dereference (row : Record) (fields : Record) : Except StorageError Value :=
  if fields.contains callKey then .error (.unsupported .call)
  else
    let column := ((fields.get? columnKey).bind Value.text?).getD ""
    if Text.hasDot column then .error (.unsupported (.joinedColumn column))
    else .ok ((row.get? column).getD .null)

mutual

/-- The value of an operand in a record, references inside lists included. -/
def resolve (row : Record) : Value → Except StorageError Value
  | .obj fields => if isReference fields then dereference row fields else .ok (.obj fields)
  | .arr items => do
    let values ← resolveAll row items
    pure (.arr values)
  | v => .ok v

/-- The values of a list of operands in a record. -/
def resolveAll (row : Record) : List Value → Except StorageError (List Value)
  | [] => .ok []
  | v :: rest => do
    let value ← resolve row v
    let values ← resolveAll row rest
    pure (value :: values)

end

/-- Evaluate the operators of a map in turn, up to the first that does not hold. -/
def matchesOperators (row : Record) (actual : Option Value) :
    List (String × Value) → Except StorageError Bool
  | [] => .ok true
  | (key, operand) :: rest => do
    let operand ← resolve row operand
    let op ← (Operator.parse key).mapError StorageError.protocol
    if ← op.test actual operand then matchesOperators row actual rest else pure false

/-- Evaluate what a filter says about one column. -/
def matchesColumn (row : Record) (key : String) (expected : Value) : Except StorageError Bool :=
  if isReserved key then .error (.unsupported (.joinedKey key))
  else
    let actual := row.get? key
    match expected with
    | .obj fields =>
      if isReference fields then do
        let value ← dereference row fields
        pure (Operator.isEqual actual value)
      else if allReserved fields then matchesOperators row actual fields
      else .ok (Operator.isEqual actual (.obj fields))
    | literal => .ok (Operator.isEqual actual literal)

mutual

/-- Evaluate the entries of a filter in turn, up to the first that does not hold. -/
def matchesAll (row : Record) : List (String × Value) → Except StorageError Bool
  | [] => .ok true
  | (key, expected) :: rest => do
    if ← matchesEntry row key expected then matchesAll row rest else pure false

/-- Evaluate the entries of a filter in turn, up to the first that holds. -/
def matchesAny (row : Record) : List (String × Value) → Except StorageError Bool
  | [] => .ok false
  | (key, expected) :: rest => do
    if ← matchesEntry row key expected then pure true else matchesAny row rest

/-- Evaluate one entry of a filter. -/
def matchesEntry (row : Record) (key : String) : Value → Except StorageError Bool
  | .arr items =>
    if key = andKey then matchesClauses row items
    else if key = orKey then matchesAnyClause row items
    else matchesColumn row key (.arr items)
  | .obj fields =>
    if key = andKey then matchesAll row fields
    else if key = orKey then matchesAny row fields
    else matchesColumn row key (.obj fields)
  | v =>
    if key = andKey then .error (.unsupported (.clause v))
    else if key = orKey then .error (.unsupported (.disjunction v))
    else matchesColumn row key v

/-- Evaluate a filter that is a member of a list. -/
def matchesClause (row : Record) : Value → Except StorageError Bool
  | .obj fields => matchesAll row fields
  | v => .error (.unsupported (.clause v))

/-- Evaluate a list of filters in turn, up to the first that does not hold. -/
def matchesClauses (row : Record) : List Value → Except StorageError Bool
  | [] => .ok true
  | v :: rest => do
    if ← matchesClause row v then matchesClauses row rest else pure false

/-- Evaluate a list of filters in turn, up to the first that holds. -/
def matchesAnyClause (row : Record) : List Value → Except StorageError Bool
  | [] => .ok false
  | v :: rest => do
    if ← matchesClause row v then pure true else matchesAnyClause row rest

end

/-- Evaluate a filter on a record. -/
def accepts (filter : Record) (row : Record) : Except StorageError Bool :=
  matchesAll row filter

end Filter

end RecordGraph
