import RecordGraph.Data.Value

/-!
# Comparison operators

A filter pairs a column with a literal or with a map from operator keys to operands.
All operator keys start with a dollar sign, as do the keys that join filters and the
keys that mark a column reference or a function call; an object all of whose keys do
is read as an operator map.
-/

namespace RecordGraph

/-- Errors in what is handed to a store. -/
inductive ProtocolError where
  | serialization (detail : String)
  | unknownOperator (key : String)
deriving DecidableEq, Repr

/-- The text of an error in what is handed to a store. -/
def ProtocolError.message : ProtocolError → String
  | .serialization detail => "serialization error: " ++ detail
  | .unknownOperator key => "unknown operator: " ++ key

/-- The comparisons that a filter can ask for. -/
inductive Operator where
  | eq | ne | gt | gte | lt | lte
  | like | notLike | iLike | notILike
  | not | is
  | isIn | notIn
  | between | notBetween
  | overlap | contains | contained | any
  | adjacent | strictLeft | strictRight | noExtendRight | noExtendLeft
deriving DecidableEq, Repr

namespace Operator

/-- Every operator, in the order of the vocabulary. -/
def all : List Operator :=
  [.eq, .ne, .gt, .gte, .lt, .lte, .like, .notLike, .iLike, .notILike, .not, .is, .isIn, .notIn,
    .between, .notBetween, .overlap, .contains, .contained, .any, .adjacent, .strictLeft,
    .strictRight, .noExtendRight, .noExtendLeft]

/-- The key of an operator in a filter. -/
def key : Operator → String
  | .eq => "$eq"
  | .ne => "$ne"
  | .gt => "$gt"
  | .gte => "$gte"
  | .lt => "$lt"
  | .lte => "$lte"
  | .like => "$like"
  | .notLike => "$notLike"
  | .iLike => "$iLike"
  | .notILike => "$notILike"
  | .not => "$not"
  | .is => "$is"
  | .isIn => "$in"
  | .notIn => "$notIn"
  | .between => "$between"
  | .notBetween => "$notBetween"
  | .overlap => "$overlap"
  | .contains => "$contains"
  | .contained => "$contained"
  | .any => "$any"
  | .adjacent => "$adjacent"
  | .strictLeft => "$strictLeft"
  | .strictRight => "$strictRight"
  | .noExtendRight => "$noExtendRight"
  | .noExtendLeft => "$noExtendLeft"

/-- Read an operator key. -/
def parse (s : String) : Except ProtocolError Operator :=
  match all.find? (·.key == s) with
  | some op => .ok op
  | none => .error (.unknownOperator s)

/-- Whether the comparison is written as a bare literal. -/
def isIdentity (op : Operator) : Bool :=
  op == .eq

/-- The place of an operator in the vocabulary. -/
def index (op : Operator) : Nat :=
  all.findIdx (· == op)

theorem mem_all (op : Operator) : op ∈ all := by
  cases op <;> decide

@[simp] theorem parse_key (op : Operator) : parse op.key = .ok op := by
  cases op <;> rfl

end Operator

namespace Filter

/-- Key of a disjunction. -/
def orKey : String := "$or"

/-- Key of a conjunction. -/
def andKey : String := "$and"

/-- Key of a column reference. -/
def columnKey : String := "$col"

/-- Key of a function call. -/
def callKey : String := "$fn"

/-- Key of the arguments of a function call. -/
def argumentsKey : String := "args"

/-- Whether a key starts with a dollar sign. -/
def isReserved (key : String) : Bool :=
  key.toList.head? == some '$'

/-- Whether the fields are those of a column reference or a function call. -/
def isReference (fields : Record) : Bool :=
  fields.contains columnKey || fields.contains callKey

/-- Whether there are fields and all their keys are reserved. -/
def allReserved (fields : Record) : Bool :=
  !fields.isEmpty && List.all fields fun entry => isReserved entry.1

/-- Whether a value is an operator map by the form of its keys. -/
def isOperatorMap : Value → Bool
  | .obj fields => allReserved fields
  | _ => false

end Filter

end RecordGraph
