import RecordGraph.Data.Value

/-!
# Attributes

An attribute is one column of a model. Only the text kind restricts what may be
stored under it; the other kinds document intent.
-/

namespace RecordGraph

/-- What an attribute is meant to hold. -/
inductive DataType where
  | integer
  | float
  | string
  | boolean
  | date
  | json
deriving DecidableEq, Repr

namespace DataType

/-- Every kind of attribute. -/
def all : List DataType :=
  [.integer, .float, .string, .boolean, .date, .json]

/-- The word for a kind of attribute. -/
def word : DataType → String
  | .integer => "integer"
  | .float => "float"
  | .string => "string"
  | .boolean => "boolean"
  | .date => "date"
  | .json => "json"

/-- The kind of attribute of a word. -/
def ofWord? (s : String) : Option DataType :=
  all.find? (·.word == s)

@[simp] theorem ofWord?_word (t : DataType) : ofWord? t.word = some t := by
  cases t <;> decide

end DataType

/-- A column of a model. -/
structure Attribute where
  name : String
  dataType : DataType := .string
  primaryKey : Bool := false
  /-- The store assigns the next number when no value is given. -/
  autoIncrement : Bool := false
  allowNull : Bool := false
  /-- No two stored rows have the same non-null value. -/
  unique : Bool := false
  /-- The value of a new row that gives none. -/
  default : Option Value := none
deriving Repr

namespace Attribute

/-- A primary key numbered by the store. -/
def identity (name : String) : Attribute :=
  { name, dataType := .integer, primaryKey := true, autoIncrement := true }

/-- Whether a new row has to give a value. -/
def isRequired (a : Attribute) : Bool :=
  !a.allowNull && !a.autoIncrement && a.default.isNone

/-- Whether no two rows may share a value. -/
def isKey (a : Attribute) : Bool :=
  a.unique || a.primaryKey

/-- Whether null, or no value at all, is refused. -/
def refusesNull (a : Attribute) : Bool :=
  !a.allowNull && !a.autoIncrement

@[simp] theorem isKey_identity (name : String) : (identity name).isKey = true := rfl

end Attribute

end RecordGraph
