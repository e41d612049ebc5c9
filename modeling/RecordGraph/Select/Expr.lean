import RecordGraph.Select.Operator
import RecordGraph.Text.Document
import RecordGraph.Text.Dotted

/-!
# Expressions

An expression names an attribute, possibly through associations, an association, a
column, a function call or a constant, or gives another expression a name. On the
left of a comparison it becomes a key, which three of the six kinds can; on the
right it becomes a document in which columns and calls are marked by reserved keys.
-/

namespace RecordGraph

/-- Errors in building a query. -/
inductive QueryError where
  /-- An expression of this kind has no key. -/
  | invalidLeftOperand (kind : String)
  /-- A nested query reads another model than the association leads to. -/
  | nestedModelMismatch (label expected actual : String)
deriving DecidableEq, Repr

/-- The text of an error in building a query. -/
def QueryError.message : QueryError → String
  | .invalidLeftOperand kind =>
    "a " ++ kind ++ " node cannot be used as the left side of a predicate"
  | .nestedModelMismatch label expected actual =>
    "include '" ++ label ++ "' targets '" ++ expected ++ "' but the nested query is for '" ++
      actual ++ "'"

/-- An expression over the rows of a model. -/
inductive Expr where
  /-- An attribute, reached through the associations of the path. -/
  | attribute (path : List String) (name : String)
  | column (name : String)
  | call (function : String) (args : List Expr)
  | constant (value : Value)
  /-- An expression with a name for its result. -/
  | named (name : String) (inner : Expr)
  | association (key : String)
deriving Repr

namespace Expr

/-- The path and name of an attribute, with dots. -/
def dottedName (path : List String) (name : String) : String :=
  Text.dotted (path ++ [name])

/-- The kind of an expression, as messages name it. -/
def kind : Expr → String
  | .attribute .. => "attribute"
  | .column .. => "column"
  | .call .. => "function"
  | .constant .. => "constant"
  | .named .. => "alias"
  | .association .. => "association"

/-- The key of an attribute: its name, or between dollar signs its dotted path. -/
def attributeKey (path : List String) (name : String) : String :=
  if path.isEmpty then name else "$" ++ dottedName path name ++ "$"

/-- The key of a constant: a text itself, any other document as it is written. -/
def constantKey : Value → String
  | .str s => s
  | v => v.text

/-- The key of an expression on the left of a comparison, if its kind has one. -/
def leftKey? : Expr → Option String
  | .attribute path name => some (attributeKey path name)
  | .association key => some key
  | .constant value => some (constantKey value)
  | .column .. | .call .. | .named .. => none

/-- The key of an expression on the left of a comparison. -/
def leftKey (e : Expr) : Except QueryError String :=
  match e.leftKey? with
  | some key => .ok key
  | none => .error (.invalidLeftOperand e.kind)

/-- Whether the expression can stand on the left of a comparison. -/
def isLeftCapable (e : Expr) : Bool :=
  e.leftKey?.isSome

/-- The document of a column reference. -/
def reference (name : String) : Value :=
  .obj [(Filter.columnKey, .str name)]

mutual

/-- The document of an expression on the right of a comparison. -/
def operand : Expr → Value
  | .attribute path name => reference (dottedName path name)
  | .column name => reference name
  | .association key => reference key
  | .call function args =>
    .obj [(Filter.callKey, .str function), (Filter.argumentsKey, .arr (operands args))]
  | .constant value => value
  | .named _ inner => operand inner

/-- The documents of the arguments of a call. -/
def operands : List Expr → List Value
  | [] => []
  | e :: rest => operand e :: operands rest

end

mutual

/-- Equality of expressions, of constants as documents. -/
def beq : Expr → Expr → Bool
  | .attribute p n, .attribute q m => p == q && n == m
  | .column n, .column m => n == m
  | .call f xs, .call g ys => f == g && beqAll xs ys
  | .constant v, .constant w => v == w
  | .named n x, .named m y => n == m && beq x y
  | .association k, .association l => k == l
  | _, _ => false

/-- Equality of argument lists. -/
def beqAll : List Expr → List Expr → Bool
  | [], [] => true
  | x :: xs, y :: ys => beq x y && beqAll xs ys
  | _, _ => false

end

instance : BEq Expr := ⟨beq⟩

/-- Reach an attribute through one more association in front; other expressions do
not move. -/
def under (hop : String) : Expr → Expr
  | .attribute path name => .attribute (hop :: path) name
  | e => e

/-- Reach an attribute through a chain of associations. -/
def through (hops : List String) (e : Expr) : Expr :=
  hops.foldr under e

theorem through_attribute (hops path : List String) (name : String) :
    through hops (.attribute path name) = .attribute (hops ++ path) name := by
  induction hops with
  | nil => rfl
  | cons hop rest ih => simp [through, under] at ih ⊢; simp [ih]

end Expr

end RecordGraph
