import RecordGraph.Select.Condition
import RecordGraph.Select.Request

/-!
# Selections

A selection says which rows of one model are read, in what order and shape. Two
selections merge part by part: lists are united in order, leaving out of the second
what is there already; a page that the second one sets replaces that of the first.
-/

namespace RecordGraph

/-- A sort key over expressions. -/
structure OrderTerm where
  expr : Expr
  direction : Request.Direction
deriving Repr

instance : BEq OrderTerm := ⟨fun a b => a.expr == b.expr && a.direction == b.direction⟩

/-- Which rows of a model are read, and how. -/
structure Selection where
  model : String
  conditions : List Condition := []
  attributes : List Expr := []
  orderings : List OrderTerm := []
  groupings : List Expr := []
  /-- Rows to leave out at the start; none if zero. -/
  skipped : Nat := 0
  /-- Rows to keep at most; no bound if zero. -/
  taken : Nat := 0
deriving Repr

namespace Selection

instance : BEq Selection where
  beq a b :=
    a.model == b.model && a.conditions == b.conditions && a.attributes == b.attributes &&
    a.orderings == b.orderings && a.groupings == b.groupings && a.skipped == b.skipped &&
    a.taken == b.taken

/-- The elements of the first list, then those of the second that are not yet there. -/
def union {α : Type} [BEq α] (left right : List α) : List α :=
  right.foldl (fun out item => if out.contains item then out else out ++ [item]) left

/-- The greatest row count. -/
def maxCount : Nat := 0xFFFFFFFFFFFFFFFF

/-- Add row counts up to the greatest one. -/
def addCount (a b : Nat) : Nat :=
  min (a + b) maxCount

/-- The later of two counts, where zero stands for none. -/
def laterCount (earlier later : Nat) : Nat :=
  if later ≠ 0 then later else earlier

/-- Put a later selection on the same model on top of an earlier one. -/
def merge (a b : Selection) : Selection where
  model := a.model
  conditions := union a.conditions b.conditions
  attributes := union a.attributes b.attributes
  orderings := union a.orderings b.orderings
  groupings := union a.groupings b.groupings
  skipped := laterCount a.skipped b.skipped
  taken := laterCount a.taken b.taken

@[simp] theorem union_nil {α : Type} [BEq α] (xs : List α) : union xs [] = xs := rfl

@[simp] theorem union_cons {α : Type} [BEq α] (xs : List α) (y : α) (ys : List α) :
    union xs (y :: ys) = union (if xs.contains y then xs else xs ++ [y]) ys := rfl

end Selection

end RecordGraph
