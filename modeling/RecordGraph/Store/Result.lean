import RecordGraph.Data.Compare
import RecordGraph.Failure.Storage
import RecordGraph.Select.Request

/-!
# Order, shape and aggregates of results

Records are sorted by columns of their own, one after the other, and records that
agree on all of them keep their order. A missing value or null stands after every
other value in an ascending order and so before it in a descending one. A projection
keeps named columns. An aggregate looks at the values that are not null.
-/

namespace RecordGraph.Result

/-- A column to sort by, and in which direction. -/
abbrev SortKey := String × Request.Direction

/-- The columns of an ordering, which has to name columns of the records themselves. -/
def sortKeys : List Request.SortTerm → Except StorageError (List SortKey)
  | [] => .ok []
  | t :: rest =>
    match t.path, t.target with
    | [], .str name => do
      let keys ← sortKeys rest
      pure ((name, t.direction) :: keys)
    | _, target => .error (.unsupported (.ordering target))

/-- Order two values of one column; values without an order count as equal. -/
def compareColumn (a b : Option Value) : Ordering :=
  match Value.present? a, Value.present? b with
  | none, none => .eq
  | none, some _ => .gt
  | some _, none => .lt
  | some v, some w => (v.compare? w).getD .eq

/-- An order in a direction. -/
def directed : Request.Direction → Ordering → Ordering
  | .asc, o => o
  | .desc, o => o.swap

/-- Order two records by the first column on which they differ. -/
def compareRecords : List SortKey → Record → Record → Ordering
  | [], _, _ => .eq
  | (name, direction) :: rest, a, b =>
    match directed direction (compareColumn (a.get? name) (b.get? name)) with
    | .eq => compareRecords rest a b
    | o => o

/-- Sort items by the records they have; items that compare as equal keep their order. Where
a column holds values without an order among them, comparing may be no order at all: then
sorting leaves the items in some order that its documentation does not say, and the one of
merging stands for it. -/
def sort {α : Type} (recordOf : α → Record) (keys : List SortKey) (items : List α) : List α :=
  items.mergeSort fun a b => (compareRecords keys (recordOf a) (recordOf b)).isLE

/-- Leave out items at the start and keep no more than the limit. -/
def page {α : Type} (offset limit : Option Nat) (items : List α) : List α :=
  let rest := items.drop (offset.getD 0)
  match limit with
  | some n => rest.take n
  | none => rest

/-- The column that an item of a projection names. -/
def projectedName : Request.Projection → Except StorageError String
  | .name name => .ok name
  | _ => .error (.unsupported .projection)

/-- The named columns of a record that are there. -/
def project (record : Record) : Option (List Request.Projection) → Except StorageError Record
  | none => .ok record
  | some items => do
    let names ← items.mapM projectedName
    pure <| names.foldl (fun out name =>
      match record.get? name with
      | some v => out.insert name v
      | none => out) []

/-- The first value that no later one precedes in the direction asked for, where only
values with an order replace one another. -/
def extreme (wanted : Ordering) : List Value → Value
  | [] => .null
  | first :: rest =>
    rest.foldl (fun best v => if v.compare? best = some wanted then v else best) first

/-- Whether adding up integers from a total on leaves the 64-bit integers on the way. -/
def leavesWord : Int → List Int → Bool
  | _, [] => false
  | total, n :: rest =>
    !decide (-0x8000000000000000 ≤ total + n ∧ total + n < 0x8000000000000000) ||
      leavesWord (total + n) rest

/-- Add up values: exactly if all are 64-bit integers, else the numbers among them as
floating-point numbers. A sum that `overflows` is not asked for. -/
def sum (values : List Value) : Value :=
  match values.mapM Value.signed? with
  | some integers => .ofInt (integers.foldl (· + ·) 0)
  | none => .ofBinary64? (Binary64.sum? (values.filterMap Value.binary64?))

/-- An aggregate over the values that are not null. -/
def aggregate (function : Request.Aggregate) (values : List Value) : Value :=
  let present := values.filter fun v => !v.isNull
  match function with
  | .count => .ofInt present.length
  | .sum => if present.isEmpty then .null else sum present
  | .avg =>
    if present.isEmpty then .null
    else .ofBinary64? (Binary64.mean? (present.filterMap Value.binary64?))
  | .min => extreme .lt present
  | .max => extreme .gt present

/-- Whether an aggregate stops because a sum of 64-bit integers is none. -/
def overflows (function : Request.Aggregate) (values : List Value) : Bool :=
  function == .sum &&
    ((values.filter fun v => !v.isNull).mapM Value.signed?).any (leavesWord 0)

end RecordGraph.Result
