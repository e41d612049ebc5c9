import RecordGraph.Schema.Model
import RecordGraph.Store.Filter

/-!
# Tables

A table keeps its rows in order of insertion, hidden ones in their places, and the
greatest number it has given or been given for a numbered attribute. Writing is all
or nothing: an operation answers the new table, or an error and no table.

`check` is the rule that every written record meets: no null where null is refused,
text where the attribute is text and the check is asked for, and in a key attribute
no value that another row has, be that row hidden or not.
-/

namespace RecordGraph

/-- A record in a table. -/
structure StoredRow where
  data : Record
  /-- A hidden row is kept but not read. -/
  hidden : Bool := false
deriving Repr

namespace StoredRow

/-- Whether the row has a value under a key. -/
def has (row : StoredRow) (key : String) (value : Value) : Bool :=
  (row.data.get? key).any fun v => v.same value

/-- Insert the entries of a record into the row. -/
def extend (row : StoredRow) (data : Record) : StoredRow :=
  { row with data := row.data.extend data }

end StoredRow

/-- The records of a model. -/
structure Table where
  rows : List StoredRow := []
  /-- The greatest number given so far. -/
  counter : Int := 0
deriving Repr

namespace Table

/-- The entries of a record that the model declares as attributes. -/
def declared (model : Model) (data : Record) : Record :=
  List.filter (fun entry => (model.attribute? entry.1).isSome) data

/-- What is wrong with one attribute of a record beside the other rows. -/
def violations (model : Model) (others : List StoredRow) (validate : Bool) (record : Record)
    (a : Attribute) : List Violation :=
  match Value.present? (record.get? a.name) with
  | none =>
    if a.refusesNull then
      [⟨a.name, .notNull, model.name ++ "." ++ a.name ++ " cannot be null"⟩]
    else []
  | some v =>
    (if validate && a.dataType == .string && !v.isText then
      [⟨a.name, .stringType, a.name ++ " must be a string"⟩]
    else []) ++
    (if a.isKey && others.any (·.has a.name v) then
      [⟨a.name, .unique, a.name ++ " must be unique"⟩]
    else [])

/-- Accept a record beside the other rows, or refuse it with all its violations. -/
def check (model : Model) (others : List StoredRow) (validate : Bool) (record : Record) :
    Except StorageError Unit :=
  match model.attributes.flatMap (violations model others validate record) with
  | [] => .ok ()
  | found => .error (.validation ⟨"Validation error", found⟩)

/-- The rows that are read. -/
def live (t : Table) : List StoredRow :=
  t.rows.filter fun row => !row.hidden

/-- The live records with a value under a key. -/
def liveWhere (t : Table) (key : String) (value : Value) : List Record :=
  (t.live.filter (·.has key value)).map (·.data)

/-- The place of the first row with a primary key, hidden or not. -/
def position? (model : Model) (t : Table) (key : Value) : Except StorageError (Option Nat) := do
  let pk ← model.primaryKey.mapError fun e => .database (.schema e)
  pure (t.rows.findIdx? (·.has pk key))

/-- The places from `index` on of the rows that a filter accepts, among the hidden or
among the live ones, up to a limit. A row past the limit is not looked at. -/
def matchingFrom (filter : Record) (hidden : Bool) :
    Option Nat → Nat → List StoredRow → Except StorageError (List Nat)
  | _, _, [] => .ok []
  | limit, index, row :: rest =>
    if row.hidden != hidden then matchingFrom filter hidden limit (index + 1) rest
    else if limit = some 0 then .ok []
    else do
      if ← Filter.accepts filter row.data then
        let others ← matchingFrom filter hidden (limit.map (· - 1)) (index + 1) rest
        pure (index :: others)
      else matchingFrom filter hidden limit (index + 1) rest

/-- The places of the rows that a filter accepts, up to a limit. -/
def matching (t : Table) (filter : Record) (hidden : Bool) (limit : Option Nat) :
    Except StorageError (List Nat) :=
  matchingFrom filter hidden limit 0 t.rows

/-- The value of an attribute in a new record before numbering: the given one, else
the default, else null. A numbered attribute does without the latter, and null given
for it counts as nothing given. -/
def initialValue? (data : Record) (a : Attribute) : Option Value :=
  let fallback := match a.default with
    | some v => some v
    | none => if a.autoIncrement then none else some .null
  match data.get? a.name with
  | some v => if v.isNull && a.autoIncrement then fallback else some v
  | none => fallback

/-- A new record before numbering. -/
def initialRecord (model : Model) (data : Record) : Record :=
  model.attributes.foldl (fun record a =>
    match initialValue? data a with
    | some v => record.insert a.name v
    | none => record) []

/-- Number one attribute: a number that is there raises the counter, otherwise the
next one is given. -/
def number (state : Record × Int) (a : Attribute) : Record × Int :=
  let (record, counter) := state
  match (record.get? a.name).bind Value.signed? with
  | some given => (record, max counter given)
  | none => (record.insert a.name (.ofInt (counter + 1)), counter + 1)

/-- The record that a new row of a model holds, and the counter after it. -/
def newRecord (model : Model) (t : Table) (data : Record) : Record × Int :=
  (model.attributes.filter (·.autoIncrement)).foldl number (initialRecord model data, t.counter)

/-- Accept a new record with the counter after it. The counter is a 64-bit integer: the
number that would take it further is not given, and the record is not looked at. -/
def accept (model : Model) (t : Table) (validate : Bool) (record : Record) (counter : Int) :
    Except StorageError Unit :=
  if counter < 0x8000000000000000 then check model t.rows validate record
  else .error (.database .overflow)

/-- Add a row and answer its record. -/
def insert (model : Model) (validate : Bool) (data : Record) (t : Table) :
    Except StorageError (Record × Table) := do
  let (record, counter) := newRecord model t data
  accept model t validate record counter
  pure (record, { rows := t.rows ++ [{ data := record }], counter })

/-- Add rows one after the other and answer their records. -/
def insertAll (model : Model) (validate : Bool) :
    List Record → Table → Except StorageError (List Record × Table)
  | [], t => .ok ([], t)
  | data :: rest, t => do
    let (record, t) ← t.insert model validate data
    let (records, t) ← insertAll model validate rest t
    pure (record :: records, t)

/-- Change the row at a place and answer its record. -/
def updateAt (model : Model) (validate : Bool) (index : Nat) (data : Record) (t : Table) :
    Except StorageError (Record × Table) :=
  match t.rows[index]? with
  | none => .error .notFound
  | some row => do
    let changed := row.extend (declared model data)
    check model (t.rows.eraseIdx index) validate changed.data
    pure (changed.data, { t with rows := t.rows.set index changed })

/-- The rows with the same entries written at several places. -/
def preview (model : Model) (indices : List Nat) (data : Record) (t : Table) : List StoredRow :=
  indices.foldl (fun rows index => rows.modify index (·.extend (declared model data))) t.rows

/-- Change the rows at several places together: each of them is checked beside the
others as they will be. -/
def updateMany (model : Model) (validate : Bool) (indices : List Nat) (data : Record)
    (t : Table) : Except StorageError Table := do
  let rows := t.preview model indices data
  indices.forM fun index =>
    match rows[index]? with
    | none => .ok ()
    | some row => check model (rows.eraseIdx index) validate row.data
  pure { t with rows }

/-- Hide or show the rows at several places. -/
def setHidden (hidden : Bool) (indices : List Nat) (t : Table) : Table :=
  { t with rows := indices.foldl (fun rows i => rows.modify i ({ · with hidden })) t.rows }

/-- Remove the rows at several increasing places. -/
def remove (indices : List Nat) (t : Table) : Table :=
  { t with rows := indices.foldr (fun i rows => rows.eraseIdx i) t.rows }

/-- Remove all rows; the counter stays. -/
def clear (t : Table) : Table :=
  { t with rows := [] }

end Table

end RecordGraph
