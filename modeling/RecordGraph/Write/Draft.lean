import RecordGraph.Store.Row

/-!
# Drafts

A draft is what a caller supplies for a row: values for columns, and for
associations the rows to be connected, by label. A label that is absent leaves the
association as it is; one with nothing under it disconnects. A row to be connected
may be given whole, as a record to write, or by its key.
-/

namespace RecordGraph

/-- A row to be connected, as a caller names it. -/
inductive Item where
  /-- A record, new or with the key of a stored one. -/
  | record (fields : Record)
  | row (row : Row)
  /-- The key of a stored row. -/
  | key (value : Value)

/-- An object is a record, anything else a key. -/
def Item.ofValue : Value → Item
  | .obj fields => .record fields
  | v => .key v

/-- What is to be connected, from a value: nothing, a list, or one row. -/
def Linked.ofValue : Value → Linked Item
  | .null => .none
  | .arr items => .many (items.map Item.ofValue)
  | v => .one (Item.ofValue v)

/-- What a caller supplies for a row. -/
structure Draft where
  fields : Record := []
  associations : Dict (Linked Item) := []

namespace Draft

instance : Inhabited Draft := ⟨{}⟩

/-- Supply a value for a column. -/
def setField (d : Draft) (key : String) (value : Value) : Draft :=
  { d with fields := d.fields.insert key value }

/-- Supply what is to be connected under a label. -/
def link (d : Draft) (label : String) (linked : Linked Item) : Draft :=
  { d with associations := d.associations.insert label linked }

/-- Sort one entry of a record: a name that an association answers to is filed under
the alias of that association. -/
def addEntry (model : Model) (d : Draft) (entry : String × Value) : Draft :=
  match model.association? entry.1 with
  | some a => d.link a.canonicalAlias (.ofValue entry.2)
  | none => d.setField entry.1 entry.2

/-- The draft that a record makes for a model. -/
def ofRecord (model : Model) (record : Record) : Draft :=
  record.foldl (addEntry model) {}

/-- Whether anything is supplied for an association. -/
def hasAssociations (d : Draft) : Bool :=
  !d.associations.isEmpty

end Draft

end RecordGraph
