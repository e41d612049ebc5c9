import RecordGraph.Store.Table

/-!
# Databases

A database is the tables that exist, by name. Writing to a table that does not exist
makes it; `openTable` is that table as a writer finds it.
-/

namespace RecordGraph

/-- The tables that exist. -/
abbrev Database := Dict Table

namespace Database

/-- A table if it exists. -/
def table? (d : Database) (name : String) : Option Table :=
  d.get? name

/-- A table, empty if it does not exist yet. -/
def openTable (d : Database) (name : String) : Table :=
  (d.get? name).getD {}

/-- Put a table in place of the one of its name. -/
def setTable (d : Database) (name : String) (t : Table) : Database :=
  d.insert name t

/-- Forget a table. -/
def dropTable (d : Database) (name : String) : Database :=
  d.erase name

/-- Number of stored rows of a table, hidden ones included. -/
def rowCount (d : Database) (name : String) : Nat :=
  (d.openTable name).rows.length

@[simp] theorem openTable_setTable_self (d : Database) (name : String) (t : Table) :
    (d.setTable name t).openTable name = t := by
  simp [openTable, setTable]

theorem openTable_setTable_of_ne (d : Database) {name other : String} (t : Table)
    (h : other ≠ name) : (d.setTable name t).openTable other = d.openTable other := by
  simp [openTable, setTable, Dict.get?_insert_of_ne d t h]

end Database

end RecordGraph
