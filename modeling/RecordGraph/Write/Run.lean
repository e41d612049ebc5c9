import RecordGraph.Failure.Basic
import RecordGraph.Store.Backend

/-!
# Runs

A run is work on a backend that may fail in any of the ways there are. Like an
operation of the backend it leaves a state in either case. A run on a row also
leaves a row; `Run.onRow` lets one work on a row of its own.
-/

namespace RecordGraph

/-- Work on a backend. -/
abbrev Run (σ α : Type) := ExceptT Failure (StateM σ) α

/-- Work on a row and a backend. -/
abbrev RowRun (σ α : Type) := ExceptT Failure (StateT Row (StateM σ)) α

namespace Run

variable {σ α : Type}

/-- An operation of the backend, with its errors as failures. -/
def ofAction (failure : StorageError → Failure) (action : Action σ α) : Run σ α := fun s =>
  let (result, s) := action s
  (result.mapError failure, s)

/-- Work whose failure is an answer. -/
def attempt (run : Run σ α) : Run σ (Except Failure α) := fun s =>
  let (result, s) := run s
  (.ok result, s)

/-- Work on a row of its own, which is the answer. -/
def onRow (row : Row) (run : RowRun σ Unit) : Run σ Row := fun s =>
  let ((result, row), s) := run row s
  (result.map fun _ => row, s)

end Run

namespace RowRun

variable {σ α : Type}

/-- An operation on the row, with its errors as failures. -/
def ofAction (failure : StorageError → Failure) (action : RowAction σ α) : RowRun σ α :=
  fun row s =>
    let ((result, row), s) := action row s
    ((result.mapError failure, row), s)

/-- Work that does not look at the row. -/
def ofRun (run : Run σ α) : RowRun σ α := fun row s =>
  let (result, s) := run s
  ((result, row), s)

/-- The row. -/
def row : RowRun σ Row := fun row s => ((.ok row, row), s)

/-- Work whose failures are changed. -/
def mapFailure (f : Failure → Failure) (run : RowRun σ α) : RowRun σ α := fun row s =>
  let ((result, row), s) := run row s
  ((result.mapError f, row), s)

end RowRun

end RecordGraph
