import RecordGraph.Proofs.Store.Selecting
import RecordGraph.Store.Linking

/-!
# Reading refuses no rows

Only writes are refused for what a row holds. Evaluating a filter, shaping a record and
loading related rows may fail, for what is not supported or not known, but never with
violations.
-/

namespace RecordGraph

variable {α β : Type}

/-- A step is never refused for what a row holds. -/
def Unrefused (x : Except StorageError α) : Prop :=
  ∀ refusal, x ≠ .error (.validation refusal)

section Steps

variable {x : Except StorageError α} {f : α → Except StorageError β}

theorem unrefused_ok (a : α) : Unrefused (.ok a : Except StorageError α) := nofun

/-- What is refused after a step that refuses nothing is refused for the answer of the step. -/
theorem Unrefused.of_bind {refusal : Refusal} (first : Unrefused x)
    (refused : x >>= f = .error (.validation refusal)) :
    ∃ a, x = .ok a ∧ f a = .error (.validation refusal) := by
  cases x with
  | error err =>
      cases refused
      exact absurd rfl (first refusal)
  | ok a => exact ⟨a, rfl, refused⟩

theorem Unrefused.bind (first : Unrefused x) (rest : ∀ a, Unrefused (f a)) :
    Unrefused (x >>= f) := by
  intro refusal refused
  obtain ⟨a, _, refused⟩ := first.of_bind refused
  exact rest a refusal refused

theorem Unrefused.mapM {items : List α} (each : ∀ a, Unrefused (f a)) :
    Unrefused (items.mapM f) := by
  induction items with
  | nil => exact unrefused_ok []
  | cons a rest ih =>
      rw [List.mapM_cons]
      exact (each a).bind fun b => ih.bind fun others => unrefused_ok _

/-- Errors of some other kind are no refusals. -/
theorem unrefused_mapError {ε : Type} {x : Except ε α} {other : ε → StorageError}
    (never : ∀ err refusal, other err ≠ .validation refusal) :
    Unrefused (x.mapError other) := by
  intro refusal failed
  obtain ⟨err, -, made⟩ := mapError_eq_error_iff.mp failed
  exact never err refusal made

end Steps

namespace Filter

variable (row : Record)

theorem unrefused_dereference (fields : Record) : Unrefused (dereference row fields) := by
  rw [dereference]
  split
  · nofun
  · dsimp only
    split <;> nofun

mutual

theorem unrefused_resolve : ∀ v : Value, Unrefused (resolve row v)
  | .obj fields => by
      rw [resolve]
      split
      · exact unrefused_dereference row fields
      · exact unrefused_ok _
  | .arr items => by
      rw [resolve]
      exact (unrefused_resolveAll items).bind fun _ => unrefused_ok _
  | .null | .bool _ | .num _ | .str _ => by
      rw [resolve] <;> nofun

theorem unrefused_resolveAll : ∀ items : List Value, Unrefused (resolveAll row items)
  | [] => by
      rw [resolveAll]
      exact unrefused_ok _
  | v :: rest => by
      rw [resolveAll]
      exact (unrefused_resolve v).bind fun _ =>
        (unrefused_resolveAll rest).bind fun _ => unrefused_ok _

end

theorem unrefused_test (op : Operator) (actual : Option Value) (operand : Value) :
    Unrefused (op.test actual operand) := by
  rw [Operator.test]
  split <;> nofun

theorem unrefused_matchesOperators (actual : Option Value) (operators : List (String × Value)) :
    Unrefused (matchesOperators row actual operators) := by
  induction operators with
  | nil => exact unrefused_ok true
  | cons entry rest ih =>
      obtain ⟨key, operand⟩ := entry
      rw [matchesOperators]
      refine (unrefused_resolve row operand).bind fun operand => ?_
      refine (unrefused_mapError nofun).bind fun op => ?_
      refine (unrefused_test op actual operand).bind fun holds => ?_
      split
      · exact ih
      · exact unrefused_ok false

theorem unrefused_matchesColumn (key : String) (expected : Value) :
    Unrefused (matchesColumn row key expected) := by
  rw [matchesColumn]
  split
  · nofun
  · dsimp only
    split
    · split
      · exact (unrefused_dereference row _).bind fun _ => unrefused_ok _
      · split
        · exact unrefused_matchesOperators row _ _
        · exact unrefused_ok _
    · exact unrefused_ok _

mutual

theorem unrefused_matchesAll : ∀ fields : List (String × Value), Unrefused (matchesAll row fields)
  | [] => by
      rw [matchesAll]
      exact unrefused_ok true
  | (key, v) :: rest => by
      rw [matchesAll]
      refine (unrefused_matchesEntry key v).bind fun holds => ?_
      split
      · exact unrefused_matchesAll rest
      · exact unrefused_ok false

theorem unrefused_matchesAny : ∀ fields : List (String × Value), Unrefused (matchesAny row fields)
  | [] => by
      rw [matchesAny]
      exact unrefused_ok false
  | (key, v) :: rest => by
      rw [matchesAny]
      refine (unrefused_matchesEntry key v).bind fun holds => ?_
      split
      · exact unrefused_ok true
      · exact unrefused_matchesAny rest

theorem unrefused_matchesEntry (key : String) : ∀ v : Value, Unrefused (matchesEntry row key v)
  | .arr items => by
      rw [matchesEntry]
      split
      · exact unrefused_matchesClauses items
      · split
        · exact unrefused_matchesAnyClause items
        · exact unrefused_matchesColumn row key _
  | .obj fields => by
      rw [matchesEntry]
      split
      · exact unrefused_matchesAll fields
      · split
        · exact unrefused_matchesAny fields
        · exact unrefused_matchesColumn row key _
  | .null | .bool _ | .num _ | .str _ => by
      simp only [matchesEntry]
      split
      · nofun
      · split
        · nofun
        · exact unrefused_matchesColumn row key _

theorem unrefused_matchesClause : ∀ v : Value, Unrefused (matchesClause row v)
  | .obj fields => by
      rw [matchesClause]
      exact unrefused_matchesAll fields
  | .null | .bool _ | .num _ | .str _ | .arr _ => by
      rw [matchesClause] <;> nofun

theorem unrefused_matchesClauses : ∀ items : List Value, Unrefused (matchesClauses row items)
  | [] => by
      rw [matchesClauses]
      exact unrefused_ok true
  | v :: rest => by
      rw [matchesClauses]
      refine (unrefused_matchesClause v).bind fun holds => ?_
      split
      · exact unrefused_matchesClauses rest
      · exact unrefused_ok false

theorem unrefused_matchesAnyClause : ∀ items : List Value,
    Unrefused (matchesAnyClause row items)
  | [] => by
      rw [matchesAnyClause]
      exact unrefused_ok false
  | v :: rest => by
      rw [matchesAnyClause]
      refine (unrefused_matchesClause v).bind fun holds => ?_
      split
      · exact unrefused_ok true
      · exact unrefused_matchesAnyClause rest

end

end Filter

namespace Result

theorem unrefused_project (record : Record) (items : Option (List Request.Projection)) :
    Unrefused (project record items) := by
  cases items with
  | none => exact unrefused_ok record
  | some items =>
      refine Unrefused.bind (Unrefused.mapM fun item => ?_) fun _ => unrefused_ok _
      cases item <;> nofun

theorem unrefused_sortKeys (terms : List Request.SortTerm) : Unrefused (sortKeys terms) := by
  induction terms with
  | nil => exact unrefused_ok []
  | cons term rest ih =>
      rw [sortKeys]
      split
      · exact ih.bind fun _ => unrefused_ok _
      · nofun

end Result

namespace Loading

variable {r : Registry} {d : Database} {source target : Model}

theorem unrefused_primaryKey (m : Model) : Unrefused (primaryKey m) :=
  unrefused_mapError nofun

theorem unrefused_model (name : String) : Unrefused (model r name) := by
  rw [model]
  split
  · exact unrefused_ok _
  · simp [Unrefused]

theorem unrefused_association (m : Model) (label : String) : Unrefused (association m label) := by
  intro refusal refused
  rw [association] at refused
  split at refused <;> cases refused

theorem unrefused_associated (a : Association) (data : Record) :
    Unrefused (associated r d source a target data) := by
  rw [associated]
  split
  · exact unrefused_ok []
  · refine (unrefused_primaryKey target).bind fun targetPk => ?_
    refine (unrefused_primaryKey source).bind fun sourcePk => ?_
    dsimp only
    split <;> split <;> nofun

/-- A record is shaped with what was loaded for it, or left out if that says so. -/
theorem unrefused_shaped {head : Request.IncludeHead} {record : Record}
    {loaded : Except StorageError (Option (Dict (Linked Row)))}
    {later : Except StorageError (List Row)} (loads : Unrefused loaded) (rest : Unrefused later) :
    Unrefused (do
      match ← loaded with
      | some related => do
        let data ← Result.project record head.attributes
        let others ← later
        pure ({ model := target, data, related } :: others)
      | none => later) := by
  refine loads.bind fun filed => ?_
  split
  · exact (Result.unrefused_project record _).bind fun _ => rest.bind fun _ => unrefused_ok _
  · exact rest

theorem unrefused_rows {head : Request.IncludeHead}
    {below : Record → Except StorageError (Option (Dict (Linked Row)))}
    (loads : ∀ record, Unrefused (below record)) (records : List Record) :
    Unrefused (rows head target below records) := by
  induction records with
  | nil => exact unrefused_ok []
  | cons record rest ih =>
      rw [rows]
      split
      · refine (Filter.unrefused_matchesAll record _).bind fun accepted => ?_
        dsimp only
        split
        · exact unrefused_shaped (loads record) ih
        · exact ih
      · exact unrefused_shaped (loads record) ih

theorem unrefused_including {head : Request.IncludeHead} (data : Record)
    {below : Model → Record → Except StorageError (Option (Dict (Linked Row)))}
    (loads : ∀ target record, Unrefused (below target record)) :
    Unrefused (including r d source data head below) := by
  refine (unrefused_association source head.label).bind fun a => ?_
  refine (unrefused_model head.model).bind fun target => ?_
  refine (unrefused_associated a data).bind fun records => ?_
  exact (unrefused_rows (loads target) records).bind fun _ => unrefused_ok _

mutual

/-- Loading related rows refuses none of them. -/
theorem unrefused_related (enforce : Bool) (source : Model) (data : Record) :
    ∀ (filed : Dict (Linked Row)) (includes : List Request.Include),
      Unrefused (related r d enforce source data filed includes)
  | filed, [] => by
      rw [related]
      exact unrefused_ok _
  | filed, i :: rest => by
      rw [related]
      refine (unrefused_one source data i).bind fun loaded => ?_
      dsimp only
      split
      · exact unrefused_ok none
      · exact unrefused_related enforce source data _ rest

theorem unrefused_one (source : Model) (data : Record) :
    ∀ i : Request.Include, Unrefused (one r d source data i)
  | .leaf head => by
      rw [one]
      exact unrefused_including data fun _ _ => unrefused_ok _
  | .node head children => by
      rw [one]
      exact unrefused_including data fun target record =>
        unrefused_related true target record [] children

end

theorem unrefused_matching (request : Request.Find) (records : List Record) :
    Unrefused (matching r d source request records) := by
  induction records with
  | nil => exact unrefused_ok []
  | cons record rest ih =>
      rw [matching]
      refine (Filter.unrefused_matchesAll record _).bind fun accepted => ?_
      split
      · refine (unrefused_related true source record [] _).bind fun loaded => ?_
        split
        · exact ih.bind fun _ => unrefused_ok _
        · exact ih
      · exact ih

/-- Nor does selecting the rows that a request asks for. -/
theorem unrefused_select (request : Request.Find) : Unrefused (select r d source request) := by
  rw [select]
  split
  · intro refusal refused
    cases refused
  · split
    · exact unrefused_ok []
    · refine (unrefused_matching request _).bind fun found => ?_
      refine (Result.unrefused_sortKeys _).bind fun keys => Unrefused.mapM fun entry => ?_
      exact (Result.unrefused_project entry.1 _).bind fun _ => unrefused_ok _

end Loading

/-- The same of work on a row that begins with such a step. -/
theorem Unrefused.of_lift_bind {σ : Type} {x : Except StorageError α} {f : α → RowAction σ β}
    {row : Row} {s : σ} {refusal : Refusal} (first : Unrefused x)
    (refused : ((liftM x >>= f) row s).1.1 = .error (.validation refusal)) :
    ∃ a, x = .ok a ∧ (f a row s).1.1 = .error (.validation refusal) := by
  rw [RowAction.lift_bind_run] at refused
  cases x with
  | error err =>
      cases refused
      exact absurd rfl (first refusal)
  | ok a => exact ⟨a, rfl, refused⟩

/-- Reading the rows of a request never refuses any. -/
theorem Engine.findAll_ne_refused (m : Model) (request : Request.Find) (e : Engine)
    (refusal : Refusal) : (findAll m request e).1 ≠ .error (.validation refusal) := by
  rw [findAll_run]
  exact ((Loading.unrefused_model m.name).bind fun registered =>
    Loading.unrefused_select request) refusal

namespace Linking

theorem unrefused_storedKey (row : Row) : Unrefused (storedKey row) := by
  refine (Loading.unrefused_primaryKey row.model).bind fun pk => ?_
  split <;> nofun

/-- Reading a row again never refuses it. -/
theorem reload_ne_refused (request : Request.Reload) (row : Row) (e : Engine)
    (refusal : Refusal) : (reload request row e).1.1 ≠ .error (.validation refusal) := by
  intro refused
  rw [reload, RowAction.bind_run_ok (RowAction.row_run e), RowAction.bind_run_ok rfl] at refused
  obtain ⟨key, _, refused⟩ := (unrefused_storedKey row).of_lift_bind refused
  obtain ⟨pk, _, refused⟩ := (Loading.unrefused_primaryKey row.model).of_lift_bind refused
  cases found : ((e.database.openTable row.model.name).liveWhere pk key).head? with
  | none =>
      rw [found] at refused
      cases refused
  | some data =>
      rw [found] at refused
      obtain ⟨filed, _, refused⟩ :=
        (Loading.unrefused_related false row.model data [] _).of_lift_bind refused
      cases refused

end Linking

end RecordGraph
