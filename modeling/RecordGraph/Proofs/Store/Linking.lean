import RecordGraph.Proofs.Store.Action
import RecordGraph.Store.Linking

/-!
# What connecting a row does

Connecting reads the association, the target model and the keys of the wanted rows
before it writes anything: these are the `Ends` of the connection. From there each kind
of association has one way of writing, which is a constructor of `Connects`. A connection
that fails has left the tables alone.
-/

namespace RecordGraph.Linking

variable {e e' : Engine} {row row' : Row} {label : String} {linked : Linked Row}

/-- What is read before a row is connected under a label: the association, its target
model with its primary key, and the keys of the rows to connect. -/
structure Ends (r : Registry) (row : Row) (label : String) (linked : Linked Row)
    (a : Association) (target : Model) (pk : String) (wanted : List Value) : Prop where
  association : row.model.association? label = some a
  registered : r.get? a.target = some target
  primaryKey : Loading.primaryKey target = .ok pk
  keys : itemKeys pk linked.toList = .ok wanted

/-- How a row has been connected: the row and the engine afterwards. -/
inductive Connects (e : Engine) (row : Row) (a : Association) (target : Model) (pk column : String)
    (wanted : List Value) : Row → Engine → Prop where
  /-- The row holds the key of its target and is stored over the one of its key. -/
  | belongsTo {key : Value} {index : Nat} {record : Record} {t : Table}
      (kind : a.kind = .belongsTo)
      (source : sourceKey row.model (row.set column (wanted.head?.getD .null)).data = .ok key)
      (place : (e.database.openTable row.model.name).position? row.model key = .ok (some index))
      (written : (e.database.openTable row.model.name).updateAt row.model false index
        (row.set column (wanted.head?.getD .null)).data = .ok (record, t)) :
      Connects e row a target pk column wanted (row.set column (wanted.head?.getD .null))
        (e.setTable row.model.name t)
  /-- The targets hold the key of the row. -/
  | pointed {key : Value} (kind : a.kind.isOwnedByTarget = true)
      (source : sourceKey row.model row.data = .ok key) :
      Connects e row a target pk column wanted row (e.setTable target.name
        (pointTargets pk column key wanted (e.database.openTable target.name)))
  /-- The join table holds the pairs of the row. -/
  | paired {key : Value} {through : String} (kind : a.kind = .belongsToMany)
      (source : sourceKey row.model row.data = .ok key) (join : a.through = some through) :
      Connects e row a target pk column wanted row (e.setTable through
        (pairTargets column a.joinTargetColumn key wanted (e.database.openTable through)))

/-- Storing over a row that is stored changes it in its place. -/
theorem overwrite_ok {m : Model} {validate : Bool} {key : Value} {data record : Record}
    (h : overwrite m validate key data e = (.ok record, e')) :
    ∃ index t, (e.database.openTable m.name).position? m key = .ok (some index) ∧
      (e.database.openTable m.name).updateAt m validate index data = .ok (record, t) ∧
      e' = e.setTable m.name t := by
  obtain ⟨t, done, rfl⟩ := Engine.onTable_ok_iff.mp h
  obtain ⟨place, found, done⟩ := bind_eq_ok_iff.mp done
  cases place with
  | none => cases done
  | some index => exact ⟨index, t, found, done, rfl⟩

theorem overwrite_error {m : Model} {validate : Bool} {key : Value} {data : Record}
    {err : StorageError} (h : overwrite m validate key data e = (.error err, e')) :
    e' = e.setTable m.name (e.database.openTable m.name) :=
  Engine.onTable_error h

theorem association_ok {m : Model} {a : Association} (h : Loading.association m label = .ok a) :
    m.association? label = some a := by
  unfold Loading.association at h
  split at h
  · cases h
    assumption
  · cases h

theorem model_ok {r : Registry} {name : String} {m : Model} (h : Loading.model r name = .ok m) :
    r.get? name = some m := by
  unfold Loading.model at h
  split at h
  · cases h
    assumption
  · cases h

/-- The writing part of connecting a row. -/
def attach (label : String) (a : Association) (target : Model) (pk column : String)
    (wanted : List Value) (row : Row) : RowAction Engine Unit :=
  match a.kind with
  | .belongsTo => do
    RowAction.modifyRow (·.set column (wanted.head?.getD .null))
    let data := (← RowAction.row).data
    let key ← sourceKey row.model data
    let _ ← RowAction.ofAction (overwrite row.model false key data)
  | .hasOne | .hasMany => do
    let key ← sourceKey row.model row.data
    RowAction.ofAction <| Engine.onTable target.name fun t =>
      .ok ((), pointTargets pk column key wanted t)
  | .belongsToMany => do
    let key ← sourceKey row.model row.data
    match a.through with
    | none => throw (.unsupported (.joinTable label))
    | some through =>
      RowAction.ofAction <| Engine.onTable through fun t =>
        .ok ((), pairTargets column a.joinTargetColumn key wanted t)

/-- A row is connected by reading the ends and then writing. -/
theorem connect_of_ends {a : Association} {target : Model} {pk : String} {wanted : List Value}
    (ends : Ends e.registry row label linked a target pk wanted) :
    connect label linked row e =
      attach label a target pk (e.registry.foreignKey row.model a) wanted row row e := by
  have found : Loading.association row.model label = .ok a := by
    rw [Loading.association, ends.association]
  have resolved : Loading.model e.registry a.target = .ok target := by
    rw [Loading.model, ends.registered]
  have registry : RowAction.ofAction get row e = ((.ok e, row), e) := rfl
  simp only [connect, RowAction.bind_run_ok (RowAction.row_run e), RowAction.bind_run_ok registry,
    RowAction.lift_bind_run, found, resolved, ends.primaryKey, ends.keys]
  rfl

/-- Where the ends cannot be read nothing happens. -/
theorem connect_unread
    (unread : ∀ a target pk wanted, ¬ Ends e.registry row label linked a target pk wanted) :
    ∃ err, connect label linked row e = ((.error err, row), e) := by
  rw [connect, RowAction.bind_run_ok (RowAction.row_run e), RowAction.bind_run_ok rfl,
    RowAction.lift_bind_run]
  cases association : Loading.association row.model label with
  | error err => exact ⟨err, rfl⟩
  | ok a =>
      dsimp only
      rw [RowAction.lift_bind_run]
      cases registered : Loading.model e.registry a.target with
      | error err => exact ⟨err, rfl⟩
      | ok target =>
          dsimp only
          rw [RowAction.lift_bind_run]
          cases primaryKey : Loading.primaryKey target with
          | error err => exact ⟨err, rfl⟩
          | ok pk =>
              dsimp only
              rw [RowAction.lift_bind_run]
              cases keys : itemKeys pk linked.toList with
              | error err => exact ⟨err, rfl⟩
              | ok wanted => exact absurd ⟨association_ok association, model_ok registered,
                  primaryKey, keys⟩ (unread a target pk wanted)

section Attach

variable {a : Association} {target : Model} {pk column : String} {wanted : List Value}

theorem attach_ok (h : attach label a target pk column wanted row row e = ((.ok (), row'), e')) :
    Connects e row a target pk column wanted row' e' := by
  unfold attach at h
  cases kind : a.kind with
  | belongsTo =>
      simp only [kind] at h
      rw [RowAction.bind_run_ok (RowAction.modifyRow_run _ e),
        RowAction.bind_run_ok (RowAction.row_run e)] at h
      obtain ⟨key, source, h⟩ := RowAction.lift_bind_ok_iff.mp h
      rw [RowAction.bind_run, RowAction.ofAction_run] at h
      cases stored : (overwrite row.model false key
        (row.set column (wanted.head?.getD .null)).data e) with
      | mk result e'' =>
          rw [stored] at h
          cases result with
          | error err => cases h
          | ok record =>
              cases h
              obtain ⟨index, t, place, written, rfl⟩ := overwrite_ok stored
              exact .belongsTo kind source place written
  | hasOne | hasMany =>
      simp only [kind] at h
      obtain ⟨key, source, h⟩ := RowAction.lift_bind_ok_iff.mp h
      cases h
      exact .pointed (by rw [kind]; rfl) source
  | belongsToMany =>
      simp only [kind] at h
      obtain ⟨key, source, h⟩ := RowAction.lift_bind_ok_iff.mp h
      cases join : a.through with
      | none =>
          rw [join] at h
          cases h
      | some through =>
          rw [join] at h
          cases h
          exact .paired kind source join

/-- What could not be written leaves every table as it was. The row is as it was, too, unless it
holds the key of its target itself: that is in it by then. -/
theorem attach_error {err : StorageError}
    (h : attach label a target pk column wanted row row e = ((.error err, row'), e')) :
    (e' = e ∨ e' = e.setTable row.model.name (e.database.openTable row.model.name)) ∧
      row' = if a.kind = .belongsTo then row.set column (wanted.head?.getD .null) else row := by
  unfold attach at h
  cases kind : a.kind with
  | belongsTo =>
      simp only [kind] at h
      rw [RowAction.bind_run_ok (RowAction.modifyRow_run _ e),
        RowAction.bind_run_ok (RowAction.row_run e)] at h
      obtain ⟨_, rfl, rfl⟩ | ⟨key, _, h⟩ := RowAction.lift_bind_error_iff.mp h
      · exact ⟨.inl rfl, rfl⟩
      rw [RowAction.bind_run, RowAction.ofAction_run] at h
      cases stored : (overwrite row.model false key
        (row.set column (wanted.head?.getD .null)).data e) with
      | mk result e'' =>
          rw [stored] at h
          cases result with
          | error err =>
              cases h
              exact ⟨.inr (overwrite_error stored), rfl⟩
          | ok record => cases h
  | hasOne | hasMany =>
      simp only [kind] at h
      obtain ⟨_, rfl, rfl⟩ | ⟨key, _, h⟩ := RowAction.lift_bind_error_iff.mp h
      · exact ⟨.inl rfl, rfl⟩
      · cases h
  | belongsToMany =>
      simp only [kind] at h
      obtain ⟨_, rfl, rfl⟩ | ⟨key, _, h⟩ := RowAction.lift_bind_error_iff.mp h
      · exact ⟨.inl rfl, rfl⟩
      cases join : a.through with
      | none =>
          rw [join] at h
          cases h
          exact ⟨.inl rfl, rfl⟩
      | some through =>
          rw [join] at h
          cases h

end Attach

/-- A row that could be connected has been connected in the way of its association. -/
theorem connect_ok (h : connect label linked row e = ((.ok (), row'), e')) :
    ∃ a target pk wanted, Ends e.registry row label linked a target pk wanted ∧
      Connects e row a target pk (e.registry.foreignKey row.model a) wanted row' e' := by
  by_cases read : ∃ a target pk wanted, Ends e.registry row label linked a target pk wanted
  · obtain ⟨a, target, pk, wanted, ends⟩ := read
    rw [connect_of_ends ends] at h
    exact ⟨a, target, pk, wanted, ends, attach_ok h⟩
  · obtain ⟨err, refused⟩ := connect_unread
      (fun a target pk wanted ends => read ⟨a, target, pk, wanted, ends⟩)
    rw [refused] at h
    cases h

/-- A row that could not be connected has left every table as it was, and it is as it was
itself if its ends could not be read. -/
theorem connect_error {err : StorageError}
    (h : connect label linked row e = ((.error err, row'), e')) :
    (e' = e ∨ e' = e.setTable row.model.name (e.database.openTable row.model.name)) ∧
      ((row' = row ∧ ∀ a target pk wanted, ¬ Ends e.registry row label linked a target pk wanted) ∨
        ∃ a target pk wanted, Ends e.registry row label linked a target pk wanted ∧
          row' = if a.kind = .belongsTo
            then row.set (e.registry.foreignKey row.model a) (wanted.head?.getD .null) else row) := by
  by_cases read : ∃ a target pk wanted, Ends e.registry row label linked a target pk wanted
  · obtain ⟨a, target, pk, wanted, ends⟩ := read
    rw [connect_of_ends ends] at h
    obtain ⟨left, rest⟩ := attach_error h
    exact ⟨left, .inr ⟨a, target, pk, wanted, ends, rest⟩⟩
  · have unread : ∀ a target pk wanted, ¬ Ends e.registry row label linked a target pk wanted :=
      fun a target pk wanted ends => read ⟨a, target, pk, wanted, ends⟩
    obtain ⟨err, refused⟩ := connect_unread unread
    rw [refused] at h
    cases h
    exact ⟨.inl rfl, .inl ⟨rfl, unread⟩⟩

/-- Connecting and filing runs as connecting does; only the row has more filed. -/
theorem setAssociation_ok_iff :
    setAssociation label linked row e = ((.ok (), row'), e') ↔
      ∃ connected, connect label linked row e = ((.ok (), connected), e') ∧
        row' = connected.file label linked := by
  rw [setAssociation, RowAction.bind_run]
  obtain ⟨⟨result, connected⟩, e''⟩ := connect label linked row e
  cases result with
  | error err =>
      constructor
      · intro h
        cases h
      · rintro ⟨_, h, _⟩
        cases h
  | ok _ =>
      constructor
      · intro h
        cases h
        exact ⟨connected, rfl, rfl⟩
      · rintro ⟨_, h, rfl⟩
        cases h
        rfl

theorem setAssociation_error {err : StorageError}
    (h : setAssociation label linked row e = ((.error err, row'), e')) :
    connect label linked row e = ((.error err, row'), e') := by
  rw [setAssociation, RowAction.bind_run] at h
  generalize connect label linked row e = run at h ⊢
  obtain ⟨⟨result, connected⟩, e''⟩ := run
  cases result with
  | error other => exact h
  | ok _ => cases h

end RecordGraph.Linking
