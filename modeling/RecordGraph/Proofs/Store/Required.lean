import RecordGraph.Failure.Validation
import RecordGraph.Proofs.Store.KeyOrder
import RecordGraph.Proofs.Store.Reading

/-!
# Required values

A row is refused for a required column only if nothing is there to be stored. A value that
a record gives for a declared column is stored with it, whether the row is new, written over
the stored one of its key, or connected through another column. So as long as a row carries
a value it is not refused for want of one.
-/

namespace RecordGraph

/-- A column of a record has a value, which is not null. -/
def Record.Has (record : Record) (column : String) : Prop :=
  ∃ v, record.get? column = some v ∧ v ≠ .null

/-- A refusal says that a required column has no value. -/
def Refusal.Misses (refusal : Refusal) (column : String) : Prop :=
  ∃ v ∈ refusal.violations, v.path = column ∧ v.kind.code = ViolationKind.notNull.code

/-- A row of a model, in key order and with a value in a column of the model. -/
structure Row.Carries (m : Model) (column : String) (row : Row) : Prop where
  model : row.model = m
  ordered : row.data.Ascending
  has : Record.Has row.data column

namespace Record

variable {record data : Record} {column other : String} {v : Value}

theorem has_iff_present? : Has record column ↔ ∃ v, Value.present? (record.get? column) = some v :=
  exists_congr fun _ => Value.present?_eq_some_iff.symm

theorem has_insert_self (nonnull : v ≠ .null) : Has (record.insert column v) column :=
  ⟨v, Dict.get?_insert_self .., nonnull⟩

theorem has_insert_of_ne (ne : column ≠ other) :
    Has (record.insert other v) column ↔ Has record column := by
  rw [Has, Has, Dict.get?_insert_of_ne record v ne]

/-- Whatever integer is inserted, a value stays or becomes the integer. -/
theorem Has.insert_ofInt (has : Has record column) (i : Int) :
    Has (record.insert other (.ofInt i)) column := by
  by_cases same : column = other
  · subst same
    exact has_insert_self nofun
  · exact (has_insert_of_ne same).mpr has

end Record

/-- A row carries its value while another column is written. -/
theorem Row.Carries.set_of_ne {m : Model} {row : Row} {column other : String}
    (carries : row.Carries m column) (ne : other ≠ column) (v : Value) :
    (row.set other v).Carries m column where
  model := carries.model
  ordered := Dict.ascending_insert _ _ carries.ordered
  has := (Record.has_insert_of_ne (Ne.symm ne)).mpr carries.has

namespace Table

variable {m : Model} {t t' : Table} {others : List StoredRow} {validate : Bool}
variable {data record : Record} {column : String} {refusal : Refusal}

/-- A given value is what every attribute of its name starts with. -/
theorem initialValue?_of_has {a : Attribute} {v : Value} (given : data.get? a.name = some v)
    (nonnull : v ≠ .null) : initialValue? data a = some v := by
  have present : v.isNull = false := by
    rw [← Bool.not_eq_true, Value.isNull_eq_true_iff]
    exact nonnull
  simp [initialValue?, given, present]

/-- A value that all attributes of a name start with is entered where there is one, and stays
from there on. -/
theorem get?_enterAll_of_starts {v : Value} (attributes : List Attribute)
    (starts : ∀ a ∈ attributes, a.name = column → initialValue? data a = some v)
    (there : (∃ a ∈ attributes, a.name = column) ∨ record.get? column = some v) :
    (attributes.foldl (enter data) record).get? column = some v := by
  induction attributes generalizing record with
  | nil => simpa using there
  | cons a rest ih =>
      obtain ⟨here, later⟩ := List.forall_mem_cons.mp starts
      refine ih later ?_
      by_cases same : a.name = column
      · subst same
        rw [enter, here rfl]
        exact .inr (Dict.get?_insert_self ..)
      · rcases there with ⟨b, member, named⟩ | entered
        · rcases List.mem_cons.mp member with rfl | later
          · exact absurd named same
          · exact .inl ⟨b, later, named⟩
        · refine .inr ?_
          rw [enter]
          split
          · rw [Dict.get?_insert_of_ne _ _ (Ne.symm same)]
            exact entered
          · exact entered

theorem has_numberAll (attributes : List Attribute) {state : Record × Int}
    (has : Record.Has state.1 column) : Record.Has (attributes.foldl number state).1 column := by
  induction attributes generalizing state with
  | nil => exact has
  | cons a rest ih =>
      refine ih ?_
      rw [number]
      split
      · exact has
      · exact has.insert_ofInt _

/-- A new record has what is given for a declared column. -/
theorem has_newRecord (declared : (m.attribute? column).isSome = true)
    (has : Record.Has data column) : Record.Has (newRecord m t data).1 column := by
  obtain ⟨v, given, nonnull⟩ := has
  refine has_numberAll _ ⟨v, ?_, nonnull⟩
  rw [initialRecord_eq]
  have starts : ∀ a ∈ m.attributes, a.name = column → initialValue? data a = some v :=
    fun a _ named => initialValue?_of_has (named ▸ given) nonnull
  exact get?_enterAll_of_starts m.attributes starts
    (.inl (List.mem_map.mp (Model.isSome_attribute?_iff.mp declared)))

/-- A record with a value is not refused for want of one. -/
theorem not_misses_of_check
    (refused : check m others validate record = .error (.validation refusal))
    (has : Record.Has record column) : ¬ refusal.Misses column := by
  rintro ⟨violation, listed, path, code⟩
  obtain ⟨a, _, made⟩ := mem_violations_of_check refused listed
  obtain ⟨v, present⟩ := Record.has_iff_present?.mp has
  rw [violations] at made
  split at made
  · -- only the attribute itself can be blamed, and it is not the column
    rename_i absent
    have named : violation.path = a.name := by
      split at made <;> simp_all
    rw [← named, path, present] at absent
    cases absent
  · rcases List.mem_append.mp made with text | unique
    · split at text
      · obtain rfl := List.mem_singleton.mp text
        simp [ViolationKind.code] at code
      · cases text
    · split at unique
      · obtain rfl := List.mem_singleton.mp unique
        simp [ViolationKind.code] at code
      · cases unique

theorem not_misses_of_insert (declared : (m.attribute? column).isSome = true)
    (has : Record.Has data column)
    (refused : t.insert m validate data = .error (.validation refusal)) :
    ¬ refusal.Misses column := by
  rw [Table.insert] at refused
  cases answer : accept m t validate (newRecord m t data).1 (newRecord m t data).2 with
  | ok _ =>
      simp only [answer, ok_bind] at refused
      cases refused
  | error err =>
      simp only [answer, error_bind] at refused
      cases refused
      exact not_misses_of_check (accept_refused answer) (has_newRecord declared has)

theorem has_extend_declared (declared : (m.attribute? column).isSome = true)
    (ordered : data.Ascending) (has : Record.Has data column) (row : StoredRow) :
    Record.Has (row.extend (Table.declared m data)).data column := by
  obtain ⟨v, given, nonnull⟩ := has
  exact ⟨v, Model.get?_extend_declared row ordered declared given, nonnull⟩

theorem not_misses_of_updateAt {index : Nat} (declared : (m.attribute? column).isSome = true)
    (ordered : data.Ascending) (has : Record.Has data column)
    (refused : t.updateAt m validate index data = .error (.validation refusal)) :
    ¬ refusal.Misses column := by
  rw [updateAt] at refused
  split at refused
  · cases refused
  · rename_i row _
    cases checked : check m (t.rows.eraseIdx index) validate
        (row.extend (Table.declared m data)).data with
    | ok _ =>
        simp only [checked, ok_bind] at refused
        cases refused
    | error err =>
        simp only [checked, error_bind] at refused
        cases refused
        exact not_misses_of_check checked (has_extend_declared declared ordered has row)

theorem unrefused_position? (m : Model) (t : Table) (key : Value) :
    Unrefused (t.position? m key) :=
  (unrefused_mapError nofun).bind fun _ => unrefused_ok _

end Table

namespace Linking

variable {m : Model} {column label : String} {row row' : Row} {linked : Linked Row}
variable {validate : Bool} {t t' : Table} {e e' : Engine} {record : Record} {refusal : Refusal}

/-- What storing a record over the one of its key does in a table. -/
def overwriting (m : Model) (validate : Bool) (key : Value) (data : Record) (t : Table) :
    Except StorageError (Record × Table) := do
  match ← t.position? m key with
  | some index => t.updateAt m validate index data
  | none => .error .notFound

/-- What storing a row does in the table of its model. -/
def storing (validate : Bool) (row : Row) : Table → Except StorageError (Record × Table) :=
  if row.isNew then (·.insert row.model validate row.data)
  else fun t => do
    let key ← storedKey row
    overwriting row.model validate key row.data t

theorem overwrite_eq (m : Model) (validate : Bool) (key : Value) (data : Record) :
    overwrite m validate key data = Engine.onTable m.name (overwriting m validate key data) := rfl

/-- A row that was stored holds what the table has. -/
theorem save_run_ok (done : storing validate row (e.database.openTable row.model.name) =
    .ok (record, t)) : save validate row e =
      ((.ok (), { row with data := record, isNew := false }), e.setTable row.model.name t) := by
  obtain ⟨m, data, isNew, related⟩ := row
  have written := congrArg (fun run => ((run.1, Row.mk m data isNew related), run.2))
    (Engine.onTable_run_ok done)
  rw [save, RowAction.bind_run_ok (RowAction.row_run e)]
  cases isNew with
  | true =>
      rw [if_pos rfl]
      exact RowAction.bind_run_ok written
  | false =>
      rw [if_neg Bool.false_ne_true]
      exact RowAction.bind_run_ok written

theorem save_run_error {err : StorageError}
    (failed : storing validate row (e.database.openTable row.model.name) = .error err) :
    save validate row e = ((.error err, row),
      e.setTable row.model.name (e.database.openTable row.model.name)) := by
  obtain ⟨m, data, isNew, related⟩ := row
  have written := congrArg (fun run => ((run.1, Row.mk m data isNew related), run.2))
    (Engine.onTable_run_error failed)
  rw [save, RowAction.bind_run_ok (RowAction.row_run e)]
  cases isNew with
  | true =>
      rw [if_pos rfl]
      exact RowAction.bind_run_error written
  | false =>
      rw [if_neg Bool.false_ne_true]
      exact RowAction.bind_run_error written

theorem not_misses_of_overwriting {key : Value} {data : Record}
    (declared : (m.attribute? column).isSome = true) (ordered : data.Ascending)
    (has : Record.Has data column)
    (refused : overwriting m validate key data t = .error (.validation refusal)) :
    ¬ refusal.Misses column := by
  obtain ⟨place, _, refused⟩ := (Table.unrefused_position? m t key).of_bind refused
  cases place with
  | none => cases refused
  | some index => exact Table.not_misses_of_updateAt declared ordered has refused

/-- What is stored of a row is in key order. -/
theorem ascending_of_storing (stored : t.Ordered)
    (done : storing validate row t = .ok (record, t')) : record.Ascending := by
  rw [storing] at done
  split at done
  · obtain ⟨_, _, answered⟩ := bind_eq_ok_iff.mp done
    cases answered
    exact Table.shapes_newRecord.ascending
  · obtain ⟨key, _, done⟩ := bind_eq_ok_iff.mp done
    obtain ⟨place, _, done⟩ := bind_eq_ok_iff.mp done
    cases place with
    | none => cases done
    | some index =>
        obtain ⟨old, found, _, rfl, _⟩ := Table.updateAt_ok done
        exact Dict.ascending_extend _ (stored old (List.mem_of_getElem? found))

/-- A row that was stored is one of its model, in key order. -/
theorem ordered_of_save (stored : e.Ordered) (done : save validate row e = ((.ok (), row'), e')) :
    row'.model = row.model ∧ row'.data.Ascending := by
  cases answered : storing validate row (e.database.openTable row.model.name) with
  | ok answer =>
      rw [save_run_ok answered] at done
      cases done
      exact ⟨rfl, ascending_of_storing (stored.current _) answered⟩
  | error err =>
      rw [save_run_error answered] at done
      cases done

section Storing

variable (declared : (m.attribute? column).isSome = true) (carries : row.Carries m column)
include declared carries

theorem not_misses_of_storing (refused : storing validate row t = .error (.validation refusal)) :
    ¬ refusal.Misses column := by
  obtain ⟨rfl, ordered, has⟩ := carries
  rw [storing] at refused
  split at refused
  · exact Table.not_misses_of_insert declared has refused
  · obtain ⟨key, _, refused⟩ := (unrefused_storedKey row).of_bind refused
    exact not_misses_of_overwriting declared ordered has refused

/-- What is stored of a row has the value that the row carries. -/
theorem has_of_storing (done : storing validate row t = .ok (record, t')) :
    Record.Has record column := by
  obtain ⟨rfl, ordered, has⟩ := carries
  rw [storing] at done
  split at done
  · obtain ⟨_, _, answered⟩ := bind_eq_ok_iff.mp done
    cases answered
    exact Table.has_newRecord declared has
  · obtain ⟨key, _, done⟩ := bind_eq_ok_iff.mp done
    obtain ⟨place, _, done⟩ := bind_eq_ok_iff.mp done
    cases place with
    | none => cases done
    | some index =>
        obtain ⟨old, found, _, rfl, _⟩ := Table.updateAt_ok done
        exact Table.has_extend_declared declared ordered has old

theorem not_misses_of_save (refused : (save validate row e).1.1 = .error (.validation refusal)) :
    ¬ refusal.Misses column := by
  cases done : storing validate row (e.database.openTable row.model.name) with
  | ok answer =>
      rw [save_run_ok done] at refused
      cases refused
  | error err =>
      rw [save_run_error done] at refused
      cases refused
      exact not_misses_of_storing declared carries done

/-- A row that was stored still carries its value. -/
theorem carries_of_save (stored : e.Ordered) (done : save validate row e = ((.ok (), row'), e')) :
    row'.Carries m column := by
  obtain ⟨model, ordered⟩ := ordered_of_save stored done
  cases answered : storing validate row (e.database.openTable row.model.name) with
  | ok answer =>
      rw [save_run_ok answered] at done
      cases done
      exact ⟨model.trans carries.model, ordered, has_of_storing declared carries answered⟩
  | error err =>
      rw [save_run_error answered] at done
      cases done

end Storing

theorem unrefused_itemKeys (pk : String) (items : List Row) : Unrefused (itemKeys pk items) := by
  refine Unrefused.mapM fun item => ?_
  rw [itemKey]
  split <;> nofun

theorem unrefused_sourceKey (m : Model) (data : Record) : Unrefused (sourceKey m data) := by
  refine (Loading.unrefused_primaryKey m).bind fun pk => ?_
  split <;> nofun

section Connecting

variable (carries : row.Carries m column) (apart : ∀ a, m.association? label = some a →
  a.kind = .belongsTo → e.registry.foreignKey m a ≠ column)
include carries apart

/-- Connecting a row writes nothing into it but the key column of an association that it
belongs to. -/
theorem not_misses_of_connect (declared : (m.attribute? column).isSome = true)
    (refused : (connect label linked row e).1.1 = .error (.validation refusal)) :
    ¬ refusal.Misses column := by
  obtain rfl := carries.model
  rw [connect, RowAction.bind_run_ok (RowAction.row_run e), RowAction.bind_run_ok rfl] at refused
  obtain ⟨a, association, refused⟩ :=
    (Loading.unrefused_association row.model label).of_lift_bind refused
  obtain ⟨target, _, refused⟩ := (Loading.unrefused_model a.target).of_lift_bind refused
  obtain ⟨pk, _, refused⟩ := (Loading.unrefused_primaryKey target).of_lift_bind refused
  obtain ⟨wanted, _, refused⟩ := (unrefused_itemKeys pk linked.toList).of_lift_bind refused
  cases kind : a.kind with
  | belongsTo =>
      have other := apart a (association_ok association) kind
      have after := carries.set_of_ne other (wanted.head?.getD .null)
      simp only [kind] at refused
      rw [RowAction.bind_run_ok (RowAction.modifyRow_run _ e),
        RowAction.bind_run_ok (RowAction.row_run e)] at refused
      obtain ⟨key, _, refused⟩ := (unrefused_sourceKey row.model _).of_lift_bind refused
      rw [RowAction.bind_run, RowAction.ofAction_run, overwrite_eq] at refused
      cases done : overwriting row.model false key
          (row.set (e.registry.foreignKey row.model a) (wanted.head?.getD .null)).data
          (e.database.openTable row.model.name) with
      | ok answer =>
          rw [Engine.onTable_run_ok done] at refused
          cases refused
      | error err =>
          rw [Engine.onTable_run_error done] at refused
          cases refused
          exact not_misses_of_overwriting declared after.ordered after.has done
  | hasOne | hasMany =>
      simp only [kind] at refused
      obtain ⟨key, _, refused⟩ := (unrefused_sourceKey row.model row.data).of_lift_bind refused
      cases refused
  | belongsToMany =>
      simp only [kind] at refused
      obtain ⟨key, _, refused⟩ := (unrefused_sourceKey row.model row.data).of_lift_bind refused
      cases join : a.through with
      | none =>
          rw [join] at refused
          cases refused
      | some through =>
          rw [join] at refused
          cases refused

theorem not_misses_of_setAssociation (declared : (m.attribute? column).isSome = true)
    (refused : (setAssociation label linked row e).1.1 = .error (.validation refusal)) :
    ¬ refusal.Misses column := by
  cases run : setAssociation label linked row e with
  | mk left e' =>
      rw [run] at refused
      obtain ⟨result, row'⟩ := left
      obtain rfl : result = .error (.validation refusal) := refused
      have failed := congrArg (·.1.1) (setAssociation_error run)
      exact not_misses_of_connect carries apart declared failed

/-- A row that was connected still carries its value. -/
theorem carries_of_setAssociation
    (done : setAssociation label linked row e = ((.ok (), row'), e')) : row'.Carries m column := by
  obtain rfl := carries.model
  obtain ⟨connected, connects, rfl⟩ := setAssociation_ok_iff.mp done
  obtain ⟨a, target, pk, wanted, ends, connects⟩ := connect_ok connects
  have after : connected.Carries row.model column := by
    cases connects with
    | belongsTo kind => exact carries.set_of_ne (apart a ends.association kind) _
    | pointed => exact carries
    | paired => exact carries
  exact ⟨after.model, after.ordered, after.has⟩

end Connecting

end Linking

end RecordGraph
