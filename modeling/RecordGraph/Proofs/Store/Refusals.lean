import RecordGraph.Proofs.Store.Overwriting
import RecordGraph.Proofs.Store.Pointing

/-!
# What a refused operation leaves of a row

A row in memory is stored, connected or read again. A step of these operations either reads
or is the last one, and then it does not fail; so an operation that is refused has left the
row as it was. There is one exception. A row that holds the key of its target has this key
written into it before it is stored, and keeps it if it cannot be stored.
-/

namespace RecordGraph

namespace RowAction

variable {σ α β : Type}

/-- A step leaves the row as it is. -/
def Reads (x : RowAction σ α) : Prop :=
  ∀ row s, (x row s).1.2 = row

/-- A step that fails has left the row as it was. -/
def Restrained (x : RowAction σ α) : Prop :=
  ∀ row s err, (x row s).1.1 = .error err → (x row s).1.2 = row

theorem reads_row : Reads (row : RowAction σ Row) :=
  fun _ _ => rfl

theorem reads_lift (x : Except StorageError α) : Reads (liftM x : RowAction σ α) :=
  fun _ _ => rfl

theorem reads_ofAction (x : Action σ α) : Reads (ofAction x) :=
  fun _ _ => rfl

theorem restrained_throw (err : StorageError) : Restrained (throw err : RowAction σ α) :=
  fun _ _ _ _ => rfl

theorem restrained_modifyRow (f : Row → Row) : Restrained (modifyRow f : RowAction σ Unit) :=
  fun _ _ _ failed => nomatch failed

/-- A restrained step may follow one that only reads. -/
theorem Reads.bind {x : RowAction σ α} {f : α → RowAction σ β} (reads : Reads x)
    (next : ∀ a, Restrained (f a)) : Restrained (x >>= f) := by
  intro row s err failed
  have same : (x row s).1.2 = row := reads row s
  rw [bind_run] at failed ⊢
  cases result : (x row s).1.1 with
  | error other => exact same
  | ok a =>
      simp only [result, same] at failed ⊢
      exact next a row _ err failed

end RowAction

namespace Linking

open RowAction

variable {e e' : Engine} {row row' : Row} {err : StorageError}

theorem restrained_save (validate : Bool) : Restrained (save validate) := by
  refine reads_row.bind fun row => ?_
  split
  · exact (reads_ofAction _).bind fun _ => restrained_modifyRow _
  · exact (reads_ofAction _).bind fun _ => restrained_modifyRow _

theorem restrained_reload (request : Request.Reload) : Restrained (reload request) := by
  refine reads_row.bind fun row => ?_
  refine (reads_ofAction get).bind fun e => ?_
  refine (reads_lift (storedKey row)).bind fun key => ?_
  refine (reads_lift (Loading.primaryKey row.model)).bind fun pk => ?_
  split
  · exact restrained_throw .notFound
  · exact (reads_lift _).bind fun _ => restrained_modifyRow _

/-- What can be done with a row in memory. -/
inductive Operation where
  | save (validate : Bool)
  | setAssociation (label : String) (linked : Linked Row)
  | reload (request : Request.Reload)

/-- Carry an operation out. -/
def Operation.perform : Operation → RowAction Engine Unit
  | .save validate => Linking.save validate
  | .setAssociation label linked => Linking.setAssociation label linked
  | .reload request => Linking.reload request

/-- An operation writes a value into a column of the row before it stores the row. -/
def Operation.Anticipates (r : Registry) (row : Row) (column : String) (v : Value) :
    Operation → Prop
  | .setAssociation label linked => ∃ a target pk wanted,
      Ends r row label linked a target pk wanted ∧ a.kind = .belongsTo ∧
        r.foreignKey row.model a = column ∧ wanted.head?.getD .null = v
  | _ => False

theorem Ends.eq {r : Registry} {label : String} {linked : Linked Row} {a a' : Association}
    {target target' : Model} {pk pk' : String} {wanted wanted' : List Value}
    (ends : Ends r row label linked a target pk wanted)
    (ends' : Ends r row label linked a' target' pk' wanted') : a = a' ∧ wanted = wanted' := by
  obtain rfl := Option.some.inj (ends.association.symm.trans ends'.association)
  obtain rfl := Option.some.inj (ends.registered.symm.trans ends'.registered)
  obtain rfl := Except.ok.inj (ends.primaryKey.symm.trans ends'.primaryKey)
  exact ⟨rfl, Except.ok.inj (ends.keys.symm.trans ends'.keys)⟩

/-- A row whose connection is refused is as it was, or it has the value that it is stored with. -/
theorem anticipates_of_refused {label : String} {linked : Linked Row}
    (failed : setAssociation label linked row e = ((.error err, row'), e')) :
    (row' = row ∧ ∀ column v, ¬ (Operation.setAssociation label linked).Anticipates e.registry row
      column v) ∨
    ∃ column v, row' = row.set column v ∧ ∀ column' v',
      (Operation.setAssociation label linked).Anticipates e.registry row column' v' ↔
        column = column' ∧ v = v' := by
  obtain ⟨rfl, unread⟩ | ⟨a, target, pk, wanted, ends, left⟩ :=
    (connect_error (setAssociation_error failed)).2
  · refine .inl ⟨rfl, ?_⟩
    rintro column v ⟨a, target, pk, wanted, ends, _⟩
    exact unread a target pk wanted ends
  by_cases kind : a.kind = .belongsTo
  · rw [if_pos kind] at left
    refine .inr ⟨_, _, left, fun column' v' => ⟨?_, ?_⟩⟩
    · rintro ⟨a', target', pk', wanted', ends', _, same, first⟩
      obtain ⟨rfl, rfl⟩ := ends.eq ends'
      exact ⟨same, first⟩
    · rintro ⟨same, first⟩
      exact ⟨a, target, pk, wanted, ends, kind, same, first⟩
  · rw [if_neg kind] at left
    refine .inl ⟨left, ?_⟩
    rintro column v ⟨a', target', pk', wanted', ends', kind', _⟩
    obtain ⟨rfl, _⟩ := ends.eq ends'
    exact kind kind'

theorem set_eq_self_iff {column : String} {v : Value} (ordered : row.data.Ascending) :
    row.set column v = row ↔ row.get? column = some v := by
  constructor
  · intro same
    rw [← same]
    exact Dict.get?_insert_self ..
  · intro there
    have same : row.data.insert column v = row.data := by
      refine Dict.ext_get? (Dict.ascending_insert _ _ ordered) ordered fun key => ?_
      rw [Dict.get?_insert]
      split
      · rename_i here
        exact here ▸ there.symm
      · rfl
    cases row
    exact congrArg (fun data => Row.mk _ data _ _) same

/-- An operation that is refused leaves the row as it was, with its values, its mark as a new
one and its related rows, but for the key of the target that it connects the row with, if it
is for the row to hold this key: that stays written into the row. So the row is as it was if
and only if it had that key before. -/
theorem refused_keeps_row_iff {op : Operation} (ordered : row.data.Ascending)
    (failed : op.perform row e = ((.error err, row'), e')) :
    (row' = row ∨ ∃ column v, op.Anticipates e.registry row column v ∧ row' = row.set column v) ∧
      (row' = row ↔
        ∀ column v, op.Anticipates e.registry row column v → row.get? column = some v) := by
  have unchanged (same : row' = row) (plain : ∀ column v, ¬ op.Anticipates e.registry row column v) :
      (row' = row ∨ ∃ column v, op.Anticipates e.registry row column v ∧ row' = row.set column v) ∧
        (row' = row ↔
          ∀ column v, op.Anticipates e.registry row column v → row.get? column = some v) :=
    ⟨.inl same, fun _ column v ahead => absurd ahead (plain column v), fun _ => same⟩
  have left : (op.perform row e).1.2 = row' := by rw [failed]
  have error : (op.perform row e).1.1 = .error err := by rw [failed]
  cases op with
  | save validate =>
      exact unchanged (left.symm.trans (restrained_save validate row e err error)) fun _ _ => id
  | reload request =>
      exact unchanged (left.symm.trans (restrained_reload request row e err error)) fun _ _ => id
  | setAssociation label linked =>
      obtain ⟨same, plain⟩ | ⟨column, v, rfl, ahead⟩ := anticipates_of_refused failed
      · exact unchanged same plain
      · refine ⟨.inr ⟨column, v, (ahead column v).mpr ⟨rfl, rfl⟩, rfl⟩, ?_⟩
        rw [set_eq_self_iff ordered]
        constructor
        · intro there column' v' ahead'
          obtain ⟨rfl, rfl⟩ := (ahead column' v').mp ahead'
          exact there
        · exact fun there => there column v ((ahead column v).mpr ⟨rfl, rfl⟩)

/-- A post that is not stored any more cannot be stored again, and stays what it is. -/
theorem refused_keeps_row_destroyed :
    let e := Command.run [.destroy post {}] posts
    let run := save true draft e
    run.1.1 = .error .notFound ∧ run.1.2 = draft := by
  intro e run
  have failed : (Operation.save true).perform draft e = ((.error .notFound, run.1.2), run.2) := rfl
  exact ⟨rfl, (refused_keeps_row_iff (by decide) failed).2.mpr fun _ _ ahead => ahead.elim⟩

/-- Nor can an author be stored with it, but it has the author from then on. -/
theorem refused_leaves_author :
    let e := Command.run [.destroy post {}] posts
    let run := setAssociation "author" (.one ada) draft e
    run.1.1 = .error .notFound ∧ draft.get? "authorId" = some .null ∧
      run.1.2.get? "authorId" = some (.ofInt 1) :=
  ⟨rfl, rfl, rfl⟩

end Linking

end RecordGraph
