import RecordGraph.Proofs.Store.Constraints

/-!
# Stored records are in key order

Every record that is stored has its keys in increasing order: a new one is built by
insertions, and whatever is written into one later is inserted, too. This holds of the rows
of any table, of join tables as well, and whatever commands a store goes through.
-/

namespace RecordGraph

namespace Table

variable {m : Model} {t t' : Table} {validate : Bool}

/-- The records of all rows, hidden ones included, are in key order. -/
def Ordered (t : Table) : Prop :=
  ∀ row ∈ t.rows, row.data.Ascending

theorem ordered_empty : Ordered {} :=
  fun _ member => nomatch member

theorem Ordered.insert {data record : Record} (ordered : t.Ordered)
    (done : t.insert m validate data = .ok (record, t')) : t'.Ordered := by
  obtain ⟨_, _, last⟩ := bind_eq_ok_iff.mp done
  cases last
  intro row member
  rcases List.mem_append.mp member with old | new
  · exact ordered row old
  · obtain rfl := List.mem_singleton.mp new
    exact shapes_newRecord.ascending

theorem Ordered.insertAll {inputs records : List Record} (ordered : t.Ordered)
    (done : t.insertAll m validate inputs = .ok (records, t')) : t'.Ordered := by
  induction inputs generalizing t records with
  | nil =>
      cases done
      exact ordered
  | cons data rest ih =>
      obtain ⟨⟨record, next⟩, first, done⟩ := bind_eq_ok_iff.mp done
      obtain ⟨⟨others, last⟩, remaining, done⟩ := bind_eq_ok_iff.mp done
      cases done
      exact ih (ordered.insert first) remaining

theorem Ordered.updateAt {index : Nat} {data record : Record} (ordered : t.Ordered)
    (done : t.updateAt m validate index data = .ok (record, t')) : t'.Ordered := by
  obtain ⟨old, found, _, _, rfl⟩ := updateAt_ok done
  intro row member
  rcases List.mem_or_eq_of_mem_set member with other | rfl
  · exact ordered row other
  · exact Dict.ascending_extend _ (ordered old (List.mem_of_getElem? found))

theorem Ordered.updateMany {indices : List Nat} {data : Record} (ordered : t.Ordered)
    (done : t.updateMany m validate indices data = .ok t') : t'.Ordered := by
  obtain ⟨_, _, last⟩ := bind_eq_ok_iff.mp done
  cases last
  exact forall_mem_modifyAll (fun _ before => Dict.ascending_extend _ before) ordered

/-- Every way of writing a table leaves its records in key order. -/
theorem Ordered.step (ordered : t.Ordered) (step : t.Step m t') : t'.Ordered := by
  cases step with
  | inserted done => exact ordered.insert done
  | insertedAll done => exact ordered.insertAll done
  | updatedAt done => exact ordered.updateAt done
  | updatedMany done => exact ordered.updateMany done
  | marked hidden indices => exact forall_mem_modifyAll (fun _ before => before) ordered
  | removed indices =>
      intro row member
      exact ordered row ((sublist_remove t indices).subset member)
  | cleared => exact fun _ member => nomatch member

theorem Ordered.pointTargets (ordered : t.Ordered) (pk column : String) (key : Value)
    (wanted : List Value) : (Linking.pointTargets pk column key wanted t).Ordered := by
  intro row member
  obtain ⟨old, stored, rfl⟩ := List.mem_map.mp member
  have before := ordered old stored
  split
  · exact Dict.ascending_insert _ _ before
  · split
    · exact Dict.ascending_insert _ _ before
    · exact before

theorem Ordered.pairTargets (ordered : t.Ordered) (sourceColumn targetColumn : String)
    (key : Value) (wanted : List Value) :
    (Linking.pairTargets sourceColumn targetColumn key wanted t).Ordered := by
  intro row member
  rcases List.mem_append.mp member with old | new
  · exact ordered row (List.mem_filter.mp old).1
  · obtain ⟨_, _, rfl⟩ := List.mem_map.mp new
    exact Dict.ascending_ofList _

end Table

namespace Database

variable {d : Database} {name : String} {t : Table}

/-- The records of all tables are in key order. -/
def Ordered (d : Database) : Prop :=
  ∀ name, (d.openTable name).Ordered

theorem Ordered.setTable (ordered : d.Ordered) (table : t.Ordered) :
    (d.setTable name t).Ordered := by
  intro other
  by_cases same : other = name
  · subst same
    rwa [openTable_setTable_self]
  · rw [openTable_setTable_of_ne d t same]
    exact ordered other

theorem Ordered.dropTable (ordered : d.Ordered) : (d.dropTable name).Ordered := by
  intro other
  by_cases same : other = name
  · simpa [openTable, Database.dropTable, Dict.get?_erase, same] using Table.ordered_empty
  · simpa [openTable, Database.dropTable, Dict.get?_erase, same] using ordered other

end Database

namespace Engine

variable {e : Engine} {d : Database} {id : Nat}

/-- The records of the database are in key order, and so are those that a transaction may
bring back. -/
structure Ordered (e : Engine) : Prop where
  current : e.database.Ordered
  snapshots : ∀ saved ∈ e.snapshots, saved.2.Ordered

theorem ordered_ofRegistry (r : Registry) : (ofRegistry r).Ordered where
  current _ := Table.ordered_empty
  snapshots _ member := nomatch member

theorem Ordered.setTable {t : Table} (ordered : e.Ordered) (name : String) (table : t.Ordered) :
    (e.setTable name t).Ordered :=
  ⟨ordered.current.setTable table, ordered.snapshots⟩

/-- Work on a table that leaves it in key order leaves the store so, and work that fails does. -/
theorem Ordered.onTable {α : Type} {name : String} {work : Table → Except StorageError (α × Table)}
    (ordered : e.Ordered) (keeps : ∀ t a t', t.Ordered → work t = .ok (a, t') → t'.Ordered) :
    (onTable name work e).2.Ordered := by
  have before := ordered.current name
  cases run : work (e.database.openTable name) with
  | error err =>
      rw [onTable_run_error run]
      exact ordered.setTable name before
  | ok answer =>
      rw [onTable_run_ok run]
      exact ordered.setTable name (keeps _ _ _ before run)

theorem Ordered.snapshot (ordered : e.Ordered) (found : e.snapshot? id = some d) : d.Ordered := by
  obtain ⟨saved, first, rfl⟩ := Option.map_eq_some_iff.mp found
  exact ordered.snapshots saved (List.mem_of_find?_eq_some first)

theorem Ordered.close (ordered : e.Ordered) : (e.close id).Ordered where
  current := ordered.current
  snapshots saved member := ordered.snapshots saved (List.mem_filter.mp member).1

end Engine

namespace Command

variable {e : Engine} {c : Command}

/-- What a command leaves is in key order, whether it connects rows or not and whether it
fails or not. -/
theorem Transition.ordered {left : Except StorageError Unit × Engine}
    (transition : Transition e c left) (ordered : e.Ordered) : left.2.Ordered := by
  have stays := ordered.current
  cases transition with
  | idle => exact ordered
  | refused m => exact ordered.setTable m.name (stays m.name)
  | wrote m _ step => exact ordered.setTable m.name ((stays m.name).step step)
  | dropped m => exact ⟨stays.dropTable, ordered.snapshots⟩
  | opened => exact ⟨stays, List.forall_mem_cons.mpr ⟨stays, ordered.snapshots⟩⟩
  | committed => exact ordered.close
  | rolledBack _ _ kept => exact ⟨ordered.snapshot kept, ordered.close.snapshots⟩
  | pointed _ name pk column key wanted =>
      exact ordered.setTable name ((stays name).pointTargets pk column key wanted)
  | paired _ name source target key wanted =>
      exact ordered.setTable name ((stays name).pairTargets source target key wanted)

end Command

end RecordGraph
