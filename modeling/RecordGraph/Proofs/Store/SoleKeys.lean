import RecordGraph.Proofs.Store.Anchoring
import RecordGraph.Proofs.Store.RowWrites

/-!
# Keys that no other row gets

A new row is checked beside all rows of its table, hidden ones included, so it is the only one
with its key. It stays the only one: whatever is stored is checked in the same way. What is not
checked is the column that connecting writes into targets or into a join table. So the key of
the row is that of no other one as long as this column is not that of the key. This is so
whatever keys the other rows have among themselves.
-/

namespace RecordGraph

namespace Table

variable {m : Model} {pk : String} {key : Value} {t t' : Table} {data record : Record}

/-- Only one row has the key of a new row. -/
theorem soleKey_insert {validate : Bool} (keyed : Loading.primaryKey m = .ok pk)
    (found : record.get? pk = some key) (nonnull : key ≠ .null)
    (done : t.insert m validate data = .ok (record, t')) :
    SoleKey pk key (t'.rows.map (·.data)) := by
  obtain ⟨-, checked, rows⟩ := insert_ok done
  obtain ⟨a, declared, rfl, primary⟩ := Loading.exists_primary keyed
  have isKey : a.isKey = true := by simp [Attribute.isKey, primary]
  have present := Value.present?_eq_some_iff.mpr ⟨found, nonnull⟩
  have free (row : StoredRow) (member : row ∈ t.rows) :
      Linking.holdsAny row.data a.name [key] = false := by
    refine Bool.eq_false_iff.mpr fun holds => ?_
    obtain ⟨v, hv, k, wanted, same⟩ := holdsAny_eq_true_iff.mp holds
    obtain rfl := List.mem_singleton.mp wanted
    have apart := apart_of_check checked member a declared isKey v k
      (present?_of_same hv same nonnull) present
    rw [same] at apart
    cases apart
  rw [rows]
  refine List.pairwise_map.mpr (List.pairwise_append.mpr ⟨?_, List.pairwise_singleton _ _, ?_⟩)
  · refine List.pairwise_of_forall_mem_list fun x hx y hy holds => ?_
    simp [free x hx, free y hy] at holds
  · intro x old y new _
    obtain rfl := List.mem_singleton.mp new
    exact apart_of_check checked old a declared isKey

/-- All writing that is checked leaves a sole key what it is. -/
theorem Step.soleKey (step : t.Step m t') (keyed : Loading.primaryKey m = .ok pk)
    (sole : SoleKey pk key (t.rows.map (·.data))) : SoleKey pk key (t'.rows.map (·.data)) := by
  obtain ⟨a, declared, rfl, primary⟩ := Loading.exists_primary keyed
  have isKey : a.isKey = true := by simp [Attribute.isKey, primary]
  refine List.pairwise_map.mpr (step.pairwise ?_ ?_ (List.pairwise_map.mp sole))
  · intro x y differ holds v w hv hw
    rw [Value.same_comm]
    exact differ holds.symm w v hw hv
  · exact fun x y apart _ => apart a declared isKey

/-- Pointing targets at a source does, unless the column is that of the key. -/
theorem soleKey_pointTargets {targetPk column : String} {k : Value} {wanted : List Value}
    (ne : column ≠ pk) (sole : SoleKey pk key (t.rows.map (·.data))) :
    SoleKey pk key ((Linking.pointTargets targetPk column k wanted t).rows.map (·.data)) := by
  rw [Linking.pointTargets_rows, List.map_map]
  refine List.pairwise_map.mpr ((List.pairwise_map.mp sole).imp ?_)
  simp only [Function.comp_apply, Linking.holdsAny, Linking.pointRow_get? (Ne.symm ne)]
  exact fun differ => differ

/-- Pairs have no key if neither of their columns is that of the key. -/
theorem soleKey_pairTargets {sourceColumn targetColumn : String} {k : Value} {wanted : List Value}
    (source : sourceColumn ≠ pk) (target : targetColumn ≠ pk)
    (sole : SoleKey pk key (t.rows.map (·.data))) :
    SoleKey pk key ((Linking.pairTargets sourceColumn targetColumn k wanted t).rows.map
      (·.data)) := by
  have keyless {pair : StoredRow}
      (new : pair ∈ wanted.map (Linking.pairRow sourceColumn targetColumn k)) :
      pair.data.get? pk = none := by
    obtain ⟨v, -, rfl⟩ := List.mem_map.mp new
    simp [Linking.pairRow, Dict.ofList, Dict.get?_insert, Ne.symm source, Ne.symm target]
  rw [Linking.pairTargets_rows]
  refine List.pairwise_map.mpr (List.pairwise_append.mpr ⟨?_, ?_, ?_⟩)
  · exact (List.pairwise_map.mp sole).sublist List.filter_sublist
  · refine List.pairwise_of_forall_mem_list fun x hx y _ _ v w hv _ => ?_
    rw [keyless hx] at hv
    cases hv
  · intro x _ y hy _ v w _ hw
    rw [keyless hy] at hw
    cases hw

end Table

/-- Connecting a source by an association writes another column of a table than a certain one, if
it writes this table at all. -/
def Linking.SparesColumn (r : Registry) (source : Model) (a : Association) (target : Model)
    (name column : String) : Prop :=
  anchorTable source a target = some name →
    r.foreignKey source a ≠ column ∧ (a.kind = .belongsToMany → a.joinTargetColumn ≠ column)

namespace Command

variable {e : Engine} {c : Command} {m : Model} {row : Row} {pk : String} {key : Value} {t : Table}

/-- A key that only one row of the table of a model has is not given to another one by storing or
connecting a row, if only rows of the model are stored in its table and connecting spares the
column of the key. -/
theorem soleKey_perform (keyed : Loading.primaryKey m = .ok pk) (on : c.row? = some row)
    (own : row.model.name = m.name → row.model = m)
    (spares : ∀ label linked a target, c = .setAssociation row label linked →
      row.model.association? label = some a → e.registry.get? a.target = some target →
        Linking.SparesColumn e.registry row.model a target m.name pk)
    (sole : SoleKey pk key ((e.database.openTable m.name).rows.map (·.data))) :
    SoleKey pk key (((c.perform e).2.database.openTable m.name).rows.map (·.data)) := by
  refine openTable_perform (P := fun t => SoleKey pk key (t.rows.map (·.data))) on sole
    fun t sets => ?_
  generalize m.name = name at sets sole own spares
  cases sets with
  | @saved row validate record t stored =>
      cases on
      obtain rfl := own rfl
      rw [Linking.storing] at stored
      split at stored
      · exact (Table.Step.inserted stored).soleKey keyed sole
      · obtain ⟨_, _, stored⟩ := bind_eq_ok_iff.mp stored
        obtain ⟨place, _, stored⟩ := bind_eq_ok_iff.mp stored
        cases place with
        | none => cases stored
        | some index => exact (Table.Step.updatedAt stored).soleKey keyed sole
  | held ends kind source place written =>
      cases on
      obtain rfl := own rfl
      exact (Table.Step.updatedAt written).soleKey keyed sole
  | @pointed row label linked a target _ wanted _ ends kind source =>
      cases on
      have anchor : Linking.anchorTable row.model a target = some target.name :=
        Linking.anchorTable_of_owned kind
      obtain ⟨column, -⟩ := spares label linked a target rfl ends.association ends.registered anchor
      exact Table.soleKey_pointTargets column sole
  | @paired row label linked a target _ _ wanted _ ends kind source join =>
      cases on
      have anchor : Linking.anchorTable row.model a target = some name := by
        simp only [Linking.anchorTable, kind, join]
      obtain ⟨column, other⟩ :=
        spares label linked a target rfl ends.association ends.registered anchor
      exact Table.soleKey_pairTargets column (other kind) sole

end Command

end RecordGraph
