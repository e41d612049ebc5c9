import RecordGraph.Proofs.Store.Connecting

/-!
# What holds a connection

Connecting a row leaves one thing that the connection hangs on: the key of the target in the
row itself, the key of the row in its targets, or the pairs of the two keys in a join table.
Whatever happens to the store later, the targets are reached from the row as long as that is
left alone.

This needs nothing of the tables. But a row that holds the key of its target needs a declared
column for it, and a join table needs a column for either end.
-/

namespace RecordGraph

/-- From one table to another one, records that have one of some keys keep what they have in a
column. -/
def Table.KeepsColumn (column pk : String) (keys : List Value) (t t' : Table) : Prop :=
  ∀ record ∈ t'.liveRecords, Linking.holdsAny record pk keys = true →
    ∃ before ∈ t.liveRecords, Linking.holdsAny before pk keys = true ∧
      record.get? column = before.get? column

namespace Linking

variable {r : Registry} {d d' : Database} {source target : Model} {a : Association}
variable {sourcePk targetPk : String} {key : Value} {keys : List Value}

/-- From every live record of the source with a key all live targets with some keys are
reached. -/
def Links (r : Registry) (d : Database) (source : Model) (a : Association) (target : Model)
    (sourcePk targetPk : String) (key : Value) (keys : List Value) : Prop :=
  ∀ data ∈ (d.openTable source.name).liveRecords, holdsAny data sourcePk [key] = true →
    ∀ record ∈ (d.openTable target.name).liveRecords, holdsAny record targetPk keys = true →
      record ∈ Loading.reached r d source a sourcePk targetPk data (d.openTable target.name)

/-- What the connection of a source of a key with the targets of some keys hangs on. -/
inductive Anchored (r : Registry) (d : Database) (source : Model) (a : Association)
    (target : Model) (sourcePk targetPk : String) (key : Value) (keys : List Value) : Prop where
  /-- The source holds the key. -/
  | held (kind : a.kind = .belongsTo)
      (holds : ∀ data ∈ (d.openTable source.name).liveRecords,
        holdsAny data sourcePk [key] = true →
          ∀ k ∈ keys, data.get? (r.foreignKey source a) = some k)
  /-- The targets hold the key of the source. -/
  | pointed (kind : a.kind.isOwnedByTarget = true)
      (holds : ∀ record ∈ (d.openTable target.name).liveRecords,
        holdsAny record targetPk keys = true → record.get? (r.foreignKey source a) = some key)
  /-- A join table has the pairs of the keys. -/
  | paired {through : String} (kind : a.kind = .belongsToMany) (join : a.through = some through)
      (pairs : ∀ k ∈ keys, ∃ pair ∈ (d.openTable through).liveRecords,
        pair.get? (r.foreignKey source a) = some key ∧ pair.get? a.joinTargetColumn = some k)

/-- From a database to a later one, what connects the source of a key with the targets of some
keys stays as it is: the column of the source, or that of these targets, or its pairs. -/
def Retains (r : Registry) (source : Model) (a : Association) (target : Model)
    (sourcePk targetPk : String) (key : Value) (keys : List Value) (d d' : Database) : Prop :=
  let column := r.foreignKey source a
  match a.kind with
  | .belongsTo =>
    (d.openTable source.name).KeepsColumn column sourcePk [key] (d'.openTable source.name)
  | .hasOne | .hasMany =>
    (d.openTable target.name).KeepsColumn column targetPk keys (d'.openTable target.name)
  | .belongsToMany =>
    ∀ through, a.through = some through → ∀ pair ∈ (d.openTable through).liveRecords,
      pair.get? column = some key →
        ∃ after ∈ (d'.openTable through).liveRecords, after.get? column = some key ∧
          after.get? a.joinTargetColumn = pair.get? a.joinTargetColumn

/-- The table that a connection hangs on. -/
def anchorTable (source : Model) (a : Association) (target : Model) : Option String :=
  match a.kind with
  | .belongsTo => some source.name
  | .hasOne | .hasMany => some target.name
  | .belongsToMany => a.through

theorem anchorTable_of_owned (kind : a.kind.isOwnedByTarget = true) :
    anchorTable source a target = some target.name := by
  cases owned : a.kind with
  | hasOne | hasMany => simp only [anchorTable, owned]
  | belongsTo | belongsToMany => simp [owned, AssociationKind.isOwnedByTarget] at kind

/-- A record with the key of the source has a key that is not null either. -/
theorem exists_key_of_holdsAny {data : Record} (holds : holdsAny data sourcePk [key] = true)
    (nonnull : key ≠ .null) :
    ∃ key', Value.present? (data.get? sourcePk) = some key' ∧ key.same key' = true := by
  obtain ⟨key', found, k, member, same⟩ := holdsAny_eq_true_iff.mp holds
  obtain rfl := List.mem_singleton.mp member
  exact ⟨key', present?_of_same found same nonnull, Value.same_comm key' k ▸ same⟩

/-- As long as what a connection hangs on stays, all of its targets are reached. -/
theorem Anchored.links (anchored : Anchored r d source a target sourcePk targetPk key keys)
    (keyed : key ≠ .null) (nonnull : ∀ k ∈ keys, k ≠ .null)
    (retains : Retains r source a target sourcePk targetPk key keys d d') :
    Links r d' source a target sourcePk targetPk key keys := by
  intro data there isSource record live isTarget
  obtain ⟨v, found, k, wanted, same⟩ := holdsAny_eq_true_iff.mp isTarget
  obtain ⟨key', present, same'⟩ := exists_key_of_holdsAny isSource keyed
  cases anchored with
  | held kind holds =>
      simp only [Retains, kind] at retains
      obtain ⟨before, member, was, column⟩ := retains data there isSource
      have held : Value.present? (data.get? (r.foreignKey source a)) = some k :=
        Value.present?_eq_some_iff.mpr
          ⟨column.trans (holds before member was k wanted), nonnull k wanted⟩
      simp only [Loading.reached, kind, held, Table.liveWhere_eq]
      exact List.mem_filter.mpr ⟨live,
        holdsAny_eq_true_iff.mpr ⟨v, found, k, List.mem_singleton_self k, same⟩⟩
  | pointed kind holds =>
      have keeps : (d.openTable target.name).KeepsColumn (r.foreignKey source a) targetPk keys
          (d'.openTable target.name) := by
        cases owned : a.kind with
        | hasOne | hasMany => simpa only [Retains, owned] using retains
        | belongsTo | belongsToMany => simp [owned, AssociationKind.isOwnedByTarget] at kind
      obtain ⟨before, member, was, column⟩ := keeps record live isTarget
      rw [Loading.reached_owned kind present, Table.liveWhere_eq]
      exact List.mem_filter.mpr ⟨live, holdsAny_eq_true_iff.mpr
        ⟨key, column.trans (holds before member was), key', List.mem_singleton_self key', same'⟩⟩
  | @paired through kind join pairs =>
      simp only [Retains, kind] at retains
      obtain ⟨pair, member, source_key, target_key⟩ := pairs k wanted
      obtain ⟨after, later, source_same, target_same⟩ :=
        retains through join pair member source_key
      simp only [Loading.reached, kind, present, join, Table.liveWhere_eq]
      refine List.mem_filter.mpr ⟨live, holdsAny_eq_true_iff.mpr ⟨v, found, k, ?_, same⟩⟩
      refine List.mem_filterMap.mpr ⟨after, List.mem_filter.mpr ⟨later, ?_⟩, ?_⟩
      · exact holdsAny_eq_true_iff.mpr
          ⟨key, source_same, key', List.mem_singleton_self key', same'⟩
      · exact target_same.trans target_key

/-- Whatever targets have one of the wanted keys after they were pointed at a source, they hold
its key, even if that is their own. -/
theorem get?_pointRow_of_holdsAny {pk column : String} {wanted : List Value} {stored : StoredRow}
    (nonnull : ∀ k ∈ wanted, k ≠ .null)
    (holds : holdsAny (pointRow pk column key wanted stored).data pk wanted = true) :
    (pointRow pk column key wanted stored).data.get? column = some key := by
  unfold pointRow at holds ⊢
  by_cases isWanted : holdsAny stored.data pk wanted = true
  · rw [if_pos isWanted]
    exact Dict.get?_insert_self ..
  · rw [if_neg isWanted] at holds
    split at holds
    · obtain ⟨v, found, k, member, same⟩ := holdsAny_eq_true_iff.mp holds
      rw [Dict.get?_insert] at found
      split at found
      · cases found
        simp [nonnull k member] at same
      · exact absurd (holdsAny_eq_true_iff.mpr ⟨v, found, k, member, same⟩) isWanted
    · exact absurd holds isWanted

/-- A record that was written over a row is the only one with its key, since that is checked: all
records that have the key hold what was written. -/
theorem get?_of_updateAt {m : Model} {pk : String} {validate : Bool} {index : Nat}
    {data changed : Record} {stored : StoredRow} {t t' : Table}
    (keyed : Loading.primaryKey m = .ok pk) (ordered : data.Ascending)
    (given : Value.present? (data.get? pk) = some key)
    (written : t.updateAt m validate index data = .ok (changed, t')) (member : stored ∈ t'.rows)
    (holds : holdsAny stored.data pk [key] = true) {column : String} {v : Value}
    (declared : (m.attribute? column).isSome = true) (there : data.get? column = some v) :
    stored.data.get? column = some v := by
  obtain ⟨old, found, checked, _, rfl⟩ := Table.updateAt_ok written
  obtain ⟨wanted, nonnull⟩ := Value.present?_eq_some_iff.mp given
  have own := Model.get?_extend_declared old ordered
    (Loading.isSome_attribute?_primaryKey keyed) wanted
  obtain ⟨key', present, same⟩ := exists_key_of_holdsAny holds nonnull
  obtain ⟨i, place⟩ := List.mem_iff_getElem?.mp member
  by_cases here : i = index
  · subst here
    rw [List.getElem?_set_self (List.getElem?_eq_some_iff.mp found).1] at place
    cases place
    exact Model.get?_extend_declared old ordered declared there
  · -- another row with the key would have been in the way
    rw [List.getElem?_set_ne (Ne.symm here)] at place
    obtain ⟨a, isDeclared, rfl, primary⟩ := Loading.exists_primary keyed
    have apart := Table.apart_of_check checked
      (List.mem_eraseIdx_iff_getElem?.mpr ⟨i, here, place⟩) a isDeclared
      (by simp [Attribute.isKey, primary]) key' key present
      (Value.present?_eq_some_iff.mpr ⟨own, nonnull⟩)
    rw [Value.same_comm, same] at apart
    cases apart

/-- There is room for a connection: a declared column in a source that holds the key of its target,
and a column for either end in a join table. -/
structure Anchorable (r : Registry) (source : Model) (a : Association) : Prop where
  declared : a.kind = .belongsTo → (source.attribute? (r.foreignKey source a)).isSome = true
  apart : a.kind = .belongsToMany → r.foreignKey source a ≠ a.joinTargetColumn

/-- A row that was connected has a key, and it is anchored. -/
theorem Connects.anchored {e e' : Engine} {row row' : Row}
    (connects : Connects e row a target targetPk (e.registry.foreignKey row.model a) keys row' e')
    (ordered : row.data.Ascending) (sourceKeyed : Loading.primaryKey row.model = .ok sourcePk)
    (nonnull : ∀ k ∈ keys, k ≠ .null) (single : a.kind.isToMany = false → keys.length ≤ 1) :
    ∃ key, Value.present? (row'.get? sourcePk) = some key ∧
      (Anchorable e.registry row.model a →
        Anchored e.registry e'.database row.model a target sourcePk targetPk key keys) := by
  cases connects with
  | @belongsTo key index record t kind keyed place written =>
      have given := (sourceKey_ok_iff sourceKeyed).mp keyed
      refine ⟨key, given, fun anchorable => .held kind fun data live isSource k member => ?_⟩
      obtain ⟨only, rfl⟩ := List.length_eq_one_iff.mp
        (Nat.le_antisymm (single (by rw [kind]; rfl)) (List.length_pos_of_mem member))
      obtain rfl := List.mem_singleton.mp member
      rw [Engine.setTable, Database.openTable_setTable_self] at live
      obtain ⟨stored, among, rfl⟩ := List.mem_map.mp live
      exact get?_of_updateAt sourceKeyed (Dict.ascending_insert _ _ ordered) given written
        (List.mem_filter.mp among).1 isSource (anchorable.declared kind) (Dict.get?_insert_self ..)
  | @pointed key kind keyed =>
      refine ⟨key, (sourceKey_ok_iff sourceKeyed).mp keyed,
        fun _ => .pointed kind fun record live wanted => ?_⟩
      rw [Engine.setTable, Database.openTable_setTable_self] at live
      obtain ⟨stored, among, rfl⟩ := List.mem_map.mp live
      obtain ⟨old, _, rfl⟩ := List.mem_map.mp (List.mem_filter.mp among).1
      exact get?_pointRow_of_holdsAny nonnull wanted
  | @paired key _ kind keyed join =>
      refine ⟨key, (sourceKey_ok_iff sourceKeyed).mp keyed,
        fun anchorable => .paired kind join fun k member => ?_⟩
      refine ⟨(pairRow (e.registry.foreignKey row.model a) a.joinTargetColumn key k).data,
        ?_, pairRow_source (anchorable.apart kind), pairRow_target⟩
      rw [Engine.setTable, Database.openTable_setTable_self]
      refine List.mem_map_of_mem (List.mem_filter.mpr ⟨?_, rfl⟩)
      rw [pairTargets_rows]
      exact List.mem_append_right _ (List.mem_map_of_mem member)

end Linking

end RecordGraph
