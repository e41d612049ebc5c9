import RecordGraph.Proofs.Data.Entries
import RecordGraph.Proofs.Store.Keys
import RecordGraph.Proofs.Store.Linking
import RecordGraph.Proofs.Store.Loading

/-!
# Connecting a row

A row is connected in three ways: its own column is written, or the column of the
targets, or the pairs in a join table. What these have in common is `Connected`: the
keys of all rows stay, and from the stored row exactly the live target rows with a wanted
key are reached. `Linkable` is what this relies on.
-/

namespace RecordGraph

/-- Models are registered under their names. -/
def Registry.Named (r : Registry) : Prop :=
  ∀ name m, r.get? name = some m → m.name = name

theorem Registry.named_nil : Registry.Named [] :=
  fun _ _ found => nomatch found

/-- Registering a model is what names it. -/
theorem Registry.Named.register {r r' : Registry} {m : Model} (named : r.Named)
    (done : r.register m = .ok r') : r'.Named := by
  intro name other found
  unfold Registry.register at done
  cases accepted : m.validate with
  | error err => simp [accepted] at done
  | ok _ =>
      simp only [accepted, ok_bind] at done
      split at done
      · cases done
      · cases done
        rw [Dict.get?_insert] at found
        split at found
        · cases found
          exact Eq.symm ‹_›
        · exact named name other found

namespace Linking

variable {e e' : Engine} {row row' : Row} {label : String} {linked : Linked Row}
variable {a : Association} {target : Model} {sourcePk targetPk : String} {key : Value}
variable {wanted : List Value}

/-- The connecting column is no key of the table that it is in, and a column of the source
is a declared one; a join table is a table of its own with a column for either end. -/
def FreeColumn (r : Registry) (source : Model) (a : Association) (target : Model)
    (sourcePk targetPk : String) : Prop :=
  match a.kind with
  | .belongsTo =>
    (source.attribute? (r.foreignKey source a)).isSome = true ∧ r.foreignKey source a ≠ sourcePk
  | .hasOne | .hasMany => r.foreignKey source a ≠ targetPk
  | .belongsToMany =>
    r.foreignKey source a ≠ a.joinTargetColumn ∧ a.through ≠ some source.name ∧
      a.through ≠ some target.name

/-- A row that can be connected with others: all of them are live rows of their tables, where
keys are unique, and the wanted rows are different ones. Other values than its key may
differ from the stored ones in any of these rows. -/
structure Linkable (e : Engine) (row : Row) (label : String) (items : List Row)
    (a : Association) (target : Model) (sourcePk targetPk : String) (key : Value) : Prop where
  named : e.registry.Named
  registered : e.registry.get? row.model.name = some row.model
  association : row.model.association? label = some a
  resolved : e.registry.get? a.target = some target
  sourceKeyed : Loading.primaryKey row.model = .ok sourcePk
  targetKeyed : Loading.primaryKey target = .ok targetPk
  sourceUnique : UniqueKey sourcePk ((e.database.openTable row.model.name).rows.map (·.data))
  targetUnique : UniqueKey targetPk ((e.database.openTable target.name).rows.map (·.data))
  free : FreeColumn e.registry row.model a target sourcePk targetPk
  ordered : row.data.Ascending
  keyed : Value.present? (row.get? sourcePk) = some key
  live : ∃ record ∈ (e.database.openTable row.model.name).liveRecords,
    record.get? sourcePk = some key
  stored : ∀ item ∈ items, ∃ record ∈ (e.database.openTable target.name).liveRecords,
    record.get? targetPk = item.get? targetPk
  distinct : (items.map (·.get? targetPk)).Nodup
  single : a.kind.isToMany = false → items.length ≤ 1

/-- What all ways of connecting have in common: the keys of all rows stay, and from the
stored row the live target rows with a wanted key are reached. -/
structure Connected (e e' : Engine) (row row' : Row) (a : Association) (target : Model)
    (sourcePk targetPk : String) (key : Value) (wanted : List Value) : Prop where
  registry : e'.registry = e.registry
  model : row'.model = row.model
  keyed : Value.present? (row'.get? sourcePk) = some key
  sourceKeys : Table.SameKeys sourcePk (e.database.openTable row.model.name)
    (e'.database.openTable row.model.name)
  targetKeys : Table.SameKeys targetPk (e.database.openTable target.name)
    (e'.database.openTable target.name)
  reached : ∀ data ∈ (e'.database.openTable row.model.name).liveRecords,
    data.get? sourcePk = some key →
      Loading.reached e'.registry e'.database row.model a sourcePk targetPk data
          (e'.database.openTable target.name) =
        (e'.database.openTable target.name).liveRecords.filter (holdsAny · targetPk wanted)

theorem itemKey_ok {item : Row} {pk : String} {k : Value} (h : itemKey pk item = .ok k) :
    item.get? pk = some k ∧ k ≠ .null := by
  unfold itemKey at h
  split at h
  · cases h
    exact Value.present?_eq_some_iff.mp ‹_›
  · cases h

theorem itemKeys_ok {items : List Row} {pk : String} (h : itemKeys pk items = .ok wanted) :
    items.map (·.get? pk) = wanted.map some ∧ ∀ k ∈ wanted, k ≠ .null := by
  induction items generalizing wanted with
  | nil =>
      cases h
      exact ⟨rfl, fun _ member => nomatch member⟩
  | cons item rest ih =>
      rw [itemKeys, List.mapM_cons] at h
      obtain ⟨k, first, h⟩ := bind_eq_ok_iff.mp h
      obtain ⟨ks, others, h⟩ := bind_eq_ok_iff.mp h
      cases h
      obtain ⟨found, nonnull⟩ := itemKey_ok first
      obtain ⟨keys, allNonnull⟩ := ih others
      exact ⟨by simp [found, keys], List.forall_mem_cons.mpr ⟨nonnull, allNonnull⟩⟩

theorem Linkable.sourcePk_eq {items : List Row}
    (h : Linkable e row label items a target sourcePk targetPk key)
    (same : row.model.name = target.name) : sourcePk = targetPk := by
  have named := h.named _ _ h.resolved
  have model : row.model = target := by
    have found := h.registered
    rw [same, named, h.resolved] at found
    exact (Option.some.inj found).symm
  have keyed := h.sourceKeyed
  rw [model, h.targetKeyed] at keyed
  exact (Except.ok.inj keyed).symm

section Pointed

variable {pk column other : String} {t : Table} {stored : StoredRow}

/-- What pointing at a source does to one row. -/
def pointRow (pk column : String) (key : Value) (wanted : List Value) (row : StoredRow) :
    StoredRow :=
  if holdsAny row.data pk wanted then { row with data := row.data.insert column key }
  else if row.has column key then { row with data := row.data.insert column .null }
  else row

theorem pointTargets_rows :
    (pointTargets pk column key wanted t).rows = t.rows.map (pointRow pk column key wanted) := rfl

@[simp] theorem pointRow_hidden :
    (pointRow pk column key wanted stored).hidden = stored.hidden := by
  unfold pointRow
  split
  · rfl
  · split <;> rfl

/-- Only the connecting column is written. -/
theorem pointRow_get? (ne : other ≠ column) :
    (pointRow pk column key wanted stored).data.get? other = stored.data.get? other := by
  unfold pointRow
  split
  · exact Dict.get?_insert_of_ne _ _ ne
  · split
    · exact Dict.get?_insert_of_ne _ _ ne
    · rfl

/-- A row holds the key of the source afterwards exactly if it was wanted. -/
theorem holdsAny_pointRow (nonnull : key ≠ .null) :
    holdsAny (pointRow pk column key wanted stored).data column [key] =
      holdsAny stored.data pk wanted := by
  unfold pointRow
  by_cases isWanted : holdsAny stored.data pk wanted = true
  · rw [if_pos isWanted, isWanted]
    simp [holdsAny]
  · rw [if_neg isWanted, Bool.eq_false_iff.mpr isWanted]
    by_cases holds : stored.has column key = true
    · have notNull : key.isNull = false :=
        Bool.eq_false_iff.mpr (mt Value.isNull_eq_true_iff.mp nonnull)
      simp [holds, holdsAny, notNull]
    · simp_all [holdsAny, StoredRow.has]

theorem sameKeys_pointTargets (ne : other ≠ column) :
    Table.SameKeys other t (pointTargets pk column key wanted t) := by
  rw [Table.SameKeys, pointTargets_rows, List.map_map]
  refine List.map_congr_left fun stored _ => ?_
  simp [pointRow_get? ne]

theorem liveWhere_pointTargets (nonnull : key ≠ .null) (ne : pk ≠ column) :
    (pointTargets pk column key wanted t).liveWhere column key =
      (pointTargets pk column key wanted t).liveRecords.filter (holdsAny · pk wanted) := by
  rw [Table.liveWhere_eq]
  refine List.filter_congr fun record member => ?_
  obtain ⟨pointed, live, rfl⟩ := List.mem_map.mp member
  have kept := (List.mem_filter.mp live).1
  rw [pointTargets_rows] at kept
  obtain ⟨stored, _, rfl⟩ := List.mem_map.mp kept
  rw [holdsAny_pointRow nonnull]
  simp only [holdsAny, pointRow_get? ne]

end Pointed

section Paired

variable {sourceColumn targetColumn : String} {t : Table} {v : Value}

/-- The row of a join table that connects two keys. -/
def pairRow (sourceColumn targetColumn : String) (key v : Value) : StoredRow :=
  { data := Dict.ofList [(sourceColumn, key), (targetColumn, v)] }

theorem pairTargets_rows : (pairTargets sourceColumn targetColumn key wanted t).rows =
    t.rows.filter (fun row => !row.has sourceColumn key) ++
      wanted.map (pairRow sourceColumn targetColumn key) := rfl

theorem pairRow_source (ne : sourceColumn ≠ targetColumn) :
    (pairRow sourceColumn targetColumn key v).data.get? sourceColumn = some key := by
  simp [pairRow, Dict.ofList, Dict.get?_insert, ne]

theorem pairRow_target :
    (pairRow sourceColumn targetColumn key v).data.get? targetColumn = some v := by
  simp [pairRow, Dict.ofList]

/-- The live rows of a key are those of its new pairs that hold it. -/
theorem liveWhere_pairTargets :
    (pairTargets sourceColumn targetColumn key wanted t).liveWhere sourceColumn key =
      ((wanted.map (pairRow sourceColumn targetColumn key)).filter
        (·.has sourceColumn key)).map (·.data) := by
  have old : ((t.rows.filter fun row => !row.has sourceColumn key).filter
      (fun row => !row.hidden)).filter (·.has sourceColumn key) = [] := by
    refine List.filter_eq_nil_iff.mpr fun row member => ?_
    have kept := (List.mem_filter.mp (List.mem_filter.mp member).1).2
    simpa using kept
  have live : (wanted.map (pairRow sourceColumn targetColumn key)).filter
      (fun row => !row.hidden) = wanted.map (pairRow sourceColumn targetColumn key) := by
    refine List.filter_eq_self.mpr fun row member => ?_
    obtain ⟨v, _, rfl⟩ := List.mem_map.mp member
    rfl
  rw [Table.liveWhere, Table.live, pairTargets_rows, List.filter_append, List.filter_append, old,
    live, List.nil_append]

/-- The live pairs of a key are the new ones, in the order in which they were wanted. -/
theorem partners_pairTargets (ne : sourceColumn ≠ targetColumn) :
    ((pairTargets sourceColumn targetColumn key wanted t).liveWhere sourceColumn key).filterMap
      (·.get? targetColumn) = wanted := by
  have new : (wanted.map (pairRow sourceColumn targetColumn key)).filter
      (·.has sourceColumn key) = wanted.map (pairRow sourceColumn targetColumn key) := by
    refine List.filter_eq_self.mpr fun row member => ?_
    obtain ⟨v, _, rfl⟩ := List.mem_map.mp member
    simp [StoredRow.has, pairRow_source ne]
  rw [liveWhere_pairTargets, new, List.filterMap_map, List.filterMap_map]
  simp [Function.comp_def, pairRow_target]

end Paired

section BelongsTo

variable {m : Model} {t t' : Table} {column : String} {index : Nat} {data record : Record}
variable {validate : Bool} {v : Value}

/-- A record that is stored over the one of its key is written into the live row that has
the key, and its declared values are read back from there. -/
theorem exists_overwritten {pk : String} (keyed : Loading.primaryKey m = .ok pk)
    (unique : UniqueKey pk (t.rows.map (·.data)))
    (live : ∃ record ∈ t.liveRecords, record.get? pk = some key) (nonnull : key ≠ .null)
    (ordered : data.Ascending) (given : data.get? pk = some key)
    (place : t.position? m key = .ok (some index))
    (written : t.updateAt m validate index data = .ok (record, t')) :
    ∃ old new, t.rows[index]? = some old ∧ new.hidden = old.hidden ∧
      old.data.get? pk = some key ∧ new.data.get? pk = some key ∧
      (∀ column v, (m.attribute? column).isSome = true → data.get? column = some v →
        new.data.get? column = some v) ∧
      t' = { t with rows := t.rows.set index new } := by
  obtain ⟨old, found, has⟩ := Table.position?_ok keyed place
  obtain ⟨_, found', _, _, rfl⟩ := Table.updateAt_ok written
  obtain rfl := Option.some.inj (found.symm.trans found')
  refine ⟨old, old.extend (Table.declared m data), found, rfl, ?_, ?_, ?_, rfl⟩
  · obtain ⟨live, member, live_key⟩ := live
    obtain ⟨w, at_old, same⟩ := (Table.has_eq_true_iff nonnull).mp has
    have at_index := List.mem_map_of_mem (f := (·.data)) (List.mem_of_getElem? found)
    rw [unique.eq_of_same at_index ((Table.liveRecords_sublist t).subset member) at_old
      (Value.present?_eq_some_iff.mpr ⟨live_key, nonnull⟩) same]
    exact live_key
  · exact Model.get?_extend_declared old ordered (Loading.isSome_attribute?_primaryKey keyed) given
  · intro column v declared given
    exact Model.get?_extend_declared old ordered declared given

end BelongsTo

theorem connected_belongsTo {items : List Row} {index : Nat} {record : Record} {t : Table}
    {other : Value} (h : Linkable e row label items a target sourcePk targetPk key)
    (kind : a.kind = .belongsTo) (nonnull : ∀ k ∈ wanted, k ≠ .null) (single : wanted.length ≤ 1)
    (source : sourceKey row.model
      (row.set (e.registry.foreignKey row.model a) (wanted.head?.getD .null)).data = .ok other)
    (place : (e.database.openTable row.model.name).position? row.model other = .ok (some index))
    (written : (e.database.openTable row.model.name).updateAt row.model false index
      (row.set (e.registry.foreignKey row.model a) (wanted.head?.getD .null)).data =
        .ok (record, t)) :
    Connected e (e.setTable row.model.name t) row
      (row.set (e.registry.foreignKey row.model a) (wanted.head?.getD .null)) a target sourcePk
      targetPk key wanted := by
  have free := h.free
  simp only [FreeColumn, kind] at free
  obtain ⟨declared, ne⟩ := free
  generalize column_eq : e.registry.foreignKey row.model a = column at *
  have keyed : Value.present?
      ((row.set column (wanted.head?.getD .null)).get? sourcePk) = some key := by
    rw [Row.get?, Row.set, Dict.get?_insert_of_ne _ _ (Ne.symm ne)]
    exact h.keyed
  obtain ⟨given, notNull⟩ := Value.present?_eq_some_iff.mp keyed
  obtain rfl := Option.some.inj (((sourceKey_ok_iff h.sourceKeyed).mp source).symm.trans keyed)
  obtain ⟨old, new, found, hidden, old_key, new_key, kept, rfl⟩ :=
    exists_overwritten h.sourceKeyed h.sourceUnique h.live notNull
      (Dict.ascending_insert _ _ h.ordered) given place written
  have new_column := kept column _ declared (Dict.get?_insert_self ..)
  have same := Table.sameKeys_set new found hidden (new_key.trans old_key.symm)
  refine ⟨rfl, rfl, keyed, Table.sameKeys_setTable fun _ => same,
    Table.sameKeys_setTable fun eq => ?_, ?_⟩
  · rw [← h.sourcePk_eq eq.symm]
    exact same
  · intro data member data_key
    rw [Engine.setTable, Database.openTable_setTable_self] at member
    have inside := (List.getElem?_eq_some_iff.mp found).1
    have at_index := List.mem_map_of_mem (f := (·.data))
      (List.mem_of_getElem? (List.getElem?_set_self (a := new) inside))
    have present {record : Record} (found : record.get? sourcePk = some other) :=
      Value.present?_eq_some_iff.mpr ⟨found, notNull⟩
    obtain rfl := (same.uniqueKey h.sourceUnique).eq_of_same
      ((Table.liveRecords_sublist _).subset member) at_index (present data_key) (present new_key)
      (Value.same_self other)
    simp only [Loading.reached, kind, Engine.setTable, column_eq, new_column]
    rcases wanted with _ | ⟨k, rest⟩
    · exact (List.filter_eq_nil_iff.mpr fun record _ => by simp [holdsAny]).symm
    · obtain rfl := List.eq_nil_of_length_eq_zero (Nat.le_zero.mp (Nat.le_of_succ_le_succ single))
      have found : Value.present? (some k) = some k :=
        Value.present?_eq_some_iff.mpr ⟨rfl, nonnull k (List.mem_singleton_self k)⟩
      simp only [List.head?_cons, Option.getD_some, found, Table.liveWhere_eq]

theorem connected_pointed {items : List Row} {other : Value}
    (h : Linkable e row label items a target sourcePk targetPk key)
    (kind : a.kind.isOwnedByTarget = true) (source : sourceKey row.model row.data = .ok other) :
    Connected e (e.setTable target.name
        (pointTargets targetPk (e.registry.foreignKey row.model a) other wanted
          (e.database.openTable target.name)))
      row row a target sourcePk targetPk key wanted := by
  have ne : e.registry.foreignKey row.model a ≠ targetPk := by
    have free := h.free
    cases owned : a.kind <;> simp_all [FreeColumn, AssociationKind.isOwnedByTarget]
  obtain rfl := Option.some.inj (((sourceKey_ok_iff h.sourceKeyed).mp source).symm.trans h.keyed)
  have nonnull := (Value.present?_eq_some_iff.mp h.keyed).2
  refine ⟨rfl, rfl, h.keyed, Table.sameKeys_setTable fun eq => ?_,
    Table.sameKeys_setTable fun _ => sameKeys_pointTargets (Ne.symm ne), ?_⟩
  · rw [h.sourcePk_eq eq]
    exact sameKeys_pointTargets (Ne.symm ne)
  · intro data _ data_key
    have present : Value.present? (data.get? sourcePk) = some other :=
      Value.present?_eq_some_iff.mpr ⟨data_key, nonnull⟩
    rw [Loading.reached_owned kind present, Engine.setTable, Database.openTable_setTable_self]
    exact liveWhere_pointTargets nonnull (Ne.symm ne)

theorem connected_paired {items : List Row} {other : Value} {through : String}
    (h : Linkable e row label items a target sourcePk targetPk key)
    (kind : a.kind = .belongsToMany) (source : sourceKey row.model row.data = .ok other)
    (join : a.through = some through) :
    Connected e (e.setTable through
        (pairTargets (e.registry.foreignKey row.model a) a.joinTargetColumn other wanted
          (e.database.openTable through)))
      row row a target sourcePk targetPk key wanted := by
  have free := h.free
  simp only [FreeColumn, kind, join, ne_eq, Option.some.injEq] at free
  obtain ⟨columns, notSource, notTarget⟩ := free
  obtain rfl := Option.some.inj (((sourceKey_ok_iff h.sourceKeyed).mp source).symm.trans h.keyed)
  refine ⟨rfl, rfl, h.keyed, Table.sameKeys_setTable fun eq => absurd eq.symm notSource,
    Table.sameKeys_setTable fun eq => absurd eq.symm notTarget, ?_⟩
  intro data _ data_key
  have present : Value.present? (data.get? sourcePk) = some other :=
    Value.present?_eq_some_iff.mpr ⟨data_key, (Value.present?_eq_some_iff.mp h.keyed).2⟩
  simp only [Loading.reached, kind, present, join, Engine.setTable,
    Database.openTable_setTable_self, partners_pairTargets columns]

end Linking

end RecordGraph
