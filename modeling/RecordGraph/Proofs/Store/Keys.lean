import RecordGraph.Proofs.Data.Equality
import RecordGraph.Proofs.Store.Constraints
import RecordGraph.Store.Linking

/-!
# Finding records by their keys

Where no two records have the same value under a key, a value that one of them has
finds that record and no other, even though being the same value is not transitive.
So searching for a list of such values finds every one of them once.
-/

namespace RecordGraph

/-- Two look-ups do not answer the same value. -/
def Value.Differ (o p : Option Value) : Prop :=
  ∀ v w, Value.present? o = some v → Value.present? p = some w → v.same w = false

/-- No two records have the same value under a key. -/
def UniqueKey (key : String) (records : List Record) : Prop :=
  records.Pairwise fun x y => Value.Differ (x.get? key) (y.get? key)

theorem uniqueKey_iff {key : String} {records : List Record} :
    UniqueKey key records ↔ (records.map (·.get? key)).Pairwise Value.Differ :=
  List.pairwise_map.symm

/-- No two records have the same value under a key if one of them has a certain value there. -/
def SoleKey (key : String) (v : Value) (records : List Record) : Prop :=
  records.Pairwise fun x y =>
    Linking.holdsAny x key [v] = true ∨ Linking.holdsAny y key [v] = true →
      Value.Differ (x.get? key) (y.get? key)

theorem UniqueKey.soleKey {key : String} {records : List Record} (unique : UniqueKey key records)
    (v : Value) : SoleKey key v records := by
  refine List.Pairwise.imp ?_ unique
  exact fun differ _ => differ

section UniqueKey

variable {key : String} {records : List Record} {x y : Record} {v w : Value}

theorem UniqueKey.sublist {others : List Record} (unique : UniqueKey key records)
    (sub : others.Sublist records) : UniqueKey key others :=
  List.Pairwise.sublist sub unique

/-- A key attribute of a model is a unique key where the constraints are kept. -/
theorem Table.Keeps.uniqueKey {m : Model} {rows : List StoredRow} (kept : Table.Keeps m rows)
    {a : Attribute} (declared : a ∈ m.attributes) (isKey : a.isKey = true) :
    UniqueKey a.name (rows.map (·.data)) :=
  List.pairwise_map.mpr (kept.apart.imp fun apart => apart a declared isKey)

/-- The primary key of a model is the name of an attribute that is marked as one. -/
theorem Loading.exists_primary {m : Model} (keyed : Loading.primaryKey m = .ok key) :
    ∃ a ∈ m.attributes, a.name = key ∧ a.primaryKey = true := by
  unfold Loading.primaryKey Model.primaryKey at keyed
  cases found : m.attributes.find? (·.primaryKey) with
  | none =>
      rw [found] at keyed
      cases keyed
  | some a =>
      rw [found] at keyed
      cases keyed
      exact ⟨a, List.mem_of_find?_eq_some found, rfl, List.find?_some found⟩

theorem Loading.isSome_attribute?_primaryKey {m : Model}
    (keyed : Loading.primaryKey m = .ok key) : (m.attribute? key).isSome = true := by
  obtain ⟨a, declared, rfl, _⟩ := Loading.exists_primary keyed
  exact Model.isSome_attribute?_iff.mpr (List.mem_map_of_mem declared)

/-- The primary key of a registered model is unique where the constraints are kept. -/
theorem Engine.Keeps.uniqueKey {r : Registry} {e : Engine} {m : Model} (kept : e.Keeps r)
    (registered : r.get? m.name = some m) (keyed : Loading.primaryKey m = .ok key) :
    UniqueKey key ((e.database.openTable m.name).rows.map (·.data)) := by
  obtain ⟨a, declared, rfl, primary⟩ := Loading.exists_primary keyed
  have isKey : a.isKey = true := by simp [Attribute.isKey, primary]
  exact (kept.current.openTable registered).uniqueKey declared isKey

/-- Two records with the same value under the key are one. -/
theorem UniqueKey.eq_of_same (unique : UniqueKey key records) (hx : x ∈ records)
    (hy : y ∈ records) (hv : Value.present? (x.get? key) = some v)
    (hw : Value.present? (y.get? key) = some w) (same : v.same w = true) : x = y := by
  obtain ⟨i, hi, rfl⟩ := List.mem_iff_getElem.mp hx
  obtain ⟨j, hj, rfl⟩ := List.mem_iff_getElem.mp hy
  have apart := List.pairwise_iff_getElem.mp unique
  rcases Nat.lt_trichotomy i j with less | rfl | less
  · rw [apart i j hi hj less v w hv hw] at same
    cases same
  · rfl
  · rw [Value.same_comm, apart j i hj hi less w v hw hv] at same
    cases same

/-- Whether a record has one of some values under a key. -/
theorem holdsAny_eq_true_iff {wanted : List Value} : Linking.holdsAny x key wanted = true ↔
    ∃ v, x.get? key = some v ∧ ∃ k ∈ wanted, v.same k = true := by
  simp [Linking.holdsAny, Option.any_eq_true]

theorem holdsAny_self (found : x.get? key = some v) : Linking.holdsAny x key [v] = true :=
  holdsAny_eq_true_iff.mpr ⟨v, found, v, List.mem_singleton_self v, Value.same_self v⟩

/-- A value that is the same as one that is not null is not null. -/
theorem present?_of_same (found : x.get? key = some v) (same : v.same w = true)
    (nonnull : w ≠ .null) : Value.present? (x.get? key) = some v := by
  refine Value.present?_eq_some_iff.mpr ⟨found, ?_⟩
  rintro rfl
  simp [nonnull] at same

/-- A value that only one record has under the key finds this record only. -/
theorem SoleKey.filter_eq_singleton (sole : SoleKey key w records) (hx : x ∈ records)
    (hv : x.get? key = some v) (same : v.same w = true) (nonnull : v ≠ .null) :
    records.filter (Linking.holdsAny · key [v]) = [x] := by
  have present : Value.present? (x.get? key) = some v :=
    Value.present?_eq_some_iff.mpr ⟨hv, nonnull⟩
  have holds : Linking.holdsAny x key [v] = true := holdsAny_self hv
  have isSole : Linking.holdsAny x key [w] = true :=
    holdsAny_eq_true_iff.mpr ⟨v, hv, w, List.mem_singleton_self w, same⟩
  -- Wherever the record stands, what comes before it and after it is apart from it.
  obtain ⟨before, after, rfl⟩ := List.append_of_mem hx
  obtain ⟨_, rest, apart⟩ := List.pairwise_append.mp sole
  obtain ⟨later, _⟩ := List.pairwise_cons.mp rest
  have misses {y : Record} (different : ∀ u, Value.present? (y.get? key) = some u →
      u.same v = false) : Linking.holdsAny y key [v] = false := by
    refine Bool.eq_false_iff.mpr fun matched => ?_
    obtain ⟨u, hu, k, wanted, agrees⟩ := holdsAny_eq_true_iff.mp matched
    rw [List.mem_singleton.mp wanted] at agrees
    rw [different u (present?_of_same hu agrees nonnull)] at agrees
    cases agrees
  have none_before : before.filter (Linking.holdsAny · key [v]) = [] := by
    refine List.filter_eq_nil_iff.mpr fun y member => ?_
    rw [misses fun u hu => apart y member x List.mem_cons_self (.inr isSole) u v hu present]
    exact Bool.false_ne_true
  have none_after : after.filter (Linking.holdsAny · key [v]) = [] := by
    refine List.filter_eq_nil_iff.mpr fun y member => ?_
    rw [misses fun u hu => Value.same_comm u v ▸ later y member (.inl isSole) v u present hu]
    exact Bool.false_ne_true
  rw [List.filter_append, List.filter_cons, if_pos holds, none_before, none_after]
  rfl

/-- A value that a record has under the key finds this record only. -/
theorem UniqueKey.filter_eq_singleton (unique : UniqueKey key records) (hx : x ∈ records)
    (hv : x.get? key = some v) (nonnull : v ≠ .null) :
    records.filter (Linking.holdsAny · key [v]) = [x] :=
  (unique.soleKey v).filter_eq_singleton hx hv (Value.same_self v) nonnull

/-- Values that records have under the key find these records, each once. -/
theorem UniqueKey.perm_keys {wanted : List Value} (unique : UniqueKey key records)
    (nonnull : ∀ k ∈ wanted, k ≠ .null) (stored : ∀ k ∈ wanted, ∃ x ∈ records, x.get? key = some k)
    (nodup : wanted.Nodup) :
    ((records.filter (Linking.holdsAny · key wanted)).map (·.get? key)).Perm
      (wanted.map some) := by
  have found_nodup :
      ((records.filter (Linking.holdsAny · key wanted)).map (·.get? key)).Nodup := by
    refine List.pairwise_map.mpr ?_
    refine (unique.sublist List.filter_sublist).imp_of_mem fun {x y} hx _ apart equal => ?_
    obtain ⟨v, hv, k, hk, same⟩ := holdsAny_eq_true_iff.mp (List.mem_filter.mp hx).2
    have present := present?_of_same hv same (nonnull k hk)
    have differs := apart v v present (equal ▸ present)
    rw [Value.same_self] at differs
    cases differs
  have wanted_nodup : (wanted.map some).Nodup :=
    List.pairwise_map.mpr (nodup.imp fun ne equal => ne (Option.some.inj equal))
  refine (List.perm_ext_iff_of_nodup found_nodup wanted_nodup).mpr fun value => ?_
  rw [List.mem_map, List.mem_map]
  constructor
  · rintro ⟨x, member, rfl⟩
    obtain ⟨hx, matched⟩ := List.mem_filter.mp member
    obtain ⟨v, hv, k, hk, same⟩ := holdsAny_eq_true_iff.mp matched
    obtain ⟨y, hy, at_y⟩ := stored k hk
    have present := Value.present?_eq_some_iff.mpr ⟨at_y, nonnull k hk⟩
    obtain rfl := unique.eq_of_same hx hy (present?_of_same hv same (nonnull k hk)) present same
    exact ⟨k, hk, at_y.symm⟩
  · rintro ⟨k, hk, rfl⟩
    obtain ⟨y, hy, at_y⟩ := stored k hk
    refine ⟨y, List.mem_filter.mpr ⟨hy, ?_⟩, at_y⟩
    exact holdsAny_eq_true_iff.mpr ⟨k, at_y, k, hk, Value.same_self k⟩

end UniqueKey

namespace Table

variable {t t' : Table} {pk : String}

/-- The records that are read. -/
def liveRecords (t : Table) : List Record :=
  t.live.map (·.data)

theorem mem_liveRecords_iff {record : Record} :
    record ∈ t.liveRecords ↔ ∃ stored ∈ t.rows, stored.hidden = false ∧ stored.data = record := by
  simp [liveRecords, live, and_assoc]

theorem liveWhere_eq (t : Table) (key : String) (v : Value) :
    t.liveWhere key v = t.liveRecords.filter (Linking.holdsAny · key [v]) := by
  simp only [liveWhere, liveRecords, List.filter_map]
  congr 2
  funext row
  simp [StoredRow.has, Linking.holdsAny]

/-- The records that have one of some keys in a column are the same in two tables. -/
def SameWhere (column : String) (keys : List Value) (t t' : Table) : Prop :=
  t'.liveRecords.filter (Linking.holdsAny · column keys) =
    t.liveRecords.filter (Linking.holdsAny · column keys)

theorem SameWhere.liveWhere {column : String} {key : Value} (same : t.SameWhere column [key] t') :
    t'.liveWhere column key = t.liveWhere column key := by
  rw [liveWhere_eq, liveWhere_eq, same]

/-- The rows have the same values under a key as before, and the same are hidden. -/
def SameKeys (pk : String) (t t' : Table) : Prop :=
  t'.rows.map (fun row => (row.hidden, row.data.get? pk)) =
    t.rows.map (fun row => (row.hidden, row.data.get? pk))

theorem sameKeys_refl : SameKeys pk t t := rfl

theorem SameKeys.uniqueKey (same : SameKeys pk t t')
    (unique : UniqueKey pk (t.rows.map (·.data))) : UniqueKey pk (t'.rows.map (·.data)) := by
  have keys : (t'.rows.map (·.data)).map (·.get? pk) = (t.rows.map (·.data)).map (·.get? pk) := by
    simpa [Function.comp_def] using congrArg (List.map Prod.snd) same
  rw [uniqueKey_iff, keys]
  exact uniqueKey_iff.mp unique

theorem liveKeys_eq (t : Table) : t.liveRecords.map (·.get? pk) =
    ((t.rows.map fun row => (row.hidden, row.data.get? pk)).filter (!·.1)).map (·.2) := by
  simp [liveRecords, live, List.filter_map, Function.comp_def]

theorem SameKeys.liveKeys (same : SameKeys pk t t') :
    t'.liveRecords.map (·.get? pk) = t.liveRecords.map (·.get? pk) := by
  rw [liveKeys_eq, same, liveKeys_eq]

/-- A key that a live record has is still that of a live record. -/
theorem SameKeys.exists_live (same : SameKeys pk t t') {o : Option Value}
    (live : ∃ record ∈ t.liveRecords, record.get? pk = o) :
    ∃ record ∈ t'.liveRecords, record.get? pk = o := by
  have key : o ∈ t.liveRecords.map (·.get? pk) := List.mem_map.mpr live
  rw [← same.liveKeys] at key
  exact List.mem_map.mp key

theorem liveRecords_sublist (t : Table) : t.liveRecords.Sublist (t.rows.map (·.data)) :=
  List.filter_sublist.map _

/-- The first row with a key is the one that has it. -/
theorem position?_ok {m : Model} {key : Value} {index : Nat} (keyed : Loading.primaryKey m = .ok pk)
    (place : t.position? m key = .ok (some index)) :
    ∃ row, t.rows[index]? = some row ∧ row.has pk key = true := by
  unfold Table.position? at place
  obtain ⟨_, same, place⟩ := bind_eq_ok_iff.mp place
  cases Except.ok.inj (keyed.symm.trans same)
  have place := Except.ok.inj place
  obtain ⟨inside, has, _⟩ := List.findIdx?_eq_some_iff_getElem.mp place
  exact ⟨_, List.getElem?_eq_getElem inside, has⟩

theorem sameKeys_set {index : Nat} {old : StoredRow} (new : StoredRow)
    (found : t.rows[index]? = some old) (hidden : new.hidden = old.hidden)
    (same : new.data.get? pk = old.data.get? pk) :
    SameKeys pk t { t with rows := t.rows.set index new } := by
  obtain ⟨inside, _⟩ := List.getElem?_eq_some_iff.mp found
  refine List.ext_getElem? fun i => ?_
  rw [List.getElem?_map, List.getElem?_map]
  by_cases here : index = i
  · subst here
    rw [List.getElem?_set_self inside, found]
    simp [hidden, same]
  · rw [List.getElem?_set_ne here]

theorem sameKeys_setTable {d : Database} {name other : String}
    (same : other = name → SameKeys pk (d.openTable name) t) :
    SameKeys pk (d.openTable other) ((d.setTable name t).openTable other) := by
  by_cases h : other = name
  · subst h
    rw [Database.openTable_setTable_self]
    exact same rfl
  · rw [Database.openTable_setTable_of_ne _ _ h]
    exact sameKeys_refl

end Table

end RecordGraph
