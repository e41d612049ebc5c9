import RecordGraph.Proofs.Store.Replacement

/-!
# What connecting a row leaves of the constraints

Connecting a row writes tables in three ways, and only one of them is checked: the record of
a row that belongs to another is stored like any update. The key of a source is written into
its targets, and null into the targets it gives up, without looking at the model of the
target; and the pairs of a join table are added without looking at the model of this table,
if there is one.

So in a store that complies with its models, connecting a row complies with them exactly
where what is written fits: `PointsFit` says so of targets and `PairsFit` of join tables.
-/

namespace RecordGraph

/-- A record without undeclared keys, and with a value wherever null is refused. -/
structure Model.Admits (m : Model) (record : Record) : Prop where
  declared : ∀ key ∈ record.keys, (m.attribute? key).isSome = true
  present : ∀ a ∈ m.attributes, a.refusesNull = true →
    (Value.present? (record.get? a.name)).isSome = true

namespace Table

variable {m : Model} {t t' : Table} {rows rows' : List StoredRow} {record data : Record}

/-- Rows that a model admits, of which no two share a key. -/
structure Complies (m : Model) (rows : List StoredRow) : Prop where
  admits : ∀ row ∈ rows, m.Admits row.data
  apart : rows.Pairwise fun x y => m.Apart x.data y.data

theorem Keeps.complies (kept : Keeps m rows) : Complies m rows where
  admits row member :=
    have fits := kept.fits row member
    ⟨fun key there => (fits.keys key).mp there, fits.present⟩
  apart := kept.apart

theorem Complies.sublist (h : Complies m rows) (sub : rows'.Sublist rows) : Complies m rows' :=
  ⟨fun row member => h.admits row (sub.subset member), h.apart.sublist sub⟩

/-- A checked update of one row complies with the model. -/
theorem Complies.updateAt {validate : Bool} {index : Nat} (h : Complies m t.rows)
    (done : t.updateAt m validate index data = .ok (record, t')) : Complies m t'.rows := by
  have apart := (Step.updatedAt done).pairwise (fun _ _ => Model.Apart.symm) (fun _ _ h => h) h.apart
  refine ⟨?_, apart⟩
  obtain ⟨row, found, checked, _, rfl⟩ := updateAt_ok done
  have before : m.Admits row.data := h.admits row (List.mem_of_getElem? found)
  intro other member
  rcases List.mem_or_eq_of_mem_set member with old | rfl
  · exact h.admits other old
  · refine ⟨fun key there => ?_, fun a => present_of_check checked⟩
    rcases Dict.mem_keys_extend.mp there with written | kept
    · rw [Dict.mem_keys_iff, Model.get?_declared] at written
      split at written
      · assumption
      · cases written
    · exact before.declared key kept

end Table

namespace Linking

variable {m : Model} {key : Value} {wanted : List Value} {t : Table}

section Pointed

variable {pk column : String} {row x y : StoredRow}

/-- The key of a source fits into the column of its targets: the column is declared if there
is a target, no row gives the key up where null is refused, and where the column is a key at
most one row takes it. -/
structure PointsFit (m : Model) (pk column : String) (key : Value) (wanted : List Value)
    (rows : List StoredRow) : Prop where
  declared : ∀ row ∈ rows, holdsAny row.data pk wanted = true →
    (m.attribute? column).isSome = true
  held : ∀ a ∈ m.attributes, a.name = column → a.refusesNull = true →
    ∀ row ∈ rows, row.has column key = true → holdsAny row.data pk wanted = true
  single : ∀ a ∈ m.attributes, a.name = column → a.isKey = true →
    rows.Pairwise fun x y => ¬ (holdsAny x.data pk wanted = true ∧ holdsAny y.data pk wanted = true)

/-- What stands in the connecting column of a row afterwards. -/
theorem present?_pointRow (nonnull : key ≠ .null) :
    Value.present? ((pointRow pk column key wanted row).data.get? column) =
      if holdsAny row.data pk wanted then some key
      else (Value.present? (row.data.get? column)).filter fun v => !v.same key := by
  rw [pointRow]
  by_cases isWanted : holdsAny row.data pk wanted = true
  · rw [if_pos isWanted, if_pos isWanted, Dict.get?_insert_self]
    exact Value.present?_eq_some_iff.mpr ⟨rfl, nonnull⟩
  · rw [if_neg isWanted, if_neg isWanted]
    by_cases holds : row.has column key = true
    · obtain ⟨v, there, same⟩ := (Table.has_eq_true_iff nonnull).mp holds
      rw [if_pos holds, Dict.get?_insert_self, there, Value.present?_null, Option.filter_some,
        if_neg (by simp [same])]
    · rw [if_neg holds]
      cases there : Value.present? (row.data.get? column) with
      | none => rfl
      | some v =>
          have differs : v.same key = false := Bool.eq_false_iff.mpr fun same =>
            holds ((Table.has_eq_true_iff nonnull).mpr ⟨v, there, same⟩)
          rw [Option.filter_some, if_pos (by simp [differs])]

/-- Two rows stay apart unless both take the key. -/
theorem apart_pointRow (nonnull : key ≠ .null) (apart : m.Apart x.data y.data)
    (single : ∀ a ∈ m.attributes, a.name = column → a.isKey = true →
      ¬ (holdsAny x.data pk wanted = true ∧ holdsAny y.data pk wanted = true)) :
    m.Apart (pointRow pk column key wanted x).data (pointRow pk column key wanted y).data := by
  intro a declared isKey v w hv hw
  by_cases here : a.name = column
  · have notBoth := single a declared here isKey
    rw [here, present?_pointRow nonnull] at hv hw
    by_cases hx : holdsAny x.data pk wanted = true
    · have hy : ¬ holdsAny y.data pk wanted = true := fun hy => notBoth ⟨hx, hy⟩
      rw [if_pos hx] at hv
      rw [if_neg hy, Option.filter_eq_some_iff] at hw
      obtain rfl := Option.some.inj hv
      rw [Value.same_comm]
      simpa using hw.2
    · rw [if_neg hx, Option.filter_eq_some_iff] at hv
      by_cases hy : holdsAny y.data pk wanted = true
      · rw [if_pos hy] at hw
        obtain rfl := Option.some.inj hw
        simpa using hv.2
      · rw [if_neg hy, Option.filter_eq_some_iff] at hw
        exact apart a declared isKey v w (here ▸ hv.1) (here ▸ hw.1)
  · rw [pointRow_get? here] at hv hw
    exact apart a declared isKey v w hv hw

theorem mem_keys_pointRow {k : String} (there : k ∈ (pointRow pk column key wanted row).data.keys) :
    k ∈ row.data.keys ∨
      k = column ∧ (holdsAny row.data pk wanted = true ∨ row.has column key = true) := by
  rw [pointRow] at there
  split at there
  · rcases Dict.mem_keys_insert.mp there with rfl | old
    · exact .inr ⟨rfl, .inl ‹_›⟩
    · exact .inl old
  · split at there
    · rcases Dict.mem_keys_insert.mp there with rfl | old
      · exact .inr ⟨rfl, .inr ‹_›⟩
      · exact .inl old
    · exact .inl there

theorem mem_keys_of_has {k : String} (holds : row.has k key = true) : k ∈ row.data.keys := by
  rw [Dict.mem_keys_iff]
  rw [StoredRow.has] at holds
  cases found : row.data.get? k with
  | none => simp [found] at holds
  | some v => rfl

theorem admits_pointRow (nonnull : key ≠ .null) (admits : m.Admits row.data)
    (declared : holdsAny row.data pk wanted = true → (m.attribute? column).isSome = true)
    (held : ∀ a ∈ m.attributes, a.name = column → a.refusesNull = true →
      row.has column key = true → holdsAny row.data pk wanted = true) :
    m.Admits (pointRow pk column key wanted row).data := by
  constructor
  · intro k there
    rcases mem_keys_pointRow there with old | ⟨rfl, isWanted | holds⟩
    · exact admits.declared k old
    · exact declared isWanted
    · exact admits.declared k (mem_keys_of_has holds)
  · intro a member refuses
    have before := admits.present a member refuses
    by_cases here : a.name = column
    · rw [here, present?_pointRow nonnull]
      by_cases isWanted : holdsAny row.data pk wanted = true
      · rw [if_pos isWanted]
        rfl
      · obtain ⟨v, there⟩ := Option.isSome_iff_exists.mp (here ▸ before)
        have differs : v.same key = false := Bool.eq_false_iff.mpr fun same =>
          isWanted (held a member here refuses
            ((Table.has_eq_true_iff nonnull).mpr ⟨v, there, same⟩))
        simp [isWanted, there, differs]
    · rw [pointRow_get? here]
      exact before

/-- The targets of a source comply with their model exactly if its key fits. -/
theorem complies_pointTargets_iff (h : Table.Complies m t.rows) (nonnull : key ≠ .null) :
    Table.Complies m (pointTargets pk column key wanted t).rows ↔
      PointsFit m pk column key wanted t.rows := by
  rw [pointTargets_rows]
  constructor
  · intro after
    have pointed : ∀ row ∈ t.rows, m.Admits (pointRow pk column key wanted row).data :=
      fun row member => after.admits _ (List.mem_map_of_mem member)
    constructor
    · intro row member isWanted
      apply (pointed row member).declared
      apply Dict.mem_keys_iff.mpr
      rw [pointRow, if_pos isWanted, Dict.get?_insert_self]
      rfl
    · intro a declared here refuses row member holds
      have present := (pointed row member).present a declared refuses
      obtain ⟨v, there, same⟩ := (Table.has_eq_true_iff nonnull).mp holds
      rw [here, present?_pointRow nonnull, there] at present
      by_cases isWanted : holdsAny row.data pk wanted = true
      · exact isWanted
      · simp [isWanted, same] at present
    · intro a declared here isKey
      refine (List.pairwise_map.mp after.apart).imp fun {x y} apart both => ?_
      have takes {row : StoredRow} (isWanted : holdsAny row.data pk wanted = true) :
          Value.present? ((pointRow pk column key wanted row).data.get? a.name) = some key := by
        rw [here, present?_pointRow nonnull, if_pos isWanted]
      have differs := apart a declared isKey key key (takes both.1) (takes both.2)
      rw [Value.same_self] at differs
      cases differs
  · intro fit
    constructor
    · intro row member
      obtain ⟨stored, before, rfl⟩ := List.mem_map.mp member
      exact admits_pointRow nonnull (h.admits stored before) (fit.declared stored before)
        fun a declared here refuses => fit.held a declared here refuses stored before
    · refine List.pairwise_map.mpr (List.pairwise_iff_getElem.mpr fun i j hi hj less => ?_)
      apply apart_pointRow nonnull (List.pairwise_iff_getElem.mp h.apart i j hi hj less)
      intro a declared here isKey
      exact List.pairwise_iff_getElem.mp (fit.single a declared here isKey) i j hi hj less

end Pointed

section Paired

variable {sourceColumn targetColumn other : String} {v : Value}

/-- Pairs for the key of a source fit into a join table: both columns are declared and null
is refused in no other; where the column of the source is a key there is one pair, and where
that of the target is one, no wanted key is there twice or in the row of another source. -/
structure PairsFit (m : Model) (sourceColumn targetColumn : String) (key : Value)
    (wanted : List Value) (rows : List StoredRow) : Prop where
  declared : wanted ≠ [] →
    (m.attribute? sourceColumn).isSome = true ∧ (m.attribute? targetColumn).isSome = true
  complete : wanted ≠ [] → ∀ a ∈ m.attributes, a.refusesNull = true →
    a.name = sourceColumn ∨ a.name = targetColumn
  single : sourceColumn ≠ targetColumn → ∀ a ∈ m.attributes, a.name = sourceColumn →
    a.isKey = true → wanted.length ≤ 1
  distinct : ∀ a ∈ m.attributes, a.name = targetColumn → a.isKey = true →
    wanted.Pairwise fun v w => v.same w = false
  free : ∀ a ∈ m.attributes, a.name = targetColumn → a.isKey = true →
    ∀ row ∈ rows, row.has sourceColumn key = false →
      ∀ v ∈ wanted, row.has targetColumn v = false

theorem pairRow_get? : (pairRow sourceColumn targetColumn key v).data.get? other =
    if other = targetColumn then some v else if other = sourceColumn then some key else none := by
  simp [pairRow, Dict.ofList, Dict.get?_insert]

theorem mem_keys_pairRow :
    other ∈ (pairRow sourceColumn targetColumn key v).data.keys ↔
      other = targetColumn ∨ other = sourceColumn := by
  show other ∈ ((Dict.insert [] sourceColumn key).insert targetColumn v).keys ↔ _
  rw [Dict.mem_keys_insert, Dict.mem_keys_insert]
  simp [Dict.keys]

/-- The value of a pair in the column of its target, and of any other key in that of its
source. -/
theorem present?_pairRow (nonnull : key ≠ .null) (notNull : v ≠ .null) :
    Value.present? ((pairRow sourceColumn targetColumn key v).data.get? other) =
      if other = targetColumn then some v else if other = sourceColumn then some key else none := by
  rw [pairRow_get?]
  split
  · exact Value.present?_eq_some_iff.mpr ⟨rfl, notNull⟩
  · split
    · exact Value.present?_eq_some_iff.mpr ⟨rfl, nonnull⟩
    · rfl

section Fit

variable {rows : List StoredRow} (nonnull : key ≠ .null) (nonnulls : ∀ v ∈ wanted, v ≠ .null)
include nonnull nonnulls

/-- What a join table that complies says about the pairs in it. -/
theorem pairsFit_of_complies
    (h : Table.Complies m (pairTargets sourceColumn targetColumn key wanted t).rows) :
    PairsFit m sourceColumn targetColumn key wanted t.rows := by
  rw [pairTargets_rows] at h
  obtain ⟨_, pairs, crossed⟩ := List.pairwise_append.mp h.apart
  have pairs := List.pairwise_map.mp pairs
  have admits : ∀ v ∈ wanted, m.Admits (pairRow sourceColumn targetColumn key v).data :=
    fun v member => h.admits _ (List.mem_append_right _ (List.mem_map_of_mem member))
  have atTarget {a : Attribute} (here : a.name = targetColumn) : ∀ v ∈ wanted,
      Value.present? ((pairRow sourceColumn targetColumn key v).data.get? a.name) = some v := by
    intro v member
    rw [present?_pairRow nonnull (nonnulls v member), if_pos here]
  constructor
  · intro some_wanted
    obtain ⟨v, member⟩ := List.exists_mem_of_ne_nil wanted some_wanted
    exact ⟨(admits v member).declared _ (mem_keys_pairRow.mpr (.inr rfl)),
      (admits v member).declared _ (mem_keys_pairRow.mpr (.inl rfl))⟩
  · intro some_wanted a declared refuses
    obtain ⟨v, member⟩ := List.exists_mem_of_ne_nil wanted some_wanted
    have present := (admits v member).present a declared refuses
    rw [present?_pairRow nonnull (nonnulls v member)] at present
    grind
  · intro columns a declared here isKey
    rcases wanted with _ | ⟨v, _ | ⟨w, rest⟩⟩
    · exact Nat.zero_le 1
    · exact Nat.le_refl 1
    · have atSource : ∀ u ∈ v :: w :: rest, Value.present?
          ((pairRow sourceColumn targetColumn key u).data.get? a.name) = some key := by
        intro u member
        rw [present?_pairRow nonnull (nonnulls u member), if_neg (here ▸ columns), if_pos here]
      have differs := (List.pairwise_cons.mp pairs).1 w List.mem_cons_self a declared isKey key key
        (atSource v List.mem_cons_self) (atSource w (.tail _ List.mem_cons_self))
      rw [Value.same_self] at differs
      cases differs
  · intro a declared here isKey
    refine List.pairwise_iff_getElem.mpr fun i j hi hj less => ?_
    exact List.pairwise_iff_getElem.mp pairs i j hi hj less a declared isKey _ _
      (atTarget here _ (List.getElem_mem hi)) (atTarget here _ (List.getElem_mem hj))
  · intro a declared here isKey row member spared v isWanted
    refine Bool.eq_false_iff.mpr fun holds => ?_
    obtain ⟨w, there, same⟩ := (Table.has_eq_true_iff (nonnulls v isWanted)).mp holds
    have kept : row ∈ t.rows.filter fun row => !row.has sourceColumn key :=
      List.mem_filter.mpr ⟨member, by simp [spared]⟩
    have differs := crossed row kept _ (List.mem_map_of_mem isWanted) a declared isKey w v
      (here ▸ there) (atTarget here v isWanted)
    rw [same] at differs
    cases differs

/-- Pairs that fit are apart from each other and from the rows of other sources. -/
theorem PairsFit.apart (fit : PairsFit m sourceColumn targetColumn key wanted rows) :
    (wanted.map (pairRow sourceColumn targetColumn key)).Pairwise
        (fun x y => m.Apart x.data y.data) ∧
      ∀ row ∈ rows, row.has sourceColumn key = false → ∀ v ∈ wanted,
        m.Apart row.data (pairRow sourceColumn targetColumn key v).data := by
  constructor
  · refine List.pairwise_map.mpr (List.pairwise_iff_getElem.mpr fun i j hi hj less => ?_)
    intro a declared isKey v w hv hw
    rw [present?_pairRow nonnull (nonnulls _ (List.getElem_mem hi))] at hv
    rw [present?_pairRow nonnull (nonnulls _ (List.getElem_mem hj))] at hw
    by_cases target : a.name = targetColumn
    · rw [if_pos target] at hv hw
      obtain rfl := Option.some.inj hv
      obtain rfl := Option.some.inj hw
      exact List.pairwise_iff_getElem.mp (fit.distinct a declared target isKey) i j hi hj less
    · rw [if_neg target] at hv
      by_cases source : a.name = sourceColumn
      · have single := fit.single (source ▸ target) a declared source isKey
        omega
      · rw [if_neg source] at hv
        cases hv
  · intro row member spared v isWanted a declared isKey w u hw hu
    rw [present?_pairRow nonnull (nonnulls v isWanted)] at hu
    have misses {column : String} {k : Value} (here : a.name = column) (notNull : k ≠ .null)
        (free : row.has column k = false) : w.same k = false := by
      refine Bool.eq_false_iff.mpr fun same => ?_
      rw [(Table.has_eq_true_iff notNull).mpr ⟨w, here ▸ hw, same⟩] at free
      cases free
    by_cases target : a.name = targetColumn
    · rw [if_pos target] at hu
      obtain rfl := Option.some.inj hu
      exact misses target (nonnulls v isWanted)
        (fit.free a declared target isKey row member spared v isWanted)
    · rw [if_neg target] at hu
      by_cases source : a.name = sourceColumn
      · rw [if_pos source] at hu
        obtain rfl := Option.some.inj hu
        exact misses source nonnull spared
      · rw [if_neg source] at hu
        cases hu

/-- A join table complies with its model exactly if the pairs for a source fit. -/
theorem complies_pairTargets_iff (h : Table.Complies m t.rows) :
    Table.Complies m (pairTargets sourceColumn targetColumn key wanted t).rows ↔
      PairsFit m sourceColumn targetColumn key wanted t.rows := by
  refine ⟨pairsFit_of_complies nonnull nonnulls, fun fit => ?_⟩
  obtain ⟨pairs, crossed⟩ := fit.apart nonnull nonnulls
  have kept : Table.Complies m (t.rows.filter fun row => !row.has sourceColumn key) :=
    h.sublist List.filter_sublist
  rw [pairTargets_rows]
  constructor
  · intro row member
    rcases List.mem_append.mp member with old | new
    · exact kept.admits row old
    · obtain ⟨v, isWanted, rfl⟩ := List.mem_map.mp new
      have some_wanted : wanted ≠ [] := List.ne_nil_of_mem isWanted
      constructor
      · intro k there
        rcases mem_keys_pairRow.mp there with rfl | rfl
        · exact (fit.declared some_wanted).2
        · exact (fit.declared some_wanted).1
      · intro a declared refuses
        rw [present?_pairRow nonnull (nonnulls v isWanted)]
        rcases fit.complete some_wanted a declared refuses with here | here <;> simp [here]
        split <;> rfl
  · refine List.pairwise_append.mpr ⟨kept.apart, pairs, fun row old pair new => ?_⟩
    obtain ⟨v, isWanted, rfl⟩ := List.mem_map.mp new
    obtain ⟨member, spared⟩ := List.mem_filter.mp old
    exact crossed row member (by simpa using spared) v isWanted

end Fit

end Paired

end Linking

namespace Database

variable {r : Registry} {d : Database} {name : String} {t : Table}

/-- The rows of every registered model comply with it. -/
def Complies (r : Registry) (d : Database) : Prop :=
  ∀ name m, r.get? name = some m → Table.Complies m (d.openTable name).rows

theorem Keeps.complies (kept : d.Keeps r) : d.Complies r :=
  fun _ _ registered => (kept.openTable registered).complies

/-- A database with a table changed complies exactly if this table does. -/
theorem Complies.setTable_iff (h : d.Complies r) :
    (d.setTable name t).Complies r ↔ ∀ m, r.get? name = some m → Table.Complies m t.rows := by
  constructor
  · intro after m registered
    have table := after name m registered
    rwa [openTable_setTable_self] at table
  · intro table other m registered
    by_cases here : other = name
    · subst here
      rw [openTable_setTable_self]
      exact table m registered
    · rw [openTable_setTable_of_ne d t here]
      exact h other m registered

end Database

namespace Linking

variable {e e' : Engine} {row row' : Row} {a : Association} {target : Model} {pk : String}
variable {wanted : List Value} {label : String} {linked : Linked Row}

/-- What connecting a row writes fits into the table that it is written to. -/
def Fits (e : Engine) (row : Row) (a : Association) (target : Model) (pk : String)
    (wanted : List Value) : Prop :=
  match a.kind with
  | .belongsTo => True
  | .hasOne | .hasMany =>
    ∀ key, sourceKey row.model row.data = .ok key →
      PointsFit target pk (e.registry.foreignKey row.model a) key wanted
        (e.database.openTable target.name).rows
  | .belongsToMany =>
    ∀ key through join, sourceKey row.model row.data = .ok key → a.through = some through →
      e.registry.get? through = some join →
        PairsFit join (e.registry.foreignKey row.model a) a.joinTargetColumn key wanted
          (e.database.openTable through).rows

theorem nonnull_of_sourceKey {m : Model} {data : Record} {key : Value}
    (h : sourceKey m data = .ok key) : key ≠ .null := by
  obtain ⟨pk, _, h⟩ := bind_eq_ok_iff.mp h
  split at h
  · cases h
    exact (Value.present?_eq_some_iff.mp ‹_›).2
  · cases h

/-- After a row has been connected the store complies exactly if what was written fits. -/
theorem Connects.complies_iff (named : e.registry.Named)
    (registered : e.registry.get? row.model.name = some row.model)
    (h : e.database.Complies e.registry)
    (ends : Ends e.registry row label linked a target pk wanted)
    (connects : Connects e row a target pk (e.registry.foreignKey row.model a) wanted row' e') :
    e'.database.Complies e.registry ↔ Fits e row a target pk wanted := by
  have nonnulls : ∀ v ∈ wanted, v ≠ .null := (itemKeys_ok ends.keys).2
  cases connects with
  | belongsTo kind source place written =>
      simp only [Fits, kind, iff_true]
      refine h.setTable_iff.mpr fun m found => ?_
      rw [registered] at found
      obtain rfl := Option.some.inj found
      exact (h _ _ registered).updateAt written
  | pointed kind source =>
      have found : e.registry.get? target.name = some target := by
        rw [named _ _ ends.registered]
        exact ends.registered
      have fits : Fits e row a target pk wanted ↔ ∀ key, sourceKey row.model row.data = .ok key →
          PointsFit target pk (e.registry.foreignKey row.model a) key wanted
            (e.database.openTable target.name).rows := by
        cases owned : a.kind <;> simp_all [Fits, AssociationKind.isOwnedByTarget]
      have nonnull := nonnull_of_sourceKey source
      rw [fits, Engine.setTable, h.setTable_iff]
      simp only [found, source, Option.some.injEq, Except.ok.injEq, forall_eq']
      exact complies_pointTargets_iff (h _ _ found) nonnull
  | paired kind source join =>
      have nonnull := nonnull_of_sourceKey source
      simp only [Fits, kind, source, join, Engine.setTable, h.setTable_iff]
      constructor
      · rintro after _ _ m ⟨⟩ ⟨⟩ found
        exact (complies_pairTargets_iff nonnull nonnulls (h _ _ found)).mp (after m found)
      · intro fit m found
        exact (complies_pairTargets_iff nonnull nonnulls (h _ _ found)).mpr
          (fit _ _ m rfl rfl found)

/-- In a store that complies with its models, a row that cannot be connected leaves it so; and
once it is connected the store complies exactly if what was written fits, as it always does
where the row belongs to another. -/
theorem setAssociation_complies (named : e.registry.Named)
    (registered : e.registry.get? row.model.name = some row.model)
    (h : e.database.Complies e.registry)
    {result : Except StorageError Unit}
    (done : setAssociation label linked row e = ((result, row'), e')) :
    e'.registry = e.registry ∧
      (∀ err, result = .error err → e'.database.Complies e.registry) ∧
      (result = .ok () → ∃ a target pk wanted, Ends e.registry row label linked a target pk wanted ∧
        (e'.database.Complies e.registry ↔ Fits e row a target pk wanted)) := by
  cases result with
  | error err =>
      rcases (connect_error (setAssociation_error done)).1 with rfl | rfl
      · exact ⟨rfl, fun _ _ => h, nofun⟩
      · refine ⟨rfl, fun _ _ => ?_, nofun⟩
        exact h.setTable_iff.mpr fun m found => h _ m found
  | ok _ =>
      obtain ⟨connected, connects, rfl⟩ := setAssociation_ok_iff.mp done
      obtain ⟨a, target, pk, wanted, ends, connects⟩ := connect_ok connects
      refine ⟨?_, nofun, fun _ => ⟨a, target, pk, wanted, ends, ?_⟩⟩
      · cases connects <;> rfl
      · exact connects.complies_iff named registered h ends

/-- The second author gets a book that had no author and gives up another one, which both may
be without. -/
theorem setAssociation_complies_unclaimed :
    let run := setAssociation "books" (.many [unclaimed]) second shelf
    run.1.1 = .ok () ∧ run.2.database.Complies library := by
  refine ⟨rfl, ?_⟩
  have named : shelf.registry.Named :=
    (Registry.named_nil.register (m := author) rfl).register (m := book) rfl
  have registered : shelf.registry.get? second.model.name = some second.model := rfl
  have done : setAssociation "books" (.many [unclaimed]) second shelf =
      ((.ok (), second.file "books" (.many [unclaimed])),
        (setAssociation "books" (.many [unclaimed]) second shelf).2) := rfl
  obtain ⟨_, _, connected⟩ :=
    setAssociation_complies named registered keeps_shelf.current.complies done
  obtain ⟨a, target, pk, wanted, ends, complies⟩ := connected rfl
  obtain rfl : books = a := Option.some.inj ends.association
  obtain rfl : book = target := Option.some.inj ends.registered
  apply complies.mpr
  intro key _
  have optional : ∀ a ∈ book.attributes, a.name = "authorId" →
      a.refusesNull = false ∧ a.isKey = false := by decide
  refine ⟨fun _ _ _ => rfl, ?_, ?_⟩
  · intro a declared here refuses
    rw [(optional a declared here).1] at refuses
    cases refuses
  · intro a declared here isKey
    rw [(optional a declared here).2] at isKey
    cases isKey

/-- Books that cannot be without an author. -/
def boundBook : Model :=
  { name := "Book", attributes := [.identity "id", { name := "authorId", dataType := .integer }] }

/-- An author with such a book. -/
def boundShelf : Engine :=
  Command.run [.create author [("id", .ofInt 1)] {}, .create boundBook [("authorId", .ofInt 1)] {}]
    (Engine.ofRegistry [("Author", author), ("Book", boundBook)])

/-- An author gives up a book that cannot be without one: the store has complied, and does
so no longer. -/
theorem setAssociation_releases_bound :
    let run := setAssociation "books" (.many []) { model := author, data := [("id", .ofInt 1)] }
      boundShelf
    boundShelf.database.Complies boundShelf.registry ∧ run.1.1 = .ok () ∧
      run.2.registry = boundShelf.registry ∧ ¬ run.2.database.Complies boundShelf.registry := by
  refine ⟨?_, rfl, rfl, fun complies => ?_⟩
  · have kept : boundShelf.Keeps boundShelf.registry := by
      refine Command.keeps_run_of_keeps
        (e := Engine.ofRegistry [("Author", author), ("Book", boundBook)]) ?_ ?_
        Engine.keeps_ofRegistry
      · simp [Command.Registered, Command.model?, Engine.ofRegistry, author, boundBook]
      · simp [Command.isLink]
    exact kept.current.complies
  · have released := (complies "Book" boundBook rfl).admits
      { data := [("authorId", .null), ("id", .ofInt 1)] } (.head _)
    have present := released.present { name := "authorId", dataType := .integer }
      (.tail _ (.head _)) rfl
    cases present

end Linking

end RecordGraph
