import RecordGraph.Proofs.Store.Loading

/-!
# Associations that are the inverse of each other

A model that has many rows of another and the first association by which these belong to it
are resolved by different rules and read different tables. They connect by the same column,
though, whether it is declared on both sides or found from the one that belongs; and where
keys are integers or texts, which are the same only when they are equal, a row is among the
many of another exactly when it belongs to it.
-/

namespace RecordGraph

/-- A model has many rows of another, and these belong to it: the latter is the first such
association of the other model, and both name the same column or the former names none. -/
structure Registry.Inverse (r : Registry) (source target : Model) (many one : Association) :
    Prop where
  sourceKnown : r.get? source.name = some source
  targetKnown : r.get? target.name = some target
  toMany : many.kind = .hasMany
  leads : many.target = target.name
  back : target.associations.find? (fun b => b.kind == .belongsTo && b.target == source.name) =
    some one
  column : many.foreignKey = none ∨ many.foreignKey.isSome ∧ many.foreignKey = one.foreignKey

namespace Registry.Inverse

variable {r : Registry} {source target : Model} {many one : Association}
variable (inverse : r.Inverse source target many one)
include inverse

theorem belongsTo : one.kind = .belongsTo ∧ one.target = source.name := by
  simpa using List.find?_some inverse.back

/-- However the column is found, it is the same from both sides. -/
theorem foreignKey_eq : r.foreignKey source many = r.foreignKey target one := by
  obtain ⟨kind, -⟩ := inverse.belongsTo
  have own : r.foreignKey target one = ownColumn one := by
    simp only [foreignKey, kind]
  rcases inverse.column with undeclared | ⟨declared, same⟩
  · have back : r.backReference? source many = some (ownColumn one) := by
      simp [backReference?, inverse.leads, inverse.targetKnown, inverse.back]
    rw [own]
    simp only [foreignKey, inverse.toMany, undeclared, back, Option.getD_none, Option.getD_some]
  · obtain ⟨column, declared⟩ := Option.isSome_iff_exists.mp declared
    rw [r.foreignKey_of_declared source declared,
      r.foreignKey_of_declared target (same.symm.trans declared)]

end Registry.Inverse

/-- Rows of one table refer to those of another by a column: the keys of the latter are
unique, and both hold integers or texts where they hold anything. -/
structure Database.Refers (d : Database) (source target : Model) (pk column : String) :
    Prop where
  unique : UniqueKey pk (d.openTable source.name).liveRecords
  keys : ∀ s ∈ (d.openTable source.name).liveRecords, ∀ v,
    Value.present? (s.get? pk) = some v → v.IsKey
  references : ∀ t ∈ (d.openTable target.name).liveRecords, ∀ v,
    Value.present? (t.get? column) = some v → v.IsKey

namespace Loading

variable {r : Registry} {d : Database} {source target : Model} {many one : Association}
variable {sourcePk targetPk : String} {s t : Record}

/-- A row refers to another one exactly when it is among those found by the key of the
other, and then the other is the one row that is found by its column. -/
theorem refers_iff {column : String} {k v : Value}
    (refers : d.Refers source target sourcePk column)
    (hs : s ∈ (d.openTable source.name).liveRecords)
    (ht : t ∈ (d.openTable target.name).liveRecords)
    (key : Value.present? (s.get? sourcePk) = some k)
    (reference : Value.present? (t.get? column) = some v) :
    t ∈ (d.openTable target.name).liveWhere column k ↔
      ((d.openTable source.name).liveWhere sourcePk v).head? = some s := by
  obtain ⟨at_s, nonnull⟩ := Value.present?_eq_some_iff.mp key
  obtain ⟨at_t, -⟩ := Value.present?_eq_some_iff.mp reference
  rw [Table.liveWhere_eq, Table.liveWhere_eq, List.mem_filter, holdsAny_eq_true_iff]
  constructor
  · rintro ⟨-, w, found, k', wanted, same⟩
    obtain rfl := List.mem_singleton.mp wanted
    obtain rfl := Option.some.inj (at_t.symm.trans found)
    have equal : v = k' :=
      Value.eq_of_same_keys (refers.references t ht v reference) (refers.keys s hs k' key) same
    rw [equal, refers.unique.filter_eq_singleton hs at_s nonnull]
    rfl
  · intro first
    have found := List.mem_of_head? first
    obtain ⟨w, at_pk, v', wanted, same⟩ := holdsAny_eq_true_iff.mp (List.mem_filter.mp found).2
    obtain rfl := List.mem_singleton.mp wanted
    obtain rfl := Option.some.inj (at_s.symm.trans at_pk)
    exact ⟨ht, v', at_t, k, List.mem_singleton_self k, Value.same_comm v' k ▸ same⟩

/-- A row that refers to none is not among those found by any key. -/
theorem not_mem_liveWhere {column : String} {k : Value} {table : Table} (nonnull : k ≠ .null)
    (absent : Value.present? (t.get? column) = none) : t ∉ table.liveWhere column k := by
  rw [Table.liveWhere_eq, List.mem_filter, holdsAny_eq_true_iff]
  rintro ⟨-, v, found, k', wanted, same⟩
  obtain rfl := List.mem_singleton.mp wanted
  rw [present?_of_same found same nonnull] at absent
  cases absent

theorem plainRow_mem_map_iff {m : Model} {records : List Record} :
    plainRow m t ∈ records.map (plainRow m) ↔ t ∈ records := by
  constructor
  · intro member
    obtain ⟨x, found, same⟩ := List.mem_map.mp member
    have equal : x = t := congrArg Row.data same
    exact equal ▸ found
  · exact List.mem_map_of_mem

theorem ofList_eq_one_iff {m : Model} {records : List Record} :
    Linked.ofList false (records.map (plainRow m)) = .one (plainRow m s) ↔
      records.head? = some s := by
  cases records with
  | nil => simp [Linked.ofList]
  | cons x rest =>
      simp only [Linked.ofList, List.map_cons, Bool.false_eq_true, if_false, List.head?_cons,
        Linked.one.injEq, Option.some.injEq]
      exact ⟨congrArg Row.data, congrArg (plainRow m)⟩

/-- Loading a row with the many rows of another model, and one of these with the row that
it belongs to, always answers, at the top of a request as below another include; and the
latter is among the many exactly when the former is the one. -/
theorem mem_many_iff_one (inverse : r.Inverse source target many one)
    {manyLabel oneLabel : String} (sourceLabel : source.association? manyLabel = some many)
    (targetLabel : target.association? oneLabel = some one)
    (sourceKeyed : primaryKey source = .ok sourcePk)
    (targetKeyed : primaryKey target = .ok targetPk)
    (refers : d.Refers source target sourcePk (r.foreignKey target one))
    (hs : s ∈ (d.openTable source.name).liveRecords)
    (ht : t ∈ (d.openTable target.name).liveRecords)
    {k : Value} (key : Value.present? (s.get? sourcePk) = some k) (enforce : Bool) :
    ∃ rows row,
      related r d enforce source s [] [Request.plainInclude target.name manyLabel false] =
        .ok (some [(manyLabel, .many rows)]) ∧
      related r d enforce target t [] [Request.plainInclude source.name oneLabel false] =
        .ok (some [(oneLabel, row)]) ∧
      (plainRow target t ∈ rows ↔ row = .one (plainRow source s)) := by
  obtain ⟨kind, leads⟩ := inverse.belongsTo
  have optional : (enforce && false) = false := Bool.and_false enforce
  have owned : many.kind.isOwnedByTarget = true := by rw [inverse.toMany]; rfl
  have targetOf : r.get? many.target = some target := inverse.leads ▸ inverse.targetKnown
  have sourceOf : r.get? one.target = some source := leads ▸ inverse.sourceKnown
  refine ⟨((d.openTable target.name).liveWhere (r.foreignKey target one) k).map (plainRow target),
    .ofList false ((reached r d target one targetPk sourcePk t
      (d.openTable source.name)).map (plainRow source)), ?_, ?_, ?_⟩
  · have loaded : related r d enforce source s [] [Request.plainInclude many.target manyLabel
        false] = _ := related_plain optional sourceLabel targetOf targetKeyed sourceKeyed
    rwa [reached_owned owned key, inverse.leads, inverse.foreignKey_eq, inverse.toMany] at loaded
  · have loaded : related r d enforce target t [] [Request.plainInclude one.target oneLabel
        false] = _ := related_plain optional targetLabel sourceOf sourceKeyed targetKeyed
    rwa [leads, kind] at loaded
  · rw [plainRow_mem_map_iff, ofList_eq_one_iff]
    simp only [reached, kind]
    cases reference : Value.present? (t.get? (r.foreignKey target one)) with
    | none =>
        have nonnull := (Value.present?_eq_some_iff.mp key).2
        simp [not_mem_liveWhere nonnull reference]
    | some v => exact refers_iff refers hs ht key reference

section Family

/-- The children of a person. -/
def children : Association :=
  { key := "children", kind := .hasMany, target := "Person" }

/-- The parent of a person, by a column that is named nowhere. -/
def parent : Association :=
  { key := "guardian", kind := .belongsTo, target := "Person", declaredAlias := some "parent" }

/-- People, each with children and a parent. -/
def person : Model :=
  { name := "Person", attributes := [.identity "id"], associations := [children, parent] }

/-- A person without a parent. -/
def elder : Record :=
  [("id", .ofInt 1), ("parentId", .null)]

/-- A child of the person without a parent. -/
def younger : Record :=
  [("id", .ofInt 2), ("parentId", .ofInt 1)]

/-- Two people, one the child of the other. -/
def family : Database :=
  [("Person", { rows := [{ data := elder }, { data := younger }], counter := 2 })]

theorem refers_family : family.Refers person person "id" "parentId" where
  unique := by
    refine List.pairwise_cons.mpr ⟨fun x member v w hv hw => ?_, List.pairwise_singleton _ _⟩
    obtain rfl := List.mem_singleton.mp member
    obtain rfl := Option.some.inj hv
    obtain rfl := Option.some.inj hw
    rfl
  keys := by
    refine List.forall_mem_cons.mpr ⟨fun v hv => ?_, List.forall_mem_singleton.mpr fun v hv => ?_⟩
    all_goals
      obtain rfl := Option.some.inj hv
      exact .inl rfl
  references := by
    refine List.forall_mem_cons.mpr ⟨fun v hv => ?_, List.forall_mem_singleton.mpr fun v hv => ?_⟩
    · cases hv
    · obtain rfl := Option.some.inj hv
      exact .inl rfl

/-- The younger is among the children of the elder, since the elder is its parent. -/
theorem mem_many_iff_one_family :
    let r : Registry := [("Person", person)]
    ∃ rows,
      related r family true person elder [] [Request.plainInclude "Person" "children" false] =
        .ok (some [("children", .many rows)]) ∧
      related r family true person younger [] [Request.plainInclude "Person" "parent" false] =
        .ok (some [("parent", .one (plainRow person elder))]) ∧
      plainRow person younger ∈ rows := by
  intro r
  have inverse : r.Inverse person person children parent := ⟨rfl, rfl, rfl, rfl, rfl, .inl rfl⟩
  have hasChildren : person.association? "children" = some children := by decide
  have hasParent : person.association? "parent" = some parent := by decide
  have belongs : related r family true person younger []
      [Request.plainInclude "Person" "parent" false] =
        .ok (some [("parent", .one (plainRow person elder))]) := rfl
  obtain ⟨rows, row, has, found, agree⟩ := mem_many_iff_one inverse hasChildren hasParent rfl rfl
    refers_family (.head _) (.tail elder (.head _)) (k := .ofInt 1) rfl true
  have one : row = .one (plainRow person elder) := by
    simpa using found.symm.trans belongs
  exact ⟨rows, has, belongs, agree.mpr one⟩

end Family

end Loading

end RecordGraph
