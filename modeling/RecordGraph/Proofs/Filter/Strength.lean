import RecordGraph.Proofs.Filter.Conjunction

/-!
# How strong a conjunction is

A condition need not come from comparisons: it may be any map that a filter can be, with
lists or objects under the two joining keys. `accepts_and_iff` says of all of them that the
conjunction is true of a record exactly when both parts are, so nothing that one of them
asks for is lost on the way.

It needs the two maps not to have operator maps meet under the disjunction key. Merging
operators is right under a column, where all of them have to hold; under the disjunction
key the members of the one map join those of the other, and any of them will do. What
comes of that is `accepts_and_of_disjunctions`.
-/

namespace RecordGraph

namespace Condition

open RecordGraph.Filter

variable {row : Record} {key other : String} {fields : Record}

/-- The fields of an object stand in key order. -/
def InOrder : Value → Prop
  | .obj inner => Dict.Ascending inner
  | _ => True

instance : DecidablePred InOrder
  | .obj inner => inferInstanceAs (Decidable (Dict.Ascending inner))
  | .null | .bool _ | .num _ | .str _ | .arr _ => inferInstanceAs (Decidable True)

/-- The fields of a condition, and those of the objects under its keys, stand in key order. -/
structure Ordered (c : Condition) : Prop where
  ascending : c.fields.Ascending
  objects : ∀ entry ∈ c.fields, InOrder entry.2

/-- At most one of two conditions has an operator map under the disjunction key. -/
def DisjunctionsApart (a b : Condition) : Prop :=
  ∀ v w, a.fields.get? orKey = some v → b.fields.get? orKey = some w →
    comparisons? v = none ∨ comparisons? w = none

/-- What may meet under a key: two operator maps only where all operators have to hold. -/
def MayMeet (key : String) (existing incoming : Value) : Prop :=
  ∀ current ops, comparisons? existing = some current → comparisons? incoming = some ops →
    key ≠ orKey ∧ current.Ascending ∧ ops.Ascending

section Keys

theorem get?_pushConjunct_of_ne (ne : key ≠ andKey) (item : Value) :
    (pushConjunct fields item).get? key = fields.get? key := by
  unfold pushConjunct
  split <;> exact Dict.get?_insert_of_ne _ _ ne

theorem ascending_addEntry (h : fields.Ascending) (v : Value) :
    (addEntry fields key v).Ascending := by
  unfold addEntry
  split
  · exact Dict.ascending_insert _ _ h
  · split
    · dsimp only
      split
      · exact Dict.ascending_insert _ _ h
      · exact ascending_pushConjunct (Dict.ascending_insert _ _ h) _
    · split
      · exact h
      · exact ascending_pushConjunct h _

/-- Adding an entry leaves the other entries but the conjunction as they are. -/
theorem get?_addEntry_of_ne (ne : other ≠ key) (neAnd : other ≠ andKey) (v : Value) :
    (addEntry fields key v).get? other = fields.get? other := by
  unfold addEntry
  split
  · exact Dict.get?_insert_of_ne _ _ ne
  · split
    · dsimp only
      split
      · exact Dict.get?_insert_of_ne _ _ ne
      · rw [get?_pushConjunct_of_ne neAnd]
        exact Dict.get?_insert_of_ne _ _ ne
    · split
      · rfl
      · exact get?_pushConjunct_of_ne neAnd _

/-- A key that had an entry still has one after another was added under it. -/
theorem exists_get?_addEntry (ne : key ≠ andKey) {existing : Value}
    (found : fields.get? key = some existing) (v : Value) :
    ∃ w, (addEntry fields key v).get? key = some w := by
  unfold addEntry
  rw [found]
  dsimp only
  split
  · split
    · exact ⟨_, Dict.get?_insert_self ..⟩
    · exact ⟨_, (get?_pushConjunct_of_ne ne _).trans (Dict.get?_insert_self ..)⟩
  · split
    · exact ⟨_, found⟩
    · exact ⟨_, (get?_pushConjunct_of_ne ne _).trans found⟩

end Keys

/-- A reserved key that joins nothing is refused. -/
theorem matchesEntry_ne_true_of_reserved (reserved : isReserved key = true) (neAnd : key ≠ andKey)
    (neOr : key ≠ orKey) (v : Value) : matchesEntry row key v ≠ .ok true := by
  cases v <;> simp [matchesEntry, matchesColumn, reserved, neAnd, neOr]

/-- An entry that is added has to hold as well, whatever its key is. -/
theorem addEntry_eq_true_iff_of_mayMeet (h : fields.Ascending) (ne : key ≠ andKey) {v : Value}
    (meet : ∀ existing, fields.get? key = some existing → MayMeet key existing v) :
    matchesAll row (addEntry fields key v) = .ok true ↔
      matchesAll row fields = .ok true ∧ matchesEntry row key v = .ok true := by
  by_cases free : isReserved key = false
  · refine addEntry_eq_true_iff h fun existing found current ops hc hi => ?_
    exact ⟨free, (meet existing found current ops hc hi).2⟩
  by_cases disjunction : key = orKey
  · -- no operator maps meet here, so the entry is kept as it is
    refine addEntry_eq_true_iff h fun existing found current ops hc hi => ?_
    exact absurd disjunction (meet existing found current ops hc hi).1
  have reserved : isReserved key = true := by simpa using free
  have refused (w : Value) : matchesEntry row key w ≠ .ok true :=
    matchesEntry_ne_true_of_reserved reserved ne disjunction w
  cases found : fields.get? key with
  | none =>
      refine addEntry_eq_true_iff h fun existing there => ?_
      rw [found] at there
      cases there
  | some existing =>
      -- either side would have to evaluate an entry under the reserved key
      obtain ⟨w, there⟩ := exists_get?_addEntry ne found v
      constructor
      · intro holds
        exact absurd ((matchesAll_eq_true_iff (ascending_addEntry h v)).mp holds key w there)
          (refused w)
      · rintro ⟨-, holds⟩
        exact absurd holds (refused v)

/-- Members of a conjunction that are added one by one have to hold as well. -/
theorem pushConjuncts_eq_true_iff (h : fields.Ascending) (items : List Value) :
    matchesAll row (items.foldl pushConjunct fields) = .ok true ↔
      matchesAll row fields = .ok true ∧ ∀ item ∈ items, matchesClause row item = .ok true := by
  induction items generalizing fields with
  | nil => simp
  | cons item rest ih =>
      rw [List.foldl_cons, ih (ascending_pushConjunct h item), pushConjunct_eq_true_iff h,
        List.forall_mem_cons, and_assoc]

theorem ascending_pushConjuncts (h : fields.Ascending) (items : List Value) :
    (items.foldl pushConjunct fields).Ascending := by
  induction items generalizing fields with
  | nil => exact h
  | cons item rest ih => exact ih (ascending_pushConjunct h item)

theorem get?_pushConjuncts_of_ne (ne : key ≠ andKey) (items : List Value) :
    (items.foldl pushConjunct fields).get? key = fields.get? key := by
  induction items generalizing fields with
  | nil => rfl
  | cons item rest ih => exact ih.trans (get?_pushConjunct_of_ne ne item)

section ConjoinEntry

variable {entry : String × Value}

/-- What folding in one entry amounts to: its members are pushed, or it is added. -/
theorem conjoinEntry_cases (fields : Record) (entry : String × Value) :
    (entry.1 = andKey ∧ ∃ items : List Value,
      conjoinEntry fields entry = items.foldl pushConjunct fields ∧
      ∀ row, matchesEntry row entry.1 entry.2 = .ok true ↔
        ∀ item ∈ items, matchesClause row item = .ok true) ∨
    (entry.1 ≠ andKey ∧ conjoinEntry fields entry = addEntry fields entry.1 entry.2) := by
  obtain ⟨key, v⟩ := entry
  by_cases same : key = andKey
  · subst same
    refine .inl ⟨rfl, ?_⟩
    cases v with
    | arr items =>
        refine ⟨items, by simp [conjoinEntry], fun row => ?_⟩
        rw [matchesEntry_andKey_arr, allOf_eq_true_iff]
    | _ =>
        -- a single member is evaluated as the clause that it is
        refine ⟨[_], rfl, fun row => ?_⟩
        simp [matchesEntry, matchesClause]
  · exact .inr ⟨same, by simp [conjoinEntry, same]⟩

theorem ascending_conjoinEntry (h : fields.Ascending) : (conjoinEntry fields entry).Ascending := by
  obtain ⟨-, items, step, -⟩ | ⟨-, step⟩ := conjoinEntry_cases fields entry
  · exact step ▸ ascending_pushConjuncts h items
  · exact step ▸ ascending_addEntry h entry.2

theorem get?_conjoinEntry_of_ne (ne : key ≠ entry.1) (neAnd : key ≠ andKey) :
    (conjoinEntry fields entry).get? key = fields.get? key := by
  obtain ⟨-, items, step, -⟩ | ⟨-, step⟩ := conjoinEntry_cases fields entry
  · exact step ▸ get?_pushConjuncts_of_ne neAnd items
  · exact step ▸ get?_addEntry_of_ne ne neAnd entry.2

/-- Folding in one entry: it has to hold as well. -/
theorem conjoinEntry_eq_true_iff (h : fields.Ascending)
    (meet : entry.1 ≠ andKey →
      ∀ existing, fields.get? entry.1 = some existing → MayMeet entry.1 existing entry.2) :
    matchesAll row (conjoinEntry fields entry) = .ok true ↔
      matchesAll row fields = .ok true ∧ matchesEntry row entry.1 entry.2 = .ok true := by
  obtain ⟨-, items, step, members⟩ | ⟨ne, step⟩ := conjoinEntry_cases fields entry
  · rw [step, pushConjuncts_eq_true_iff h, members]
  · rw [step]
    exact addEntry_eq_true_iff_of_mayMeet h ne (meet ne)

/-- Folding in all entries of a map: each of them has to hold as well. What is under a key
when its entry comes is what was there at the start, since every key comes once. -/
theorem conjoinEntries_eq_true_iff {entries : Record} (h : fields.Ascending)
    (ascending : entries.Ascending)
    (meet : ∀ entry ∈ entries, entry.1 ≠ andKey →
      ∀ existing, fields.get? entry.1 = some existing → MayMeet entry.1 existing entry.2) :
    matchesAll row (entries.foldl conjoinEntry fields) = .ok true ↔
      matchesAll row fields = .ok true ∧
        ∀ entry ∈ entries, matchesEntry row entry.1 entry.2 = .ok true := by
  induction entries generalizing fields with
  | nil => simp
  | cons entry rest ih =>
      obtain ⟨first, others⟩ := List.forall_mem_cons.mp meet
      have unchanged : ∀ later ∈ rest, later.1 ≠ andKey →
          (conjoinEntry fields entry).get? later.1 = fields.get? later.1 := by
        intro later member ne
        refine get?_conjoinEntry_of_ne (fun same => ?_) ne
        have less : entry.1 < later.1 := (List.pairwise_cons.mp ascending).1 later member
        exact String.lt_irrefl _ (same ▸ less)
      have meetRest : ∀ later ∈ rest, later.1 ≠ andKey → ∀ existing,
          (conjoinEntry fields entry).get? later.1 = some existing →
            MayMeet later.1 existing later.2 := by
        intro later member ne existing found
        rw [unchanged later member ne] at found
        exact others later member ne existing found
      rw [List.foldl_cons, ih (ascending_conjoinEntry h) ascending.tail meetRest,
        conjoinEntry_eq_true_iff h first, List.forall_mem_cons, and_assoc]

end ConjoinEntry

/-- Entries of ordered conditions may meet, unless they are disjunctions of operator maps. -/
theorem Ordered.mayMeet {a b : Condition} (ha : a.Ordered) (hb : b.Ordered)
    (apart : DisjunctionsApart a b) {v w : Value} (hv : a.fields.get? key = some v)
    (hw : b.fields.get? key = some w) : MayMeet key v w := by
  intro current ops hc hi
  refine ⟨?_, ?_, ?_⟩
  · rintro rfl
    rcases apart v w hv hw with none | none
    · rw [hc] at none
      cases none
    · rw [hi] at none
      cases none
  · obtain ⟨rfl, -⟩ := comparisons?_eq_some_iff.mp hc
    exact ha.objects _ (Dict.mem_of_get? hv)
  · obtain ⟨rfl, -⟩ := comparisons?_eq_some_iff.mp hi
    exact hb.objects _ (Dict.mem_of_get? hw)

/-- The conjunction of two conditions, of whatever form their maps are, is true of exactly
the records that both are true of: it drops nothing that either asks for. -/
theorem accepts_and_iff (a b : Condition) (ha : a.Ordered) (hb : b.Ordered)
    (apart : DisjunctionsApart a b) (row : Record) :
    accepts (a.and b).fields row = .ok true ↔
      accepts a.fields row = .ok true ∧ accepts b.fields row = .ok true := by
  have meet : ∀ entry ∈ b.fields, entry.1 ≠ andKey → ∀ existing,
      a.fields.get? entry.1 = some existing → MayMeet entry.1 existing entry.2 := by
    intro entry member _ existing found
    exact ha.mayMeet hb apart found ((Dict.get?_eq_some_iff_mem hb.ascending).mpr member)
  simp only [accepts, Condition.and]
  rw [conjoinEntries_eq_true_iff ha.ascending hb.ascending meet, matchesAll_eq_allOf b.fields,
    allOf_eq_true_iff]

/-- The joining keys with lists and with objects under them on both sides: the conjunction
holds of a record that both hold of. -/
theorem accepts_and_joined :
    let a : Condition := ⟨[("$and", .obj [("a", .ofInt 1)]),
      ("$or", .obj [("a", .ofInt 2), ("b", .obj [("$gt", .ofInt 0)])])]⟩
    let b : Condition := ⟨[("$and", .arr [.obj [("b", .ofInt 3)]]),
      ("$or", .obj [("$and", .arr [.obj [("a", .ofInt 1)]])]), ("a", .obj [("$lt", .ofInt 5)])]⟩
    accepts (a.and b).fields [("a", .ofInt 1), ("b", .ofInt 3)] = .ok true := by
  refine (accepts_and_iff _ _ ⟨?_, ?_⟩ ⟨?_, ?_⟩ ?_ _).mpr ⟨rfl, rfl⟩
  · decide
  · decide
  · decide
  · decide
  · intro v w hv hw
    cases hv
    exact .inl rfl

/-- Where two operator maps meet under the disjunction key, the conjunction is true of a
record that the second condition is not true of. -/
theorem accepts_and_of_disjunctions :
    let a : Condition := ⟨[("$or", .obj [("$and", .arr [.obj [("a", .ofInt 1)]])])]⟩
    let b : Condition := ⟨[("$or", .obj [("$or", .arr [.obj [("b", .ofInt 2)]])])]⟩
    let row : Record := [("a", .ofInt 1), ("b", .ofInt 3)]
    accepts (a.and b).fields row = .ok true ∧ accepts b.fields row = .ok false :=
  ⟨rfl, rfl⟩

end Condition

end RecordGraph
