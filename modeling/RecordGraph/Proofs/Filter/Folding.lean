import RecordGraph.Proofs.Filter.Strength
import RecordGraph.Select.Compiled

/-!
# What folding filters together keeps

Conjoining filters moves entries about: it puts operator maps together and pushes what
collides below the conjunction. Nothing is lost on the way and nothing is made up. So what
some entry of a filter has, and what is a matter of the parts of a conjunction and of an
operator map, some entry of its conditions has, and conversely.
-/

namespace RecordGraph.Condition

open RecordGraph.Filter

variable {key other : String} {fields : Record} {v : Value}

/-- A property of entries that is a matter of their parts, and what it comes to for a member
of a conjunction. -/
structure OfParts (P : String → Value → Prop) (Q : Value → Prop) : Prop where
  /-- It does not depend on how numbers are written. -/
  congr : ∀ {key v w}, (v == w) = true → P key w → P key v
  conjunction : ∀ {items}, P andKey (.arr items) ↔ ∃ item ∈ items, Q item
  /-- A conjunction that is no list is its own member. -/
  alone : ∀ {v}, (∀ items, v ≠ .arr items) → (P andKey v ↔ Q v)
  clause : ∀ {fields : Record}, Q (.obj fields) ↔ fields.Any P
  /-- Of an object it is a matter of the key alone, or of the entries of the object. -/
  object : ∀ key, (∀ fields, P key (.obj fields)) ∨ (∀ fields, ¬ P key (.obj fields)) ∨
    ∀ fields : Record, P key (.obj fields) ↔ fields.Any P

/-! ### Objects stay in order -/

theorem inOrder_pushConjunct (ordered : fields.All fun _ => InOrder) (item : Value) :
    (pushConjunct fields item).All fun _ => InOrder := by
  unfold pushConjunct
  split <;> exact ordered.insert trivial

theorem inOrder_pushConjuncts (ordered : fields.All fun _ => InOrder) (items : List Value) :
    (items.foldl pushConjunct fields).All fun _ => InOrder := by
  induction items generalizing fields with
  | nil => exact ordered
  | cons item rest ih => exact ih (inOrder_pushConjunct ordered item)

theorem inOrder_addEntry (orderedFields : fields.All fun _ => InOrder) (ordered : InOrder v) :
    (addEntry fields other v).All fun _ => InOrder := by
  obtain ⟨-, step⟩ | ⟨current, incoming, found, rfl, hc, hi, step⟩ | ⟨existing, -, step⟩ :=
    addEntry_cases fields other v
  · rw [step]
    exact orderedFields.insert ordered
  · have joined := joined_mergeOperators hc hi (orderedFields _ _ found) ordered
    have inOrder : InOrder (.obj (mergeOperators current incoming).1) := joined.merged_ascending
    rw [step]
    split
    · exact orderedFields.insert inOrder
    · exact inOrder_pushConjunct (orderedFields.insert inOrder) _
  · rw [step]
    split
    · exact orderedFields
    · exact inOrder_pushConjunct orderedFields _

/-- What stands in order under every key still does after an entry was folded in. -/
theorem inOrder_conjoinEntry {entry : String × Value} (orderedFields : fields.All fun _ => InOrder)
    (ordered : InOrder entry.2) : (conjoinEntry fields entry).All fun _ => InOrder := by
  obtain ⟨-, items, step, -⟩ | ⟨-, step⟩ := conjoinEntry_cases fields entry
  · exact step ▸ inOrder_pushConjuncts orderedFields items
  · exact step ▸ inOrder_addEntry orderedFields ordered

theorem inOrder_conjoinEntries {entries : List (String × Value)}
    (orderedFields : fields.All fun _ => InOrder) (ordered : ∀ entry ∈ entries, InOrder entry.2) :
    (entries.foldl conjoinEntry fields).All fun _ => InOrder := by
  induction entries generalizing fields with
  | nil => exact orderedFields
  | cons entry rest ih =>
      obtain ⟨first, others⟩ := List.forall_mem_cons.mp ordered
      exact ih (inOrder_conjoinEntry orderedFields first) others

theorem ascending_conjoinEntries {entries : List (String × Value)} (ascending : fields.Ascending) :
    Dict.Ascending (entries.foldl conjoinEntry fields) := by
  induction entries generalizing fields with
  | nil => exact ascending
  | cons entry rest ih => exact ih (ascending_conjoinEntry ascending)

theorem Ordered.all {c : Condition} (h : c.Ordered) : c.fields.All fun _ => InOrder :=
  (Dict.forall_mem_iff_all h.ascending (P := fun _ => InOrder)).mp h.objects

/-- A conjunction of conditions in order is in order. -/
theorem Ordered.and {a b : Condition} (ha : a.Ordered) (hb : b.Ordered) : (a.and b).Ordered := by
  have ascending : (a.and b).fields.Ascending := ascending_conjoinEntries ha.ascending
  exact ⟨ascending, (Dict.forall_mem_iff_all ascending (P := fun _ => InOrder)).mpr
    (inOrder_conjoinEntries ha.all hb.objects)⟩

/-- The conjunction of all conditions of a list is in order if they are. -/
theorem ordered_all {conditions : List Condition} (ordered : ∀ c ∈ conditions, c.Ordered) :
    (Condition.all conditions).Ordered :=
  List.foldlRecOn conditions Condition.and (motive := Condition.Ordered)
    ⟨Dict.ascending_nil, nofun⟩ fun _ before c member => before.and (ordered c member)

/-- The conjunction of conditions is in key order, whatever they are. -/
theorem ascending_all (conditions : List Condition) :
    (Condition.all conditions).fields.Ascending :=
  List.foldlRecOn conditions Condition.and (motive := fun c => c.fields.Ascending)
    Dict.ascending_nil fun _ before _ _ => ascending_conjoinEntries before

/-- One more condition is folded into the others. -/
theorem all_concat (conditions : List Condition) (c : Condition) :
    Condition.all (conditions ++ [c]) = (Condition.all conditions).and c := by
  simp [Condition.all]

/-- One more condition has to hold as well, unless operator maps meet under a disjunction. -/
theorem accepts_all_concat_iff {conditions : List Condition} {c : Condition}
    (ordered : ∀ old ∈ conditions, old.Ordered) (added : c.Ordered)
    (apart : DisjunctionsApart (Condition.all conditions) c) (row : Record) :
    accepts (Condition.all (conditions ++ [c])).fields row = .ok true ↔
      accepts (Condition.all conditions).fields row = .ok true ∧
        accepts c.fields row = .ok true := by
  have before := ordered_all ordered
  have meet : ∀ entry ∈ c.fields, entry.1 ≠ andKey → ∀ existing,
      (Condition.all conditions).fields.get? entry.1 = some existing →
        MayMeet entry.1 existing entry.2 := by
    intro entry member _ existing found
    exact before.mayMeet added apart found ((Dict.get?_eq_some_iff_mem added.ascending).mpr member)
  rw [all_concat, accepts, Condition.and,
    conjoinEntries_eq_true_iff before.ascending added.ascending meet]
  simp only [accepts, matchesAll_eq_allOf, allOf_eq_true_iff]

/-! ### What is false of a record -/

section False

variable {row : Record}

/-- A filter is false of a record only if one of its entries is. -/
theorem exists_of_matchesAll_eq_false {entries : List (String × Value)}
    (fails : matchesAll row entries = .ok false) :
    ∃ entry ∈ entries, matchesEntry row entry.1 entry.2 = .ok false := by
  rw [matchesAll_eq_allOf] at fails
  exact exists_of_allOf_eq_false fails

/-- Of what is added to a conjunction that holds, only the new member can make it false. -/
theorem pushConjunct_eq_false {item : Value}
    (holds : ∀ entry ∈ fields, matchesEntry row entry.1 entry.2 = .ok true)
    (fails : matchesAll row (pushConjunct fields item) = .ok false) :
    matchesClause row item = .ok false := by
  obtain ⟨items, pushed, before⟩ : ∃ items,
      pushConjunct fields item = fields.insert andKey (.arr (items ++ [item])) ∧
        ∀ other ∈ items, matchesClause row other = .ok true := by
    unfold pushConjunct
    split
    · next items found =>
      have all := holds _ (Dict.mem_of_get? found)
      rw [matchesEntry_andKey_arr, allOf_eq_true_iff] at all
      exact ⟨items, rfl, all⟩
    · next other notList found =>
      have alone := holds _ (Dict.mem_of_get? found)
      refine ⟨[other], rfl, List.forall_mem_singleton.mpr ?_⟩
      cases other with
      | arr items => exact absurd rfl (notList items)
      | obj fields => simpa [matchesEntry, matchesClause] using alone
      | _ => simp [matchesEntry] at alone
    · exact ⟨[], rfl, List.forall_mem_nil _⟩
  rw [pushed] at fails
  obtain ⟨entry, member, fails⟩ := exists_of_matchesAll_eq_false fails
  rcases Dict.mem_of_mem_insert member with rfl | old
  · rw [matchesEntry_andKey_arr] at fails
    obtain ⟨other, among, fails⟩ := exists_of_allOf_eq_false fails
    rcases List.mem_append.mp among with earlier | last
    · cases (before other earlier).symm.trans fails
    · rwa [List.mem_singleton.mp last] at fails
  · cases (holds entry old).symm.trans fails

/-- One more entry, no operator map, makes a filter that holds false only by being false. -/
theorem addEntry_eq_false (single : comparisons? v = none)
    (holds : ∀ entry ∈ fields, matchesEntry row entry.1 entry.2 = .ok true)
    (fails : matchesAll row (addEntry fields key v) = .ok false) :
    matchesEntry row key v = .ok false := by
  obtain ⟨-, step⟩ | ⟨_, incoming, -, rfl, -, operators, -⟩ | ⟨existing, -, step⟩ :=
    addEntry_cases fields key v
  · rw [step] at fails
    obtain ⟨entry, member, fails⟩ := exists_of_matchesAll_eq_false fails
    rcases Dict.mem_of_mem_insert member with rfl | old
    · exact fails
    · cases (holds entry old).symm.trans fails
  · rw [operators] at single
    cases single
  · rw [step] at fails
    split at fails
    · obtain ⟨entry, old, fails⟩ := exists_of_matchesAll_eq_false fails
      cases (holds entry old).symm.trans fails
    · have clause := pushConjunct_eq_false holds fails
      rwa [matchesClause, matchesAll_single] at clause

/-- Where the conditions of a list hold, one more literal makes their conjunction false only
by being false. -/
theorem accepts_all_concat_eq_false {conditions : List Condition}
    (notObject : ∀ fields, v ≠ .obj fields) (notList : ∀ items, v ≠ .arr items)
    (holds : accepts (Condition.all conditions).fields row = .ok true)
    (fails : accepts (Condition.all (conditions ++ [⟨[(key, v)]⟩])).fields row = .ok false) :
    matchesEntry row key v = .ok false := by
  have single : comparisons? v = none := by
    cases v with
    | obj fields => exact absurd rfl (notObject fields)
    | _ => rfl
  rw [accepts, matchesAll_eq_allOf, allOf_eq_true_iff] at holds
  rw [all_concat, accepts] at fails
  change matchesAll row (conjoinEntry (Condition.all conditions).fields (key, v)) = _ at fails
  rw [conjoinEntry] at fails
  split at fails
  · next conjunction =>
    -- a literal is no member of a conjunction, so it is refused
    cases v with
    | arr items => exact absurd rfl (notList items)
    | obj fields => exact absurd rfl (notObject fields)
    | _ =>
        have clause := pushConjunct_eq_false holds fails
        cases clause
  · exact addEntry_eq_false single holds fails

end False

/-! ### Properties of parts -/

namespace OfParts

variable {P : String → Value → Prop} {Q : Value → Prop} (parts : OfParts P Q)
include parts

/-- A map that is added to the conjunction adds what its entries have. -/
theorem any_pushConjunct {item : Value} :
    (pushConjunct fields item).Any P ↔ fields.Any P ∨ Q item := by
  unfold pushConjunct
  split
  · next items found =>
      rw [Dict.any_insert, Dict.any_of_get?_some found, parts.conjunction, parts.conjunction]
      simp only [List.mem_append, List.mem_singleton, or_and_right, exists_or, exists_eq_left]
      exact or_right_comm
  · next other notList found =>
      rw [Dict.any_insert, Dict.any_of_get?_some found, parts.conjunction, parts.alone notList]
      simp only [List.mem_cons, List.not_mem_nil, or_false, or_and_right, exists_or,
        exists_eq_left]
      exact or_right_comm
  · next absent =>
      rw [Dict.any_insert, Dict.any_of_get?_none absent, parts.conjunction]
      simp only [List.mem_singleton, exists_eq_left]
      exact or_comm

theorem any_pushConjuncts {items : List Value} :
    (items.foldl pushConjunct fields).Any P ↔ fields.Any P ∨ ∃ item ∈ items, Q item := by
  induction items generalizing fields with
  | nil => simp
  | cons item rest ih =>
      rw [List.foldl_cons, ih, parts.any_pushConjunct, or_assoc]
      simp only [List.mem_cons, or_and_right, exists_or, exists_eq_left]

/-- Two operator maps that are put together have what either has, in the merged map or in
what collides. -/
theorem merged_or_collisions {current incoming merged collisions : Record}
    (joined : Joined current incoming merged collisions) :
    P key (.obj merged) ∨ (collisions ≠ [] ∧ P key (.obj collisions)) ↔
      P key (.obj current) ∨ P key (.obj incoming) := by
  have together := joined.all_iff (fun op operand => ¬ P op operand)
    fun op v w same unlike like => unlike (parts.congr same like)
  simp only [← Dict.not_any_iff, ← not_or, not_iff_not] at together
  rcases parts.object key with always | never | entries
  · simp [always]
  · simp [never]
  · have nonempty : collisions.Any P → collisions ≠ [] := by
      rintro some rfl
      exact Dict.any_nil some
    simp only [entries, ← together]
    exact or_congr_right ⟨And.right, fun some => ⟨nonempty some, some⟩⟩

/-- An entry that is added adds what it has, be it merged with what is there or kept beside
it. -/
theorem any_addEntry (orderedFields : fields.All fun _ => InOrder) (ordered : InOrder v) :
    (addEntry fields other v).Any P ↔ fields.Any P ∨ P other v := by
  obtain ⟨absent, step⟩ | ⟨current, incoming, found, rfl, hc, hi, step⟩ | ⟨existing, found, step⟩ :=
    addEntry_cases fields other v
  · rw [step, Dict.any_insert, Dict.any_of_get?_none absent, or_comm]
  · have joined := joined_mergeOperators hc hi (orderedFields _ _ found) ordered
    rw [step, Dict.any_of_get?_some found, or_right_comm, ← parts.merged_or_collisions joined]
    split
    · next empty =>
        rw [List.isEmpty_iff] at empty
        simp [Dict.any_insert, empty]
    · next some =>
        rw [List.isEmpty_iff] at some
        rw [parts.any_pushConjunct, parts.clause, Dict.any_single, Dict.any_insert]
        simp only [some, ne_eq, not_false_eq_true, true_and]
        exact or_right_comm
  · rw [step]
    split
    · next same =>
        refine ⟨.inl, fun either => either.elim id fun there => ?_⟩
        exact (Dict.any_of_get?_some found).mpr (.inl (parts.congr same there))
    · rw [parts.any_pushConjunct, parts.clause, Dict.any_single]

/-- Folding in one entry adds what it has. -/
theorem any_conjoinEntry {entry : String × Value} (orderedFields : fields.All fun _ => InOrder)
    (ordered : InOrder entry.2) :
    (conjoinEntry fields entry).Any P ↔ fields.Any P ∨ P entry.1 entry.2 := by
  obtain ⟨joint, v⟩ := entry
  by_cases same : joint = andKey
  · subst same
    cases v with
    | arr items =>
        rw [parts.conjunction, ← parts.any_pushConjuncts]
        simp [conjoinEntry]
    | _ =>
        rw [parts.alone (by simp), ← parts.any_pushConjunct]
        simp [conjoinEntry]
  · rw [← parts.any_addEntry orderedFields ordered]
    simp [conjoinEntry, same]

theorem any_conjoinEntries {entries : List (String × Value)}
    (orderedFields : fields.All fun _ => InOrder) (ordered : ∀ entry ∈ entries, InOrder entry.2) :
    (entries.foldl conjoinEntry fields).Any P ↔
      fields.Any P ∨ ∃ entry ∈ entries, P entry.1 entry.2 := by
  induction entries generalizing fields with
  | nil => simp
  | cons entry rest ih =>
      obtain ⟨first, others⟩ := List.forall_mem_cons.mp ordered
      rw [List.foldl_cons, ih (inOrder_conjoinEntry orderedFields first) others,
        parts.any_conjoinEntry orderedFields first, or_assoc]
      simp only [List.mem_cons, or_and_right, exists_or, exists_eq_left]

/-- An entry of a conjunction has what an entry of either condition has, and no more. -/
theorem any_and {a b : Condition} (ha : a.fields.All fun _ => InOrder) (hb : b.Ordered) :
    (a.and b).fields.Any P ↔ a.fields.Any P ∨ b.fields.Any P := by
  rw [Dict.any_iff_exists_mem hb.ascending]
  exact parts.any_conjoinEntries ha hb.objects

theorem any_foldl_and {conditions : List Condition} (ordered : ∀ c ∈ conditions, c.Ordered)
    {start : Condition} (hstart : start.fields.All fun _ => InOrder) :
    (conditions.foldl Condition.and start).fields.Any P ↔
      start.fields.Any P ∨ ∃ c ∈ conditions, c.fields.Any P := by
  induction conditions generalizing start with
  | nil => simp
  | cons c rest ih =>
      obtain ⟨first, others⟩ := List.forall_mem_cons.mp ordered
      have next : (start.and c).fields.All fun _ => InOrder :=
        inOrder_conjoinEntries hstart first.objects
      rw [List.foldl_cons, ih others next, parts.any_and hstart first, or_assoc]
      simp only [List.mem_cons, or_and_right, exists_or, exists_eq_left]

/-- An entry of the filter of a selection has what an entry of a condition has, and no
more. -/
theorem any_filter_iff {s : Selection} (ordered : ∀ c ∈ s.conditions, c.Ordered) :
    s.filter.Any P ↔ ∃ c ∈ s.conditions, c.fields.Any P := by
  have nothing : always.fields.All fun _ => InOrder := Dict.all_nil
  rw [Selection.filter, Condition.all, parts.any_foldl_and ordered nothing]
  simp [always, Dict.any_nil]

end OfParts

end RecordGraph.Condition
