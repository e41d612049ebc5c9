import RecordGraph.Proofs.Filter.Evaluation
import RecordGraph.Select.Condition

/-!
# Conditions put together

Folding one condition into another holds of a row exactly when both hold, and it is
never refused if neither is. What carries this is `Settled`: under the conjunction key
stands a list of maps that all have an answer, and an operator map has an answer for
each of its operators, not only up to the first that fails. Merging reorders the
operators and splits off collisions, so an answer for the map as a whole is not enough.
-/

namespace RecordGraph

namespace Filter

variable {row : Record} {key : String}

theorem isReserved_andKey : isReserved andKey = true := by decide

theorem isReserved_orKey : isReserved orKey = true := by decide

theorem andKey_ne_orKey : andKey ≠ orKey := by decide

theorem matchesEntry_of_free (h : isReserved key = false) (v : Value) :
    matchesEntry row key v = matchesColumn row key v := by
  have notAnd : key ≠ andKey := fun same => by simp [same, isReserved_andKey] at h
  have notOr : key ≠ orKey := fun same => by simp [same, isReserved_orKey] at h
  cases v <;> simp [matchesEntry, notAnd, notOr]

theorem matchesAll_single (v : Value) : matchesAll row [(key, v)] = matchesEntry row key v := by
  rw [matchesAll]
  cases matchesEntry row key v with
  | error e => rfl
  | ok b => cases b <;> rfl

/-- A filter holds exactly when all its entries do. -/
theorem matchesAll_eq_true_iff {fields : Record} (h : fields.Ascending) :
    matchesAll row fields = .ok true ↔
      fields.All fun key v => matchesEntry row key v = .ok true := by
  rw [matchesAll_eq_allOf, allOf_eq_true_iff]
  exact Dict.forall_mem_iff_all h (P := fun key v => matchesEntry row key v = .ok true)

theorem matchesEntry_andKey_arr (items : List Value) :
    matchesEntry row andKey (.arr items) = allOf (matchesClause row) items := by
  simp [matchesEntry, matchesClauses_eq_allOf]

end Filter

namespace Condition

open RecordGraph.Filter

variable {row : Record} {key : String} {fields : Record}

theorem comparisons?_eq_some_iff {v : Value} {ops : Record} :
    comparisons? v = some ops ↔
      v = .obj ops ∧ allReserved ops = true ∧ isReference ops = false := by
  cases v with
  | obj entries =>
      simp only [comparisons?, Option.ite_none_right_eq_some, Option.some.injEq, Value.obj.injEq,
        Bool.and_eq_true, Bool.not_eq_true']
      constructor
      · rintro ⟨⟨reserved, reference⟩, rfl⟩
        exact ⟨rfl, reserved, reference⟩
      · rintro ⟨rfl, reserved, reference⟩
        exact ⟨⟨reserved, reference⟩, rfl⟩
  | _ => simp [comparisons?]

/-- An operator map under a column is evaluated operator by operator. -/
theorem matchesEntry_comparisons {ops : Record} (free : isReserved key = false)
    (h : comparisons? (.obj ops) = some ops) :
    matchesEntry row key (.obj ops) = allOf (matchesOperator row (row.get? key)) ops := by
  obtain ⟨-, reserved, reference⟩ := comparisons?_eq_some_iff.mp h
  rw [matchesEntry_of_free free]
  simp [matchesColumn, free, reference, reserved, matchesOperators_eq_allOf]

theorem matchesEntry_comparisons_eq_true_iff {ops : Record} (free : isReserved key = false)
    (h : comparisons? (.obj ops) = some ops) (ascending : ops.Ascending) :
    matchesEntry row key (.obj ops) = .ok true ↔
      ops.All fun op operand => matchesOperator row (row.get? key) (op, operand) = .ok true := by
  rw [matchesEntry_comparisons free h, allOf_eq_true_iff, ← Dict.forall_mem_iff_all ascending]

/-- Whether fields are an operator map is a matter of their keys alone, and of all of
them. -/
theorem comparisons?_of_keys {ops : Record} {entry : String × Value} (first : entry ∈ ops)
    (h : ∀ op ∈ ops.keys, isReserved op = true ∧ op ≠ columnKey ∧ op ≠ callKey) :
    comparisons? (.obj ops) = some ops := by
  refine comparisons?_eq_some_iff.mpr ⟨rfl, ?_, ?_⟩
  · simp only [allReserved, Bool.and_eq_true, Bool.not_eq_true', List.isEmpty_eq_false_iff,
      List.all_eq_true]
    exact ⟨List.ne_nil_of_mem first, fun e member => (h e.1 (List.mem_map_of_mem member)).1⟩
  · simp only [isReference, Dict.contains, Bool.or_eq_false_iff]
    constructor <;> rw [← Bool.not_eq_true, ← Dict.mem_keys_iff] <;> intro member
    · exact (h _ member).2.1 rfl
    · exact (h _ member).2.2 rfl

theorem keys_of_comparisons? {ops : Record} (h : comparisons? (.obj ops) = some ops) {op : String}
    (member : op ∈ ops.keys) : isReserved op = true ∧ op ≠ columnKey ∧ op ≠ callKey := by
  obtain ⟨-, reserved, reference⟩ := comparisons?_eq_some_iff.mp h
  simp only [allReserved, Bool.and_eq_true, List.all_eq_true] at reserved
  simp only [isReference, Dict.contains, Bool.or_eq_false_iff] at reference
  obtain ⟨entry, found, rfl⟩ := List.mem_map.mp member
  refine ⟨reserved.2 entry found, ?_, ?_⟩ <;> intro same <;> rw [same, Dict.mem_keys_iff] at member
  · simp [reference.1] at member
  · simp [reference.2] at member

/-- One step of putting operators together. -/
private def mergeStep (state : Record × Record) (entry : String × Value) : Record × Record :=
  match state.1.get? entry.1 with
  | some existing =>
    if existing == entry.2 then state else (state.1, state.2.insert entry.1 entry.2)
  | none => (state.1.insert entry.1 entry.2, state.2)

private theorem mergeOperators_eq_foldl (current incoming : Record) :
    mergeOperators current incoming = incoming.foldl mergeStep (current, []) := by
  rfl

/-- What is known of the two parts after some operators were put together: they are
dictionaries of operators that were there before, and together they say as much. -/
private structure Merges (P : String → Value → Prop) (before : Record × Record)
    (entries : List (String × Value)) (after : Record × Record) : Prop where
  merged_ascending : after.1.Ascending
  collisions_ascending : after.2.Ascending
  merged_keys : ∀ op, op ∈ after.1.keys ↔ op ∈ before.1.keys ∨ op ∈ entries.map Prod.fst
  collision_keys : ∀ op ∈ after.2.keys, op ∈ before.2.keys ∨ op ∈ entries.map Prod.fst
  all_iff : after.1.All P ∧ after.2.All P ↔
    (before.1.All P ∧ before.2.All P) ∧ ∀ entry ∈ entries, P entry.1 entry.2

private theorem merges_step {P : String → Value → Prop}
    (congr : ∀ op v w, (v == w) = true → P op v → P op w) {state : Record × Record}
    (entry : String × Value) (merged : state.1.Ascending) (collisions : state.2.Ascending)
    (fresh : state.2.get? entry.1 = none) :
    Merges P state [entry] (mergeStep state entry) := by
  obtain ⟨op, operand⟩ := entry
  cases h : state.1.get? op with
  | none =>
      have step : mergeStep state (op, operand) = (state.1.insert op operand, state.2) := by
        simp [mergeStep, h]
      rw [step]
      refine ⟨Dict.ascending_insert _ _ merged, collisions, ?_, fun _ => Or.inl, ?_⟩
      · intro k
        rw [Dict.mem_keys_insert]
        simp [or_comm]
      · rw [Dict.all_insert, Dict.all_of_get?_none h]
        simp only [List.mem_singleton, forall_eq]
        grind
  | some existing =>
      have known : op ∈ state.1.keys := Dict.mem_keys_iff.mpr (by simp [h])
      have keys : ∀ k, k ∈ state.1.keys ↔ k ∈ state.1.keys ∨ k ∈ [op] := by
        intro k
        simp only [List.mem_singleton, iff_self_or]
        rintro rfl
        exact known
      by_cases same : (existing == operand) = true
      · have step : mergeStep state (op, operand) = state := by simp [mergeStep, h, same]
        rw [step]
        refine ⟨merged, collisions, keys, fun _ => Or.inl, ?_⟩
        have implied (all : state.1.All P) : P op operand := congr op _ _ same (all op existing h)
        simp only [List.mem_singleton, forall_eq]
        grind
      · have step : mergeStep state (op, operand) = (state.1, state.2.insert op operand) := by
          simp [mergeStep, h, same]
        rw [step]
        refine ⟨merged, Dict.ascending_insert _ _ collisions, keys, ?_, ?_⟩
        · intro k member
          rcases Dict.mem_keys_insert.mp member with rfl | member
          · exact .inr List.mem_cons_self
          · exact .inl member
        · rw [Dict.all_insert, Dict.all_of_get?_none fresh]
          simp only [List.mem_singleton, forall_eq]
          grind

private theorem merges_foldl {P : String → Value → Prop}
    (congr : ∀ op v w, (v == w) = true → P op v → P op w) {entries : Record}
    (ascending : entries.Ascending) :
    ∀ state : Record × Record, state.1.Ascending → state.2.Ascending →
      (∀ op ∈ entries.keys, state.2.get? op = none) →
      Merges P state entries (entries.foldl mergeStep state) := by
  induction entries with
  | nil =>
      intro state merged collisions _
      exact ⟨merged, collisions, by simp, by simp, by simp⟩
  | cons entry rest ih =>
      intro state merged collisions fresh
      obtain ⟨op, operand⟩ := entry
      have first := merges_step congr (op, operand) merged collisions
        (fresh op List.mem_cons_self)
      have later := ih ascending.tail (mergeStep state (op, operand)) first.merged_ascending
        first.collisions_ascending ?_
      · refine ⟨later.merged_ascending, later.collisions_ascending, ?_, ?_, ?_⟩
        · intro k
          rw [List.foldl_cons, later.merged_keys, first.merged_keys]
          simp [or_assoc]
        · intro k member
          rcases later.collision_keys k member with member | member
          · rcases first.collision_keys k member with member | member
            · exact .inl member
            · exact .inr (List.mem_cons.mpr (.inl (List.mem_singleton.mp member)))
          · exact .inr (List.mem_cons_of_mem _ member)
        · rw [List.foldl_cons, later.all_iff, first.all_iff, List.forall_mem_cons]
          simp [and_assoc]
      · -- the keys still to come are past the one just handled
        intro k member
        obtain ⟨entry, found, rfl⟩ := List.mem_map.mp member
        have less : op < entry.1 := (List.pairwise_cons.mp ascending).1 entry found
        refine Option.eq_none_iff_forall_ne_some.mpr fun v known => ?_
        rcases first.collision_keys entry.1 (Dict.mem_keys_iff.mpr (by simp [known])) with old | new
        · have absent := fresh entry.1 (List.mem_cons_of_mem _ member)
          rw [Dict.mem_keys_iff, absent] at old
          simp at old
        · rw [List.map_singleton, List.mem_singleton] at new
          exact String.lt_irrefl _ (new ▸ less)

/-- Putting two operator maps together keeps what they say about every operator. -/
private theorem merges_mergeOperators {P : String → Value → Prop}
    (congr : ∀ op v w, (v == w) = true → P op v → P op w) {current incoming : Record}
    (hc : current.Ascending) (hi : incoming.Ascending) :
    Merges P (current, []) incoming (mergeOperators current incoming) := by
  rw [mergeOperators_eq_foldl]
  exact merges_foldl congr hi (current, []) hc Dict.ascending_nil fun _ _ => rfl

theorem ascending_pushConjunct (h : fields.Ascending) (item : Value) :
    (pushConjunct fields item).Ascending := by
  unfold pushConjunct
  split <;> exact Dict.ascending_insert _ _ h

/-- A map that is added to the conjunction has to hold as well. -/
theorem pushConjunct_eq_true_iff (h : fields.Ascending) (item : Value) :
    matchesAll row (pushConjunct fields item) = .ok true ↔
      matchesAll row fields = .ok true ∧ matchesClause row item = .ok true := by
  have pair (other : Value) : matchesEntry row andKey (.arr [other, item]) = .ok true ↔
      matchesClause row other = .ok true ∧ matchesClause row item = .ok true := by
    simp [matchesEntry_andKey_arr, allOf_eq_true_iff]
  have alone (other : Value) (scalar : ∀ items, other ≠ .arr items) :
      matchesEntry row andKey other = .ok true ↔ matchesClause row other = .ok true := by
    cases other <;> simp_all [matchesEntry, matchesClause]
  rw [matchesAll_eq_true_iff (ascending_pushConjunct h item), matchesAll_eq_true_iff h]
  unfold pushConjunct
  split
  · next items found =>
      rw [Dict.all_insert, Dict.all_of_get?_some found]
      simp only [matchesEntry_andKey_arr, allOf_eq_true_iff, List.forall_mem_append,
        List.mem_singleton, forall_eq]
      grind
  · next other notList found =>
      rw [Dict.all_insert, Dict.all_of_get?_some found, pair, alone other notList]
      grind
  · next absent =>
      rw [Dict.all_insert, Dict.all_of_get?_none absent]
      simp only [matchesEntry_andKey_arr, allOf_eq_true_iff, List.mem_singleton, forall_eq]
      exact and_comm

/-- An entry that has an answer on a row, part by part. -/
def SettledEntry (row : Record) (key : String) (v : Value) : Prop :=
  if key = andKey then
    ∃ items, v = .arr items ∧ ∀ item ∈ items, ∃ b, matchesClause row item = .ok b
  else
    (∃ b, matchesEntry row key v = .ok b) ∧
    ∀ ops, comparisons? v = some ops → isReserved key = false ∧ ops.Ascending ∧
      ops.All fun op operand => ∃ b, matchesOperator row (row.get? key) (op, operand) = .ok b

/-- A condition all of whose parts have an answer on a row. -/
structure Settled (row fields : Record) : Prop where
  ascending : fields.Ascending
  entries : fields.All (SettledEntry row)

theorem SettledEntry.answer {v : Value} (h : SettledEntry row key v) :
    ∃ b, matchesEntry row key v = .ok b := by
  unfold SettledEntry at h
  split at h
  · next same =>
      obtain ⟨items, rfl, clauses⟩ := h
      rw [same, matchesEntry_andKey_arr]
      exact exists_allOf_eq clauses
  · exact h.1

/-- A settled condition is never refused. -/
theorem Settled.answer (h : Settled row fields) : ∃ b, matchesAll row fields = .ok b := by
  rw [matchesAll_eq_allOf]
  refine exists_allOf_eq ((Dict.forall_mem_iff_all h.ascending
    (P := fun key v => ∃ b, matchesEntry row key v = .ok b)).mpr ?_)
  exact h.entries.mono fun _ _ => SettledEntry.answer

theorem settled_always : Settled row [] :=
  ⟨Dict.ascending_nil, Dict.all_nil⟩

theorem settledEntry_andKey {items : List Value} :
    SettledEntry row andKey (.arr items) ↔
      ∀ item ∈ items, ∃ b, matchesClause row item = .ok b := by
  simp [SettledEntry]

theorem Settled.pushConjunct (h : Settled row fields) {item : Value}
    (answer : ∃ b, matchesClause row item = .ok b) : Settled row (pushConjunct fields item) := by
  refine ⟨ascending_pushConjunct h.ascending item, ?_⟩
  unfold Condition.pushConjunct
  split
  · next items found =>
      obtain ⟨known, others⟩ := (Dict.all_of_get?_some found).mp h.entries
      refine Dict.all_insert.mpr ⟨settledEntry_andKey.mpr ?_, others⟩
      simp only [List.forall_mem_append, List.forall_mem_singleton]
      exact ⟨settledEntry_andKey.mp known, answer⟩
  · next other notList found =>
      -- a settled conjunction is a list
      obtain ⟨items, rfl, -⟩ : ∃ items, other = .arr items ∧ _ := by
        simpa [SettledEntry] using h.entries andKey other found
      exact absurd rfl (notList items)
  · next absent =>
      refine Dict.all_insert.mpr ⟨settledEntry_andKey.mpr ?_, ?_⟩
      · simpa using answer
      · exact (Dict.all_of_get?_none absent).mpr h.entries

/-- What may meet under a key: two operator maps only under a column. -/
def Mergeable (key : String) (existing incoming : Value) : Prop :=
  ∀ current ops, comparisons? existing = some current → comparisons? incoming = some ops →
    isReserved key = false ∧ current.Ascending ∧ ops.Ascending

theorem SettledEntry.mergeable {v w : Value} (hv : SettledEntry row key v)
    (hw : SettledEntry row key w) (ne : key ≠ andKey) : Mergeable key v w := by
  intro current ops known new
  simp only [SettledEntry, ne, if_false] at hv hw
  obtain ⟨free, ascending, -⟩ := hv.2 current known
  exact ⟨free, ascending, (hw.2 ops new).2.1⟩

/-- What becomes of two operator maps that are put together: the merged operators, and the
collisions if there are any, are operator maps again, and together they say as much. -/
structure Joined (current incoming merged collisions : Record) : Prop where
  merged_ascending : merged.Ascending
  collisions_ascending : collisions.Ascending
  merged_map : comparisons? (.obj merged) = some merged
  collisions_map : collisions ≠ [] → comparisons? (.obj collisions) = some collisions
  all_iff : ∀ P : String → Value → Prop, (∀ op v w, (v == w) = true → P op v → P op w) →
    (merged.All P ∧ collisions.All P ↔ current.All P ∧ incoming.All P)

theorem joined_mergeOperators {current incoming : Record}
    (hc : comparisons? (.obj current) = some current)
    (hi : comparisons? (.obj incoming) = some incoming)
    (ascendingCurrent : current.Ascending) (ascendingIncoming : incoming.Ascending) :
    Joined current incoming (mergeOperators current incoming).1
      (mergeOperators current incoming).2 := by
  have h := merges_mergeOperators (P := fun _ _ => True) (fun _ _ _ _ _ => trivial)
    ascendingCurrent ascendingIncoming
  refine ⟨h.merged_ascending, h.collisions_ascending, ?_, ?_, ?_⟩
  · obtain ⟨entry, rest, rfl⟩ : ∃ entry rest, current = entry :: rest := by
      cases current with
      | nil => simp [comparisons?, allReserved] at hc
      | cons entry rest => exact ⟨entry, rest, rfl⟩
    have first := (h.merged_keys entry.1).mpr (.inl List.mem_cons_self)
    obtain ⟨found, member, -⟩ := List.mem_map.mp first
    refine comparisons?_of_keys member fun op known => ?_
    rcases (h.merged_keys op).mp known with old | new
    · exact keys_of_comparisons? hc old
    · exact keys_of_comparisons? hi new
  · intro some
    obtain ⟨entry, rest, split⟩ := List.exists_cons_of_ne_nil some
    refine comparisons?_of_keys (split ▸ List.mem_cons_self) fun op known => ?_
    rcases h.collision_keys op known with old | new
    · simp [Dict.keys] at old
    · exact keys_of_comparisons? hi new
  · intro P congr
    have all := (merges_mergeOperators congr ascendingCurrent ascendingIncoming).all_iff
    rw [Dict.forall_mem_iff_all ascendingIncoming (P := P)] at all
    simpa [Dict.all_nil] using all

theorem addEntry_of_comparisons {existing v : Value} {current incoming : Record}
    (found : fields.get? key = some existing) (hc : comparisons? existing = some current)
    (hi : comparisons? v = some incoming) :
    addEntry fields key v =
      if (mergeOperators current incoming).2.isEmpty then
        fields.insert key (.obj (mergeOperators current incoming).1)
      else
        pushConjunct (fields.insert key (.obj (mergeOperators current incoming).1))
          (.obj [(key, .obj (mergeOperators current incoming).2)]) := by
  simp [addEntry, found, hc, hi]

/-- What adding an entry amounts to: it is stored under a free key, its operators are put
together with those that are there, or it is kept beside what is there. -/
theorem addEntry_cases (fields : Record) (key : String) (v : Value) :
    (fields.get? key = none ∧ addEntry fields key v = fields.insert key v) ∨
    (∃ current incoming, fields.get? key = some (.obj current) ∧ v = .obj incoming ∧
      comparisons? (.obj current) = some current ∧ comparisons? (.obj incoming) = some incoming ∧
      addEntry fields key v =
        if (mergeOperators current incoming).2.isEmpty then
          fields.insert key (.obj (mergeOperators current incoming).1)
        else
          pushConjunct (fields.insert key (.obj (mergeOperators current incoming).1))
            (.obj [(key, .obj (mergeOperators current incoming).2)])) ∨
    (∃ existing, fields.get? key = some existing ∧
      addEntry fields key v =
        if existing == v then fields else pushConjunct fields (.obj [(key, v)])) := by
  cases found : fields.get? key with
  | none => exact .inl ⟨rfl, by simp [addEntry, found]⟩
  | some existing =>
      by_cases both : ∃ current incoming,
          comparisons? existing = some current ∧ comparisons? v = some incoming
      · obtain ⟨current, incoming, hc, hi⟩ := both
        have step := addEntry_of_comparisons found hc hi
        obtain ⟨rfl, -⟩ := comparisons?_eq_some_iff.mp hc
        obtain ⟨rfl, -⟩ := comparisons?_eq_some_iff.mp hi
        exact .inr (.inl ⟨current, incoming, rfl, rfl, hc, hi, step⟩)
      · have other : ∀ current incoming,
            comparisons? existing = some current → comparisons? v ≠ some incoming :=
          fun current incoming hc hi => both ⟨current, incoming, hc, hi⟩
        exact .inr (.inr ⟨existing, rfl, by simp only [addEntry, found]⟩)

/-- Operators that are added under a column have to hold as well. -/
private theorem addEntry_comparisons_eq_true_iff (h : fields.Ascending) {current incoming : Record}
    (found : fields.get? key = some (.obj current))
    (hc : comparisons? (.obj current) = some current)
    (hi : comparisons? (.obj incoming) = some incoming) (free : isReserved key = false)
    (ascendingCurrent : current.Ascending) (ascendingIncoming : incoming.Ascending) :
    matchesAll row (addEntry fields key (.obj incoming)) = .ok true ↔
      matchesAll row fields = .ok true ∧ matchesEntry row key (.obj incoming) = .ok true := by
  rw [addEntry_of_comparisons found hc hi]
  have joined := joined_mergeOperators hc hi ascendingCurrent ascendingIncoming
  have together := joined.all_iff
    (fun op operand => matchesOperator row (row.get? key) (op, operand) = .ok true)
    fun op v w same holds => matchesOperator_congr same op ▸ holds
  have inserted : matchesAll row (fields.insert key (.obj (mergeOperators current incoming).1))
      = .ok true ↔ _ :=
    (matchesAll_eq_true_iff (Dict.ascending_insert _ _ h)).trans Dict.all_insert
  rw [matchesEntry_comparisons_eq_true_iff free joined.merged_map joined.merged_ascending]
    at inserted
  rw [matchesAll_eq_true_iff h, Dict.all_of_get?_some found,
    matchesEntry_comparisons_eq_true_iff free hc ascendingCurrent,
    matchesEntry_comparisons_eq_true_iff free hi ascendingIncoming]
  split
  · next empty =>
      rw [List.isEmpty_iff] at empty
      rw [inserted]
      simp only [empty, Dict.all_nil, and_true] at together
      grind
  · next some =>
      have nonempty : (mergeOperators current incoming).2 ≠ [] := by simpa using some
      rw [pushConjunct_eq_true_iff (Dict.ascending_insert _ _ h), inserted]
      simp only [matchesClause, matchesAll_single]
      rw [matchesEntry_comparisons_eq_true_iff free (joined.collisions_map nonempty)
        joined.collisions_ascending]
      grind

/-- An entry that is added has to hold as well. -/
theorem addEntry_eq_true_iff (h : fields.Ascending) {v : Value}
    (meet : ∀ existing, fields.get? key = some existing → Mergeable key existing v) :
    matchesAll row (addEntry fields key v) = .ok true ↔
      matchesAll row fields = .ok true ∧ matchesEntry row key v = .ok true := by
  obtain ⟨absent, step⟩ | ⟨current, incoming, found, rfl, hc, hi, -⟩ | ⟨existing, found, step⟩ :=
    addEntry_cases fields key v
  · rw [step, matchesAll_eq_true_iff (Dict.ascending_insert _ _ h), matchesAll_eq_true_iff h,
      Dict.all_insert, Dict.all_of_get?_none absent, and_comm]
  · obtain ⟨free, ascendingCurrent, ascendingIncoming⟩ := meet _ found _ _ hc hi
    exact addEntry_comparisons_eq_true_iff h found hc hi free ascendingCurrent ascendingIncoming
  · rw [step]
    split
    · next same =>
        refine ⟨fun holds => ⟨holds, ?_⟩, And.left⟩
        have known := (matchesAll_eq_true_iff h).mp holds key existing found
        exact (matchesEntry_congr same).mp known
    · rw [pushConjunct_eq_true_iff h]
      simp only [matchesClause, matchesAll_single]

theorem settledEntry_of_ne (ne : key ≠ andKey) {v : Value} :
    SettledEntry row key v ↔
      (∃ b, matchesEntry row key v = .ok b) ∧
      ∀ ops, comparisons? v = some ops → isReserved key = false ∧ ops.Ascending ∧
        ops.All fun op operand =>
          ∃ b, matchesOperator row (row.get? key) (op, operand) = .ok b := by
  simp [SettledEntry, ne]

/-- An operator map has an answer when each of its operators has one. -/
theorem settledEntry_comparisons {ops : Record} (free : isReserved key = false)
    (h : comparisons? (.obj ops) = some ops) (ascending : ops.Ascending)
    (answers : ops.All fun op operand =>
      ∃ b, matchesOperator row (row.get? key) (op, operand) = .ok b) :
    SettledEntry row key (.obj ops) := by
  have ne : key ≠ andKey := fun same => by simp [same, isReserved_andKey] at free
  refine (settledEntry_of_ne ne).mpr ⟨?_, fun others same => ?_⟩
  · rw [matchesEntry_comparisons free h]
    exact exists_allOf_eq ((Dict.forall_mem_iff_all ascending (P := fun op operand =>
      ∃ b, matchesOperator row (row.get? key) (op, operand) = .ok b)).mpr answers)
  · obtain rfl : ops = others := Option.some.inj (h.symm.trans same)
    exact ⟨free, ascending, answers⟩

private theorem Settled.addEntry_comparisons (h : Settled row fields) {current incoming : Record}
    (found : fields.get? key = some (.obj current))
    (hc : comparisons? (.obj current) = some current)
    (hi : comparisons? (.obj incoming) = some incoming)
    (entry : SettledEntry row key (.obj incoming)) (ne : key ≠ andKey) :
    Settled row (Condition.addEntry fields key (.obj incoming)) := by
  obtain ⟨known, others⟩ := (Dict.all_of_get?_some found).mp h.entries
  obtain ⟨free, ascendingCurrent, answersCurrent⟩ :=
    ((settledEntry_of_ne ne).mp known).2 current hc
  obtain ⟨-, ascendingIncoming, answersIncoming⟩ :=
    ((settledEntry_of_ne ne).mp entry).2 incoming hi
  rw [addEntry_of_comparisons found hc hi]
  have joined := joined_mergeOperators hc hi ascendingCurrent ascendingIncoming
  obtain ⟨answersMerged, answersCollisions⟩ := (joined.all_iff
    (fun op operand => ∃ b, matchesOperator row (row.get? key) (op, operand) = .ok b)
    fun op v w same holds => matchesOperator_congr same op ▸ holds).mpr
      ⟨answersCurrent, answersIncoming⟩
  have merged : Settled row (fields.insert key (.obj (mergeOperators current incoming).1)) :=
    ⟨Dict.ascending_insert _ _ h.ascending, Dict.all_insert.mpr
      ⟨settledEntry_comparisons free joined.merged_map joined.merged_ascending answersMerged,
        others⟩⟩
  split
  · exact merged
  · next some =>
      have nonempty : (mergeOperators current incoming).2 ≠ [] := by simpa using some
      refine merged.pushConjunct ?_
      simp only [matchesClause, matchesAll_single]
      exact (settledEntry_comparisons free (joined.collisions_map nonempty)
        joined.collisions_ascending answersCollisions).answer

theorem Settled.addEntry (h : Settled row fields) {v : Value} (entry : SettledEntry row key v)
    (ne : key ≠ andKey) : Settled row (addEntry fields key v) := by
  obtain ⟨absent, step⟩ | ⟨current, incoming, found, rfl, hc, hi, -⟩ | ⟨existing, found, step⟩ :=
    addEntry_cases fields key v
  · rw [step]
    refine ⟨Dict.ascending_insert _ _ h.ascending, Dict.all_insert.mpr ⟨entry, ?_⟩⟩
    exact (Dict.all_of_get?_none absent).mpr h.entries
  · exact h.addEntry_comparisons found hc hi entry ne
  · rw [step]
    split
    · exact h
    · refine h.pushConjunct ?_
      simp only [matchesClause, matchesAll_single]
      exact entry.answer

theorem Settled.pushConjuncts (h : Settled row fields) {items : List Value}
    (answers : ∀ item ∈ items, ∃ b, matchesClause row item = .ok b) :
    Settled row (items.foldl Condition.pushConjunct fields) ∧
      (matchesAll row (items.foldl Condition.pushConjunct fields) = .ok true ↔
        matchesAll row fields = .ok true ∧ ∀ item ∈ items, matchesClause row item = .ok true) := by
  induction items generalizing fields with
  | nil => simpa using h
  | cons item rest ih =>
      rw [List.forall_mem_cons] at answers
      obtain ⟨settled, holds⟩ := ih (h.pushConjunct answers.1) answers.2
      rw [List.foldl_cons, holds, pushConjunct_eq_true_iff h.ascending, List.forall_mem_cons]
      exact ⟨settled, and_assoc⟩

/-- Folding in one settled entry: the result is settled and says what both say. -/
theorem Settled.conjoinEntry (h : Settled row fields) {entry : String × Value}
    (settled : SettledEntry row entry.1 entry.2) :
    Settled row (conjoinEntry fields entry) ∧
      (matchesAll row (conjoinEntry fields entry) = .ok true ↔
        matchesAll row fields = .ok true ∧ matchesEntry row entry.1 entry.2 = .ok true) := by
  obtain ⟨key, v⟩ := entry
  by_cases same : key = andKey
  · subst same
    obtain ⟨items, rfl, answers⟩ : ∃ items, v = .arr items ∧ _ := by
      simpa only [SettledEntry, if_true] using settled
    have step : Condition.conjoinEntry fields (andKey, .arr items) =
        items.foldl Condition.pushConjunct fields := by simp [Condition.conjoinEntry]
    rw [step, matchesEntry_andKey_arr, allOf_eq_true_iff]
    exact h.pushConjuncts answers
  · have step : Condition.conjoinEntry fields (key, v) = Condition.addEntry fields key v := by
      simp [Condition.conjoinEntry, same]
    rw [step]
    refine ⟨h.addEntry settled same, addEntry_eq_true_iff h.ascending fun existing found => ?_⟩
    exact (h.entries key existing found).mergeable settled same

theorem Settled.conjoinEntries (h : Settled row fields) {entries : List (String × Value)}
    (settled : ∀ entry ∈ entries, SettledEntry row entry.1 entry.2) :
    Settled row (entries.foldl Condition.conjoinEntry fields) ∧
      (matchesAll row (entries.foldl Condition.conjoinEntry fields) = .ok true ↔
        matchesAll row fields = .ok true ∧
          ∀ entry ∈ entries, matchesEntry row entry.1 entry.2 = .ok true) := by
  induction entries generalizing fields with
  | nil => simpa using h
  | cons entry rest ih =>
      rw [List.forall_mem_cons] at settled
      obtain ⟨first, holdsFirst⟩ := h.conjoinEntry settled.1
      obtain ⟨later, holdsLater⟩ := ih first settled.2
      rw [List.foldl_cons, holdsLater, holdsFirst, List.forall_mem_cons]
      exact ⟨later, and_assoc⟩

/-- Both conditions, of settled conditions: settled again, and true exactly of the rows
that both are true of. -/
theorem Settled.and {a b : Condition} (ha : Settled row a.fields) (hb : Settled row b.fields) :
    Settled row (a.and b).fields ∧
      (matchesAll row (a.and b).fields = .ok true ↔
        matchesAll row a.fields = .ok true ∧ matchesAll row b.fields = .ok true) := by
  rw [matchesAll_eq_allOf b.fields, allOf_eq_true_iff]
  exact ha.conjoinEntries ((Dict.forall_mem_iff_all hb.ascending).mpr hb.entries)

end Condition

end RecordGraph
