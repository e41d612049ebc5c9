import RecordGraph.Proofs.Data.Rounding
import RecordGraph.Proofs.Filter.Literals
import RecordGraph.Proofs.Store.Constraints
import RecordGraph.Proofs.Store.Keys

/-!
# Integers as keys

An integer key is told from another one wherever both are signed 64-bit integers. Unsigned ones
beyond these are compared by their nearest floating-point numbers, of which there are fewer than
integers: keys that are merged there are one key to the store. The check for unique keys takes
them for a repetition, a filter for one accepts rows with the other, and rows are connected by
either.
-/

namespace RecordGraph

open Number (IsWord Merged)

variable {i j : Int}

/-- A record breaks the rule for unique keys exactly where another row has its value. -/
theorem Table.exists_unique_iff {m : Model} {a : Attribute} {others : List StoredRow}
    {record : Record} {validate : Bool} {v : Value} (isKey : a.isKey = true)
    (present : Value.present? (record.get? a.name) = some v) :
    (∃ found ∈ violations m others validate record a, found.kind = .unique) ↔
      ∃ row ∈ others, row.has a.name v = true := by
  simp only [violations, present, isKey, Bool.true_and, List.any_eq_true, List.mem_append]
  constructor
  · rintro ⟨found, text | taken, unique⟩
    · split at text
      · obtain rfl := List.mem_singleton.mp text
        cases unique
      · cases text
    · split at taken
      · assumption
      · cases taken
  · intro taken
    exact ⟨_, .inr (by rw [if_pos taken]; exact List.mem_singleton_self _), rfl⟩

/-- A row is found by a value if it is live and has the value. -/
theorem Table.mem_liveWhere_iff {t : Table} {row : StoredRow} {key : String} {v : Value}
    (live : row ∈ t.live) : row.data ∈ t.liveWhere key v ↔ row.has key v = true := by
  have member : row.data ∈ t.liveRecords := List.mem_map_of_mem live
  rw [liveWhere_eq, List.mem_filter, and_iff_right member]
  simp [Linking.holdsAny, StoredRow.has]

/-- A filter that says which integer is in a column compares the integers. -/
theorem Filter.accepts_integer {key : String} {record : Record} (free : isReserved key = false)
    (stored : record.get? key = some (.ofInt i)) :
    accepts [(key, .ofInt j)] record = .ok ((Value.ofInt i).same (.ofInt j)) := by
  have literal : isLiteral (.ofInt j) = true := rfl
  rw [accepts, matchesAll_single, comparesLiteral_of_isLiteral free literal record,
    isEqual_eq_same, stored, Option.getD_some]

/-- What a stored integer `i` is taken for, wherever it is asked whether it is `j`. -/
structure TakenFor (i j : Int) (taken : Prop) : Prop where
  /-- Beside a row with the one, a record with the other breaks the rule for unique keys. -/
  unique {m : Model} {a : Attribute} {row : StoredRow} {record : Record} (validate : Bool)
    (isKey : a.isKey = true) (stored : row.data.get? a.name = some (.ofInt i))
    (given : record.get? a.name = some (.ofInt j)) :
    (∃ found ∈ Table.violations m [row] validate record a, found.kind = .unique) ↔ taken
  filter {key : String} {record : Record} (free : Filter.isReserved key = false)
    (stored : record.get? key = some (.ofInt i)) :
    Filter.accepts [(key, .ofInt j)] record = .ok true ↔ taken
  /-- The row is among those that are loaded for the key of another one. -/
  loaded {key : String} {t : Table} {row : StoredRow} (live : row ∈ t.live)
    (stored : row.data.get? key = some (.ofInt i)) :
    row.data ∈ t.liveWhere key (.ofInt j) ↔ taken
  /-- The row is the one that is to be connected. -/
  wanted {key : String} {record : Record} (stored : record.get? key = some (.ofInt i)) :
    Linking.holdsAny record key [.ofInt j] = true ↔ taken

theorem takenFor_of_same {taken : Prop} (same : (Value.ofInt i).same (.ofInt j) = true ↔ taken) :
    TakenFor i j taken where
  unique := by
    intro m a row record validate isKey stored given
    have present : Value.present? (record.get? a.name) = some (.ofInt j) := by
      rw [given]
      rfl
    rw [Table.exists_unique_iff isKey present, ← same]
    simp [StoredRow.has, stored]
  filter := by
    intro key record free stored
    rw [Filter.accepts_integer free stored, ← same, Except.ok.injEq]
  loaded := by
    intro key t row live stored
    rw [Table.mem_liveWhere_iff live, ← same]
    simp [StoredRow.has, stored]
  wanted := by
    intro key record stored
    rw [← same]
    simp [Linking.holdsAny, stored]

theorem Value.same_integers_iff (hi : IsWord i) (hj : IsWord j) :
    (ofInt i).same (ofInt j) = true ↔ i = j ∨ Merged i j := by
  obtain ⟨merged, exact⟩ := Number.compare_int hi hj
  rw [ofInt, ofInt, same_num, beq_iff_eq]
  by_cases is : Merged i j
  · simp [merged is, is]
  · simp [exact is, is]

/-- Two integers are compared in their order and are the same only if they are equal, unless one
of them does not fit a signed word and they are merged: then they count as equal. What is unique,
which rows a filter accepts and which rows are connected depends on this and on nothing else. -/
theorem integers_told_apart_iff (hi : IsWord i) (hj : IsWord j) :
    (Merged i j → (Value.ofInt i).compare? (.ofInt j) = some .eq) ∧
      (¬ Merged i j → (Value.ofInt i).compare? (.ofInt j) = some (Ord.compare i j)) ∧
      ((Value.ofInt i).same (.ofInt j) = true ↔ i = j ∨ Merged i j) ∧
      TakenFor i j (i = j ∨ Merged i j) := by
  obtain ⟨merged, exact⟩ := Number.compare_int hi hj
  refine ⟨fun is => ?_, fun is => ?_, Value.same_integers_iff hi hj,
    takenFor_of_same (Value.same_integers_iff hi hj)⟩
  · exact congrArg some (merged is)
  · exact congrArg some (exact is)

section Parcels

/-- A parcel with the number of its label as key, which is given and not counted. -/
def labelled : Model :=
  { name := "Parcel", attributes := [{ name := "id", dataType := .integer, primaryKey := true }] }

/-- The least unsigned integer that is no signed one, and the greatest unsigned one. -/
theorem integers_told_apart_unsigned :
    (Value.ofInt (2 ^ 63)).compare? (.ofInt (2 ^ 64 - 1)) = some .lt ∧
      ¬ ∃ found ∈ Table.violations labelled [{ data := [("id", .ofInt (2 ^ 63))] }] true
        [("id", .ofInt (2 ^ 64 - 1))] { name := "id", dataType := .integer, primaryKey := true },
          found.kind = .unique := by
  have apart : ¬ Merged (2 ^ 63) (2 ^ 64 - 1) := fun merged => absurd merged.near (by decide)
  obtain ⟨-, compared, -, taken⟩ := integers_told_apart_iff
    (i := 2 ^ 63) (j := 2 ^ 64 - 1) (by decide) (by decide)
  refine ⟨compared apart, fun found => ?_⟩
  rcases (taken.unique true rfl rfl rfl).mp found with same | merged
  · exact absurd same (by decide)
  · exact apart merged

/-- Two neighbouring unsigned integers are one key: a parcel with the second one is refused
beside a parcel with the first one, which is also found by the second one. -/
theorem insert_refuses_neighbour :
    let first : Record := [("id", .ofInt 9223372036854775808)]
    let second : Record := [("id", .ofInt 9223372036854775809)]
    IsWord 9223372036854775808 ∧ IsWord 9223372036854775809 ∧
      (Value.ofInt 9223372036854775808).compare? (.ofInt 9223372036854775809) = some .eq ∧
      Table.insert labelled true second { rows := [{ data := first }] } =
        .error (.validation ⟨"Validation error", [⟨"id", .unique, "id must be unique"⟩]⟩) ∧
      Filter.accepts second first = .ok true :=
  ⟨by decide, by decide, rfl, rfl, rfl⟩

end Parcels

end RecordGraph
