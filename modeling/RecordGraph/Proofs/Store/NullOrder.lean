import Mathlib.Data.List.Pairwise
import RecordGraph.Proofs.Store.Ordering

/-!
# Where nothing stands

A missing value or null comes after every value in the comparison of one column, and the
direction of the column turns this around with the rest. So records without a value stand last
in ascending order and first in descending order, whatever else is in the column and whatever
the further columns are: the first column alone decides between a record with a value and one
without, also where values cannot be compared with each other.
-/

namespace RecordGraph.Result

variable {α : Type} {column : String} {direction : Request.Direction} {rest : List SortKey}
variable {recordOf : α → Record} {items : List α} {a b : Record}

/-- A record has no value in a column, or null. -/
def Lacks (column : String) (record : Record) : Prop :=
  Value.isNullish (record.get? column) = true

/-- Records without a value in a column stand behind all others. -/
def NullsLast (column : String) (records : List Record) : Prop :=
  records.Pairwise fun a b => Lacks column a → Lacks column b

/-- Records without a value in a column stand in front of all others. -/
def NullsFirst (column : String) (records : List Record) : Prop :=
  records.Pairwise fun a b => Lacks column b → Lacks column a

/-- The first column decides between a record without a value and one with a value. -/
theorem compareRecords_of_lacks (lacks : Lacks column a) (has : ¬ Lacks column b) :
    compareRecords ((column, direction) :: rest) a b = directed direction .gt := by
  have none : Value.present? (a.get? column) = none := Option.isNone_iff_eq_none.mp lacks
  obtain ⟨v, some⟩ : ∃ v, Value.present? (b.get? column) = some v :=
    Option.ne_none_iff_exists'.mp fun none => has (Option.isNone_iff_eq_none.mpr none)
  simp only [compareRecords, compareColumn, none, some]
  cases direction <;> rfl

/-- In ascending order a record without a value comes behind every record with one. -/
theorem keeps_ascending : Sorting.Keeps
    (fun x y => (compareRecords ((column, .asc) :: rest) (recordOf x) (recordOf y)).isLE)
    (fun x y => Lacks column (recordOf x) → Lacks column (recordOf y)) items where
  first x _ y _ le lacks := by
    by_contra has
    rw [compareRecords_of_lacks lacks has] at le
    cases le
  second x _ y _ gt lacks := by
    by_contra has
    rw [compareRecords_swap, compareRecords_of_lacks lacks has] at gt
    cases gt
  trans _ _ _ _ _ _ first second := second ∘ first

/-- In descending order it comes before. -/
theorem keeps_descending : Sorting.Keeps
    (fun x y => (compareRecords ((column, .desc) :: rest) (recordOf x) (recordOf y)).isLE)
    (fun x y => Lacks column (recordOf y) → Lacks column (recordOf x)) items where
  first x _ y _ le lacks := by
    by_contra has
    rw [compareRecords_swap, compareRecords_of_lacks lacks has] at le
    cases le
  second x _ y _ gt lacks := by
    by_contra has
    rw [compareRecords_of_lacks lacks has] at gt
    cases gt
  trans _ _ _ _ _ _ first second := first ∘ second

theorem nullsLast_sort : NullsLast column ((sort recordOf ((column, .asc) :: rest) items).map
    recordOf) :=
  List.pairwise_map.mpr keeps_ascending.pairwise_mergeSort

theorem nullsFirst_sort : NullsFirst column ((sort recordOf ((column, .desc) :: rest) items).map
    recordOf) :=
  List.pairwise_map.mpr keeps_descending.pairwise_mergeSort

/-- Records without a value that stand both behind and in front of all others are all records or
none. -/
theorem NullsLast.iff_of_first {records : List Record} (last : NullsLast column records)
    (first : NullsFirst column records) :
    ∀ a ∈ records, ∀ b ∈ records, Lacks column a ↔ Lacks column b := by
  have : Std.Symm fun a b : Record => Lacks column a ↔ Lacks column b := ⟨fun _ _ => Iff.symm⟩
  have both : records.Pairwise fun a b => Lacks column a ↔ Lacks column b :=
    (last.and first).imp fun both => ⟨both.1, both.2⟩
  exact both.forall_of_forall fun _ _ => Iff.rfl

theorem mem_sort {keys : List SortKey} {item : α} : item ∈ sort recordOf keys items ↔ item ∈ items :=
  List.mem_mergeSort

/-- Whatever records are sorted, and by whatever columns after the first one: those that have no
value in the first column stand behind all others exactly if its direction is ascending, or if all
of them have a value there or none has. In descending order they stand in front of all others. -/
theorem nullsLast_sort_iff (recordOf : α → Record) (column : String)
    (direction : Request.Direction) (rest : List SortKey) (items : List α) :
    let keys := (column, direction) :: rest
    let sorted := (sort recordOf keys items).map recordOf
    sortKeys (columnTerms keys) = .ok keys ∧
      (NullsLast column sorted ↔ direction = .asc ∨
        (∀ x ∈ items, Lacks column (recordOf x)) ∨ ∀ x ∈ items, ¬ Lacks column (recordOf x)) ∧
      (direction = .desc → NullsFirst column sorted) := by
  intro keys sorted
  have among {x : α} (member : x ∈ items) : recordOf x ∈ sorted :=
    List.mem_map_of_mem (mem_sort.mpr member)
  refine ⟨sortKeys_columnTerms keys, ⟨fun last => ?_, fun cases => ?_⟩, ?_⟩
  · cases direction with
    | asc => exact .inl rfl
    | desc =>
        refine .inr ?_
        have same := last.iff_of_first nullsFirst_sort
        by_cases some : ∃ x ∈ items, Lacks column (recordOf x)
        · obtain ⟨x, member, lacks⟩ := some
          exact .inl fun y other => (same _ (among member) _ (among other)).mp lacks
        · exact .inr fun x member lacks => some ⟨x, member, lacks⟩
  · have given {record : Record} (member : record ∈ sorted) : ∃ x ∈ items, recordOf x = record := by
      obtain ⟨x, inside, rfl⟩ := List.mem_map.mp member
      exact ⟨x, mem_sort.mp inside, rfl⟩
    rcases cases with rfl | all | none
    · exact nullsLast_sort
    · refine List.pairwise_of_forall_mem_list fun a _ b inside _ => ?_
      obtain ⟨y, member, rfl⟩ := given inside
      exact all y member
    · refine List.pairwise_of_forall_mem_list fun a inside b _ lacks => ?_
      obtain ⟨x, member, rfl⟩ := given inside
      exact absurd lacks (none x member)
  · rintro rfl
    exact nullsFirst_sort

/-- Sorted by age from the highest to the lowest, a record without an age stays in front of two
that have one. -/
theorem sort_ages_descending :
    let keys : List SortKey := [("age", .desc)]
    let ages : List Record := [[("age", .null)], [("age", .ofInt 3)], [("age", .ofInt 1)]]
    sortKeys [{ target := .str "age", direction := .desc }] = .ok keys ∧
      sort id keys ages = ages ∧ ¬ NullsLast "age" (sort id keys ages) := by
  intro keys ages
  have same : sort id keys ages = ages := List.mergeSort_of_pairwise (by decide)
  refine ⟨rfl, same, fun last => ?_⟩
  rw [same] at last
  have overtakes : Lacks "age" [("age", .ofInt 3)] :=
    (List.pairwise_cons.mp last).1 _ List.mem_cons_self rfl
  cases overtakes

end RecordGraph.Result
