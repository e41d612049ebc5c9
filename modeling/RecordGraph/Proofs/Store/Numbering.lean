import RecordGraph.Proofs.Store.Keys

/-!
# Numbers that the store gives

A numbered attribute gets the number after the greatest one that its table has given or
been given. The invariant behind this is that no stored row has a number past the counter
of its table. Adding rows keeps it, since the counter moves up to whatever number they are
given; hiding, showing and removing rows keep it, too. Writing into rows does not move the
counter. It keeps the invariant only where the numbers written have been counted before,
or are those that the rows have already.

As floating-point numbers, two integers far from zero may count as the same value. So the
invariant is about all integers past the counter that count as the value of a row, and
where the key of a row is written again it has to be an integer.
-/

namespace RecordGraph

namespace Value

variable {bound : Int} {o : Option Value}

/-- No signed 64-bit integer past the bound counts as the same as what is looked up. -/
def Under (bound : Int) (o : Option Value) : Prop :=
  ∀ v k, o = some v → bound < k → (ofInt k).signed? = some k → v.same (ofInt k) = false

theorem signed?_ofInt_iff {k i : Int} : (ofInt k).signed? = some i ↔
    k = i ∧ -0x8000000000000000 ≤ i ∧ i < 0x8000000000000000 := by
  simp only [ofInt, signed?, Number.signed?, Option.ite_none_right_eq_some, Option.some.injEq]
  constructor
  · rintro ⟨range, rfl⟩
    exact ⟨rfl, range⟩
  · rintro ⟨rfl, range⟩
    exact ⟨range, rfl⟩

/-- A value with a signed 64-bit integer is that integer. -/
theorem eq_ofInt_of_signed? {v : Value} {i : Int} (h : v.signed? = some i) : v = ofInt i := by
  cases v with
  | num n =>
      obtain rfl := Number.eq_of_signed? h
      rfl
  | _ => cases h

theorem same_ofInt_iff {i k : Int} (hi : (ofInt i).signed? = some i)
    (hk : (ofInt k).signed? = some k) : (ofInt i).same (ofInt k) = true ↔ i = k := by
  have signed : (Number.int i).signed? = some i := hi
  rw [ofInt, ofInt, same_num, beq_iff_eq, Number.compare_signed_eq_iff hk]
  simp [signed]

theorem under_of_not_num {v : Value} (h : ∀ n, v ≠ .num n) : Under bound (some v) := by
  rintro _ k ⟨⟩ _ _
  refine Bool.eq_false_iff.mpr fun same => ?_
  obtain ⟨n, rfl⟩ := exists_num_of_same same
  exact h n rfl

/-- An integer is under every bound that it does not exceed. -/
theorem under_ofInt {i : Int} (low : -0x8000000000000000 ≤ i) (le : i ≤ bound) :
    Under bound (some (ofInt i)) := by
  rintro _ k ⟨⟩ past fits
  have range := (signed?_ofInt_iff.mp fits).2
  have signed : (ofInt i).signed? = some i := signed?_ofInt_iff.mpr ⟨rfl, low, by omega⟩
  refine Bool.eq_false_iff.mpr fun same => ?_
  have equal := (same_ofInt_iff signed fits).mp same
  omega

theorem Under.mono {bound' : Int} (under : Under bound o) (le : bound ≤ bound') :
    Under bound' o :=
  fun v k found past => under v k found (Int.lt_of_le_of_lt le past)

/-- An integer that counts as the same as what is under a bound does not exceed the bound. -/
theorem Under.le_of_same {v : Value} {k : Int} (under : Under bound (some v))
    (fits : (ofInt k).signed? = some k) (same : v.same (ofInt k) = true) : k ≤ bound := by
  refine Int.not_lt.mp fun past => ?_
  rw [under v k rfl past fits] at same
  cases same

/-- Entries that are all under a bound leave a look-up under it. -/
theorem Under.extend {d : Record} {key : String} {entries : Record}
    (given : ∀ v, (key, v) ∈ entries → Under bound (some v)) (under : Under bound (d.get? key)) :
    Under bound ((d.extend entries).get? key) := by
  induction entries generalizing d with
  | nil => exact under
  | cons entry rest ih =>
      rw [Dict.extend_cons]
      refine ih (fun v member => given v (List.mem_cons_of_mem _ member)) ?_
      rw [Dict.get?_insert]
      split
      · rename_i here
        subst here
        exact given entry.2 List.mem_cons_self
      · exact under

end Value

/-- A record that has an integer under a key if it has a number there. -/
structure IntegerKey (key : String) (data : Record) : Prop where
  ordered : data.Ascending
  integer : ∀ n, data.get? key = some (.num n) → (n.signed?).isSome = true

namespace Table

variable {m : Model} {t t' : Table} {record data : Record} {validate : Bool}
variable {a : Attribute} {state : Record × Int} {least : Int} {key : String}

section Number

/-- Numbering an attribute leaves what stands under the other keys. -/
theorem get?_number_of_ne {b : Attribute} (ne : key ≠ b.name) :
    (number state b).1.get? key = state.1.get? key := by
  simp only [number]
  split
  · rfl
  · exact Dict.get?_insert_of_ne _ _ ne

theorem counter_le_number (b : Attribute) : state.2 ≤ (number state b).2 := by
  simp only [number]
  split
  · exact Int.le_max_left _ _
  · exact Int.le_add_one (Int.le_refl _)

theorem counter_le_numberAll (attributes : List Attribute) :
    state.2 ≤ (attributes.foldl number state).2 := by
  induction attributes generalizing state with
  | nil => exact Int.le_refl _
  | cons b rest ih => exact Int.le_trans (counter_le_number b) ih

/-- A key has been numbered: it has an integer that is not less than the least one allowed,
and the counter has reached it. -/
def Numbered (least : Int) (key : String) (state : Record × Int) : Prop :=
  ∃ k, state.1.get? key = some (.ofInt k) ∧ least ≤ k ∧ k ≤ state.2

/-- Whatever number an attribute is given, if it is given one, is not less than the least
one allowed, and neither is the next one. -/
def Admits (least : Int) (key : String) (state : Record × Int) : Prop :=
  (∀ i, (state.1.get? key).bind Value.signed? = some i → least ≤ i) ∧ least ≤ state.2 + 1

/-- Numbering an attribute gives it the number that is there or the next one. -/
theorem Admits.number (admits : Admits least a.name state) :
    Numbered least a.name (number state a) := by
  obtain ⟨record, counter⟩ := state
  obtain ⟨given, next⟩ := admits
  simp only [Table.number]
  cases found : (record.get? a.name).bind Value.signed? with
  | none => exact ⟨counter + 1, Dict.get?_insert_self .., next, Int.le_refl _⟩
  | some i =>
      obtain ⟨v, there, signed⟩ := Option.bind_eq_some_iff.mp found
      obtain rfl := Value.eq_ofInt_of_signed? signed
      exact ⟨i, there, given i found, Int.le_max_right _ _⟩

/-- Numbering leaves a key numbered, even if a number that has grown too large is given
again. -/
theorem Numbered.number (numbered : Numbered least key state) (b : Attribute) :
    Numbered least key (number state b) := by
  by_cases here : key = b.name
  · subst here
    obtain ⟨k, found, low, le⟩ := numbered
    refine Admits.number ⟨fun i given => ?_, by omega⟩
    rw [found, Option.bind_some] at given
    exact (Value.signed?_ofInt_iff.mp given).1 ▸ low
  · obtain ⟨k, found, low, le⟩ := numbered
    have grown : state.2 ≤ (Table.number state b).2 := counter_le_number b
    exact ⟨k, (get?_number_of_ne here).trans found, low, Int.le_trans le grown⟩

theorem Numbered.numberAll (numbered : Numbered least key state) (attributes : List Attribute) :
    Numbered least key (attributes.foldl Table.number state) := by
  induction attributes generalizing state with
  | nil => exact numbered
  | cons b rest ih => exact ih (numbered.number b)

/-- Numbering several attributes numbers each of them. -/
theorem Admits.numberAll {attributes : List Attribute} (member : a ∈ attributes)
    (admits : Admits least a.name state) :
    Numbered least a.name (attributes.foldl Table.number state) := by
  induction attributes generalizing state with
  | nil => cases member
  | cons b rest ih =>
      rw [List.foldl_cons]
      by_cases same : a.name = b.name
      · rw [same] at admits ⊢
        exact admits.number.numberAll rest
      · rcases List.mem_cons.mp member with rfl | later
        · exact absurd rfl same
        have grown : state.2 ≤ (Table.number state b).2 := counter_le_number b
        refine ih later ⟨fun i given => ?_, ?_⟩
        · rw [get?_number_of_ne same] at given
          exact admits.1 i given
        · have next := admits.2
          omega

end Number

section Initial

theorem get?_enterAll_of_not_mem {attributes : List Attribute}
    (absent : key ∉ attributes.map (·.name)) :
    (attributes.foldl (enter data) record).get? key = record.get? key := by
  induction attributes generalizing record with
  | nil => rfl
  | cons b rest ih =>
      obtain ⟨ne, absent⟩ := not_or.mp (mt List.mem_cons.mpr absent)
      rw [List.foldl_cons, ih absent, enter]
      split
      · exact Dict.get?_insert_of_ne _ _ ne
      · rfl

/-- Before numbering an attribute has its initial value, if no other has its name. -/
theorem get?_enterAll {attributes : List Attribute} (distinct : (attributes.map (·.name)).Nodup)
    (member : a ∈ attributes) (absent : record.get? a.name = none) :
    (attributes.foldl (enter data) record).get? a.name = initialValue? data a := by
  induction attributes generalizing record with
  | nil => cases member
  | cons b rest ih =>
      obtain ⟨apart, distinct⟩ := List.nodup_cons.mp distinct
      rw [List.foldl_cons]
      rcases List.mem_cons.mp member with rfl | later
      · rw [get?_enterAll_of_not_mem apart, enter]
        cases initialValue? data a with
        | none => exact absent
        | some v => exact Dict.get?_insert_self ..
      · have ne : a.name ≠ b.name := fun same => apart (List.mem_map.mpr ⟨a, later, same⟩)
        refine ih distinct later ?_
        rw [enter]
        split
        · exact (Dict.get?_insert_of_ne _ _ ne).trans absent
        · exact absent

/-- An initial value is the given one, the default, null, or none at all. -/
theorem initialValue?_cases (data : Record) (a : Attribute) :
    initialValue? data a = data.get? a.name ∨ initialValue? data a = a.default ∨
      initialValue? data a = some .null ∨ initialValue? data a = none := by
  unfold initialValue?
  cases data.get? a.name <;> cases a.default <;> grind

/-- An attribute without a number of its own starts without one if none is given. -/
theorem signed?_initialValue? (unset : a.default.bind Value.signed? = none)
    (unkeyed : (data.get? a.name).bind Value.signed? = none) :
    (initialValue? data a).bind Value.signed? = none := by
  rcases initialValue?_cases data a with given | fallback | null | none
  · rw [given, unkeyed]
  · rw [fallback, unset]
  · rw [null]
    rfl
  · rw [none]
    rfl

end Initial

/-- No row has a number past the counter under a key. -/
structure Ahead (key : String) (t : Table) : Prop where
  nonneg : 0 ≤ t.counter
  rows : ∀ row ∈ t.rows, Value.Under t.counter (row.data.get? key)

section Ahead

theorem ahead_empty : ({} : Table).Ahead key where
  nonneg := Int.le_refl 0
  rows _ member := nomatch member

/-- Rows with records that were there before do not exceed the counter either. -/
theorem Ahead.of_data {rows : List StoredRow} (ahead : t.Ahead key)
    (old : ∀ row ∈ rows, row.data ∈ t.rows.map (·.data)) : ({ t with rows } : Table).Ahead key where
  nonneg := ahead.nonneg
  rows row member := by
    obtain ⟨before, stored, same⟩ := List.mem_map.mp (old row member)
    exact same ▸ ahead.rows before stored

/-- A new row is added with the counter that its numbers leave, if its record is accepted. -/
theorem insert_eq (m : Model) (validate : Bool) (data : Record) (t : Table) :
    t.insert m validate data =
      (accept m t validate (newRecord m t data).1 (newRecord m t data).2).map fun _ =>
        ((newRecord m t data).1,
          { rows := t.rows ++ [{ data := (newRecord m t data).1 }]
            counter := (newRecord m t data).2 }) := by
  simp only [Table.insert]
  cases accept m t validate (newRecord m t data).1 (newRecord m t data).2 <;> rfl

/-- A new row is given a number that the counter has reached. -/
theorem Ahead.insert (ahead : t.Ahead a.name) (declared : a ∈ m.attributes)
    (numbered : a.autoIncrement = true) (done : t.insert m validate data = .ok (record, t')) :
    t'.Ahead a.name := by
  simp only [Table.insert] at done
  obtain ⟨⟨⟩, _, last⟩ := bind_eq_ok_iff.mp done
  cases last
  have nonneg := ahead.nonneg
  have grown : t.counter ≤ (newRecord m t data).2 := counter_le_numberAll _
  have admits : Admits (-0x8000000000000000) a.name (initialRecord m data, t.counter) := by
    refine ⟨fun i given => ?_, by omega⟩
    obtain ⟨v, _, signed⟩ := Option.bind_eq_some_iff.mp given
    obtain rfl := Value.eq_ofInt_of_signed? signed
    exact (Value.signed?_ofInt_iff.mp signed).2.1
  obtain ⟨k, found, low, le⟩ := admits.numberAll (List.mem_filter.mpr ⟨declared, numbered⟩)
  refine ⟨Int.le_trans nonneg grown, fun row member => ?_⟩
  rcases List.mem_append.mp member with old | new
  · exact (ahead.rows row old).mono grown
  · obtain rfl := List.mem_singleton.mp new
    have under := Value.under_ofInt low le
    rw [← found] at under
    exact under

theorem Ahead.insertAll {inputs records : List Record} (ahead : t.Ahead a.name)
    (declared : a ∈ m.attributes) (numbered : a.autoIncrement = true)
    (done : t.insertAll m validate inputs = .ok (records, t')) : t'.Ahead a.name := by
  induction inputs generalizing t records with
  | nil =>
      cases done
      exact ahead
  | cons data rest ih =>
      obtain ⟨⟨record, next⟩, first, done⟩ := bind_eq_ok_iff.mp done
      obtain ⟨⟨others, last⟩, remaining, done⟩ := bind_eq_ok_iff.mp done
      cases done
      exact ih (ahead.insert declared numbered first) remaining

/-- Writing into a row leaves its key under a bound that everything written there is under. -/
theorem under_written {bound : Int} {row : StoredRow}
    (given : ∀ v, (key, v) ∈ data → Value.Under bound (some v))
    (under : Value.Under bound (row.data.get? key)) :
    Value.Under bound ((row.extend (declared m data)).data.get? key) :=
  under.extend fun v member => given v (List.mem_filter.mp member).1

theorem Ahead.updateAt {index : Nat} (ahead : t.Ahead key)
    (given : ∀ v, (key, v) ∈ data → Value.Under t.counter (some v))
    (done : t.updateAt m validate index data = .ok (record, t')) : t'.Ahead key := by
  obtain ⟨row, found, _, _, rfl⟩ := updateAt_ok done
  refine ⟨ahead.nonneg, fun other member => ?_⟩
  rcases List.mem_or_eq_of_mem_set member with old | rfl
  · exact ahead.rows other old
  · exact under_written given (ahead.rows row (List.mem_of_getElem? found))

theorem Ahead.updateMany {indices : List Nat} (ahead : t.Ahead key)
    (given : ∀ v, (key, v) ∈ data → Value.Under t.counter (some v))
    (done : t.updateMany m validate indices data = .ok t') : t'.Ahead key := by
  simp only [Table.updateMany] at done
  obtain ⟨_, _, last⟩ := bind_eq_ok_iff.mp done
  cases last
  exact ⟨ahead.nonneg, forall_mem_modifyAll (fun _ under => under_written given under) ahead.rows⟩

theorem Ahead.setHidden (ahead : t.Ahead key) (hidden : Bool) (indices : List Nat) :
    (t.setHidden hidden indices).Ahead key := by
  refine ahead.of_data fun row member => ?_
  have same : ((t.setHidden hidden indices).rows).map (·.data) = t.rows.map (·.data) :=
    map_modifyAll fun _ => rfl
  exact same ▸ List.mem_map_of_mem member

theorem Ahead.remove (ahead : t.Ahead key) (indices : List Nat) : (t.remove indices).Ahead key :=
  ahead.of_data fun _ member => List.mem_map_of_mem ((sublist_remove t indices).subset member)

theorem Ahead.clear (ahead : t.Ahead key) : t.clear.Ahead key :=
  ahead.of_data fun _ member => nomatch member

/-- A row may be written over the one of its key, if that is an integer or no number. -/
theorem Ahead.overwrite {index : Nat} {v : Value} (ahead : t.Ahead key)
    (keyed : Loading.primaryKey m = .ok key) (place : t.position? m v = .ok (some index))
    (integer : IntegerKey key data) (given : data.get? key = some v)
    (done : t.updateAt m validate index data = .ok (record, t')) : t'.Ahead key := by
  refine ahead.updateAt (fun w member => ?_) done
  obtain rfl : v = w :=
    Option.some.inj (given.symm.trans ((Dict.get?_eq_some_iff_mem integer.ordered).mpr member))
  by_cases number : ∃ n, v = .num n
  · obtain ⟨n, rfl⟩ := number
    obtain ⟨i, signed⟩ := Option.isSome_iff_exists.mp (integer.integer n given)
    obtain rfl := Number.eq_of_signed? signed
    obtain ⟨row, found, has⟩ := position?_ok keyed place
    obtain ⟨old, there, same⟩ := (Option.any_eq_true ..).mp has
    have under : Value.Under t.counter (some old) :=
      there ▸ ahead.rows row (List.mem_of_getElem? found)
    have low : -0x8000000000000000 ≤ i := (Value.signed?_ofInt_iff.mp signed).2.1
    exact Value.under_ofInt low (under.le_of_same signed same)
  · exact Value.under_of_not_num fun n same => number ⟨n, same⟩

end Ahead

end Table

end RecordGraph
