import RecordGraph.Proofs.Data.Entries
import RecordGraph.Store.Table

/-!
# The keys of stored records

A new record has the declared attributes of its model as keys, each of them and no
other: an attribute gives a value of its own or is numbered. Writing declared entries
into such a record changes none of its keys.
-/

namespace RecordGraph

namespace Model

variable {m : Model} {record : Record} {key : String}

/-- The keys of a record are the declared attributes, in key order. -/
structure Shapes (m : Model) (record : Record) : Prop where
  ascending : record.Ascending
  keys : ∀ key, key ∈ record.keys ↔ (m.attribute? key).isSome

theorem isSome_attribute?_iff :
    (m.attribute? key).isSome = true ↔ key ∈ m.attributes.map (·.name) := by
  simp [attribute?, List.find?_isSome]

theorem get?_declared (data : Record) : (Table.declared m data).get? key =
    if (m.attribute? key).isSome then data.get? key else none :=
  Dict.get?_filter_keys fun key => (m.attribute? key).isSome

/-- A row holds the declared values that were written into it, and its own ones elsewhere. -/
theorem get?_extend {data : Record} (row : StoredRow) (ordered : data.Ascending) :
    (row.extend (Table.declared m data)).data.get? key =
      ((Table.declared m data).get? key).or (row.data.get? key) :=
  Dict.get?_extend (Dict.ascending_filter _ ordered)

/-- A declared value that is written into a row is read back from it. -/
theorem get?_extend_declared {data : Record} {v : Value} (row : StoredRow)
    (ordered : data.Ascending) (declared : (m.attribute? key).isSome = true)
    (given : data.get? key = some v) :
    (row.extend (Table.declared m data)).data.get? key = some v := by
  rw [get?_extend row ordered, get?_declared, if_pos declared, given]
  rfl

/-- Declared entries do not change the keys of a record that has all of them. -/
theorem Shapes.extend (h : m.Shapes record) (data : Record) :
    m.Shapes (record.extend (Table.declared m data)) where
  ascending := Dict.ascending_extend _ h.ascending
  keys key := by
    rw [Dict.mem_keys_extend, h.keys, Dict.mem_keys_iff, get?_declared]
    grind

end Model

namespace Table

variable {m : Model} {t : Table} {record data : Record} {a : Attribute}
variable {state : Record × Int} {key : String}

theorem mem_keys_number :
    key ∈ (number state a).1.keys ↔ key = a.name ∨ key ∈ state.1.keys := by
  obtain ⟨record, counter⟩ := state
  simp only [number]
  cases given : (record.get? a.name).bind Value.signed? with
  | none => exact Dict.mem_keys_insert
  | some i =>
      have there : a.name ∈ record.keys := by
        rw [Dict.mem_keys_iff]
        cases h : record.get? a.name <;> simp_all
      constructor
      · exact .inr
      · rintro (rfl | h)
        · exact there
        · exact h

theorem ascending_number (h : state.1.Ascending) : (number state a).1.Ascending := by
  simp only [number]
  split
  · exact h
  · exact Dict.ascending_insert _ _ h

theorem mem_keys_numberAll (attributes : List Attribute) :
    key ∈ (attributes.foldl number state).1.keys ↔
      key ∈ attributes.map (·.name) ∨ key ∈ state.1.keys := by
  induction attributes generalizing state with
  | nil => simp
  | cons a rest ih =>
      rw [List.foldl_cons, ih, mem_keys_number, List.map_cons, List.mem_cons]
      exact or_left_comm.trans or_assoc.symm

theorem ascending_numberAll (attributes : List Attribute) (h : state.1.Ascending) :
    (attributes.foldl number state).1.Ascending := by
  induction attributes generalizing state with
  | nil => exact h
  | cons a rest ih => exact ih (ascending_number h)

/-- An attribute that is not numbered always starts with a value, if only with null. -/
theorem isSome_initialValue? (given : a.autoIncrement = false) :
    (initialValue? data a).isSome = true := by
  simp only [initialValue?, given]
  grind

/-- One step of building a new record. -/
def enter (data record : Record) (a : Attribute) : Record :=
  match initialValue? data a with
  | some v => record.insert a.name v
  | none => record

theorem initialRecord_eq : initialRecord m data = m.attributes.foldl (enter data) [] := rfl

theorem mem_keys_enter : key ∈ (enter data record a).keys ↔
    (a.name = key ∧ (initialValue? data a).isSome = true) ∨ key ∈ record.keys := by
  unfold enter
  cases initialValue? data a with
  | none => simp
  | some v => simp [Dict.mem_keys_insert, eq_comm]

theorem ascending_enter (h : record.Ascending) : (enter data record a).Ascending := by
  unfold enter
  split
  · exact Dict.ascending_insert _ _ h
  · exact h

theorem mem_keys_enterAll (attributes : List Attribute) :
    key ∈ (attributes.foldl (enter data) record).keys ↔
      (∃ a ∈ attributes, a.name = key ∧ (initialValue? data a).isSome = true) ∨
        key ∈ record.keys := by
  induction attributes generalizing record with
  | nil => simp
  | cons a rest ih =>
      rw [List.foldl_cons, ih, mem_keys_enter]
      simp only [List.mem_cons, exists_eq_or_imp]
      exact or_left_comm.trans or_assoc.symm

theorem ascending_enterAll (attributes : List Attribute) (h : record.Ascending) :
    (attributes.foldl (enter data) record).Ascending := by
  induction attributes generalizing record with
  | nil => exact h
  | cons a rest ih => exact ih (ascending_enter h)

/-- A new record has exactly the declared keys: each attribute gives a value, or is numbered. -/
theorem shapes_newRecord : m.Shapes (newRecord m t data).1 where
  ascending := ascending_numberAll _ (ascending_enterAll _ Dict.ascending_nil)
  keys key := by
    rw [Model.isSome_attribute?_iff, newRecord, mem_keys_numberAll, initialRecord_eq,
      mem_keys_enterAll]
    simp only [List.mem_map, List.mem_filter]
    constructor
    · rintro (⟨a, ⟨declared, _⟩, name⟩ | ⟨a, declared, name, _⟩ | none)
      · exact ⟨a, declared, name⟩
      · exact ⟨a, declared, name⟩
      · cases none
    · rintro ⟨a, declared, name⟩
      cases numbered : a.autoIncrement with
      | true => exact .inl ⟨a, ⟨declared, numbered⟩, name⟩
      | false => exact .inr (.inl ⟨a, declared, name, isSome_initialValue? numbered⟩)

end Table

end RecordGraph
