import RecordGraph.Proofs.Store.FreshKeys
import RecordGraph.Proofs.Store.Required

/-!
# What a new row holds

A new row holds what it is given, under the declared keys and nowhere else. Where nothing
is given it holds a default, the next number, or null. One thing does not pass: a numbered
attribute ends up with an integer of 64 bits, so whatever else it is given, be it a text or
a fraction, is replaced by the next number, as if nothing had been given.
-/

namespace RecordGraph

/-- Some attribute of a name is numbered. -/
def Model.Numbers (m : Model) (key : String) : Prop :=
  ∃ a ∈ m.attributes, a.name = key ∧ a.autoIncrement = true

/-- Nothing is given for an attribute: no value, or null where a number is to stand. -/
def Attribute.Unset (data : Record) (a : Attribute) : Prop :=
  data.get? a.name = none ∨ (data.get? a.name = some .null ∧ a.autoIncrement = true)

namespace Table

variable {m : Model} {t t' : Table} {record data : Record} {validate : Bool} {key : String}

/-- What stands under a declared key of a new row, if the counter of its table moves from
`before` to `after`. -/
inductive Filled (m : Model) (data : Record) (key : String) (before after : Int) :
    Value → Prop where
  /-- What is given stays, unless a number has to stand there. -/
  | given {v} (found : data.get? key = some v) (nonnull : v ≠ .null)
      (allowed : m.Numbers key → (v.signed?).isSome = true) : Filled m data key before after v
  | fallback {a v} (declared : a ∈ m.attributes) (named : a.name = key) (unset : a.Unset data)
      (default : a.default = some v) (allowed : m.Numbers key → (v.signed?).isSome = true) :
      Filled m data key before after v
  | null {a} (declared : a ∈ m.attributes) (named : a.name = key) (plain : ¬ m.Numbers key)
      (unset : a.Unset data → a.default = none) (absent : Value.present? (data.get? key) = none) :
      Filled m data key before after .null
  | number {a n} (declared : a ∈ m.attributes) (named : a.name = key) (numbered : m.Numbers key)
      (unsigned : (data.get? key).bind Value.signed? = none)
      (unset : a.Unset data → a.default.bind Value.signed? = none)
      (past : before < n) (reached : n ≤ after) : Filled m data key before after (.ofInt n)

section Number

variable {state : Record × Int} {v : Value}

/-- Numbering leaves what stands under a key that is not numbered. -/
theorem get?_numberAll_of_not_mem {attributes : List Attribute}
    (absent : key ∉ attributes.map (·.name)) :
    (attributes.foldl number state).1.get? key = state.1.get? key := by
  induction attributes generalizing state with
  | nil => rfl
  | cons b rest ih =>
      obtain ⟨ne, absent⟩ := not_or.mp (mt List.mem_cons.mpr absent)
      rw [List.foldl_cons, ih absent, get?_number_of_ne ne]

/-- Numbering leaves a number that is there. -/
theorem get?_numberAll_of_signed (signed : (v.signed?).isSome = true) (attributes : List Attribute)
    (there : state.1.get? key = some v) :
    (attributes.foldl number state).1.get? key = some v := by
  induction attributes generalizing state with
  | nil => exact there
  | cons b rest ih =>
      refine ih ?_
      by_cases here : key = b.name
      · obtain ⟨i, signed⟩ := Option.isSome_iff_exists.mp signed
        subst here
        simp only [number, there, Option.bind_some, signed]
      · exact (get?_number_of_ne here).trans there

/-- A numbered key without a number gets one past the counter. -/
theorem exists_number_of_unsigned (numbered : m.Numbers key)
    (unsigned : ((initialRecord m data).get? key).bind Value.signed? = none) :
    ∃ n, (newRecord m t data).1.get? key = some (.ofInt n) ∧ t.counter < n ∧
      n ≤ (newRecord m t data).2 := by
  obtain ⟨a, declared, rfl, numbered⟩ := numbered
  have admits : Admits (t.counter + 1) a.name (initialRecord m data, t.counter) := by
    refine ⟨fun i given => ?_, Int.le_refl _⟩
    rw [unsigned] at given
    cases given
  exact admits.numberAll (List.mem_filter.mpr ⟨declared, numbered⟩)

end Number

section Initial

variable {a : Attribute} {v : Value}

theorem initialValue?_of_unset (unset : a.Unset data) :
    initialValue? data a = a.default.or (if a.autoIncrement then none else some .null) := by
  unfold initialValue?
  rcases unset with given | ⟨given, numbered⟩
  · cases a.default <;> simp [given]
  · cases a.default <;> simp [given, numbered, Value.isNull]

theorem initialValue?_of_not_unset (set : ¬ a.Unset data) :
    initialValue? data a = data.get? a.name := by
  unfold initialValue?
  unfold Attribute.Unset at set
  cases given : data.get? a.name with
  | none => exact absurd (.inl given) set
  | some v => cases v <;> simp_all [Value.isNull]

/-- What stands under a key before numbering is what one of its attributes starts with. -/
theorem get?_enterAll_eq_some {attributes : List Attribute}
    (there : (attributes.foldl (enter data) record).get? key = some v) :
    record.get? key = some v ∨ ∃ a ∈ attributes, a.name = key ∧ initialValue? data a = some v := by
  induction attributes generalizing record with
  | nil => exact .inl there
  | cons b rest ih =>
      rcases ih there with entered | ⟨a, member, named, starts⟩
      · rw [enter] at entered
        split at entered
        · rename_i w starts
          by_cases here : key = b.name
          · subst here
            rw [Dict.get?_insert_self] at entered
            exact .inr ⟨b, List.mem_cons_self, rfl, starts.trans entered⟩
          · exact .inl ((Dict.get?_insert_of_ne _ _ here).symm.trans entered)
        · exact .inl entered
      · exact .inr ⟨a, List.mem_cons_of_mem _ member, named, starts⟩

/-- Before numbering a declared key has what an attribute of its name starts with, if that is
anything at all. -/
theorem exists_initialValue? (data : Record) (declared : (m.attribute? key).isSome = true) :
    ∃ a ∈ m.attributes, a.name = key ∧ initialValue? data a = (initialRecord m data).get? key := by
  rw [initialRecord_eq]
  cases found : (m.attributes.foldl (enter data) []).get? key with
  | some v =>
      rcases get?_enterAll_eq_some found with none | starts
      · cases none
      · exact starts
  | none =>
      obtain ⟨a, member, named⟩ := List.mem_map.mp (Model.isSome_attribute?_iff.mp declared)
      refine ⟨a, member, named, Classical.byContradiction fun starts => ?_⟩
      have entered : key ∈ (m.attributes.foldl (enter data) []).keys :=
        (mem_keys_enterAll m.attributes).mpr
          (.inl ⟨a, member, named, Option.isSome_iff_ne_none.mpr starts⟩)
      rw [Dict.mem_keys_iff, found] at entered
      cases entered

/-- A number that is given for a declared key stands there before numbering. -/
theorem signed?_given_of_unsigned (declared : (m.attribute? key).isSome = true)
    (unsigned : ((initialRecord m data).get? key).bind Value.signed? = none) :
    (data.get? key).bind Value.signed? = none := by
  cases given : data.get? key with
  | none => rfl
  | some v =>
      by_cases nonnull : v = .null
      · subst nonnull
        rfl
      · have starts : ∀ a ∈ m.attributes, a.name = key → initialValue? data a = some v :=
          fun a _ named => initialValue?_of_has (named ▸ given) nonnull
        have entered : (m.attributes.foldl (enter data) []).get? key = some v :=
          get?_enterAll_of_starts m.attributes starts
            (.inl (List.mem_map.mp (Model.isSome_attribute?_iff.mp declared)))
        rw [initialRecord_eq, entered] at unsigned
        exact unsigned

end Initial

theorem present?_of_unset {a : Attribute} (unset : a.Unset data) :
    Value.present? (data.get? a.name) = none := by
  rcases unset with given | ⟨given, _⟩ <;> rw [given] <;> rfl

/-- An attribute that does not give way to a number is filled with what it starts with. -/
theorem filled_of_starts {a : Attribute} {v : Value} {before after : Int}
    (declared : a ∈ m.attributes) (starts : initialValue? data a = some v)
    (allowed : m.Numbers a.name → (v.signed?).isSome = true) :
    Filled m data a.name before after v := by
  have plain (null : v = .null) : ¬ m.Numbers a.name := by
    intro numbered
    have signed := allowed numbered
    rw [null] at signed
    cases signed
  by_cases unset : a.Unset data
  · rw [initialValue?_of_unset unset] at starts
    cases fallback : a.default with
    | some w =>
        rw [fallback] at starts
        exact .fallback declared rfl unset (fallback.trans starts) allowed
    | none =>
        rw [fallback, Option.none_or] at starts
        split at starts
        · cases starts
        · cases starts
          exact .null declared rfl (plain rfl) (fun _ => fallback) (present?_of_unset unset)
  · rw [initialValue?_of_not_unset unset] at starts
    by_cases null : v = .null
    · subst null
      refine .null declared rfl (plain rfl) (fun absurd => (unset absurd).elim) ?_
      rw [starts]
      rfl
    · exact .given starts null allowed

/-- A declared key of a new record is filled with what is given, or with a number. -/
theorem exists_filled (t : Table) (data : Record) (declared : (m.attribute? key).isSome = true) :
    ∃ v, (newRecord m t data).1.get? key = some v ∧
      Filled m data key t.counter (newRecord m t data).2 v := by
  obtain ⟨a, member, rfl, starts⟩ := exists_initialValue? data declared
  by_cases numbered : m.Numbers a.name
  · cases signed : ((initialRecord m data).get? a.name).bind Value.signed? with
    | none =>
        obtain ⟨n, found, past, reached⟩ := exists_number_of_unsigned (t := t) numbered signed
        have given := signed?_given_of_unsigned declared signed
        refine ⟨.ofInt n, found, .number member rfl numbered given ?_ past reached⟩
        intro unset
        rw [← starts, initialValue?_of_unset unset] at signed
        cases fallback : a.default with
        | none => rfl
        | some w =>
            rw [fallback] at signed
            exact signed
    | some i =>
        obtain ⟨v, there, signed⟩ := Option.bind_eq_some_iff.mp signed
        have isSigned : (v.signed?).isSome = true := Option.isSome_iff_exists.mpr ⟨i, signed⟩
        exact ⟨v, get?_numberAll_of_signed isSigned _ there,
          filled_of_starts member (starts.trans there) fun _ => isSigned⟩
  · have plain : a.autoIncrement = false :=
      Bool.eq_false_iff.mpr fun auto => numbered ⟨a, member, rfl, auto⟩
    have starting : (initialValue? data a).isSome = true := isSome_initialValue? plain
    obtain ⟨v, initial⟩ := Option.isSome_iff_exists.mp starting
    have unnumbered : a.name ∉ (m.attributes.filter (·.autoIncrement)).map (·.name) := by
      intro listed
      obtain ⟨b, filtered, named⟩ := List.mem_map.mp listed
      exact numbered ⟨b, (List.mem_filter.mp filtered).1, named, (List.mem_filter.mp filtered).2⟩
    refine ⟨v, ?_, filled_of_starts member initial fun auto => absurd auto numbered⟩
    exact (get?_numberAll_of_not_mem unnumbered).trans (starts.symm.trans initial)

/-- A row that is inserted is put behind all others. Its record has no other keys than the
declared ones, and each of these holds what it is given, if that is not null: but for numbered
attributes, which hold the next number instead of anything that is not a 64-bit integer. Where
nothing is given stands a default, a number or null. -/
theorem insert_filled (done : t.insert m validate data = .ok (record, t')) :
    t'.rows = t.rows ++ [{ data := record }] ∧
      (∀ key, m.attribute? key = none → record.get? key = none) ∧
      ∀ key, (m.attribute? key).isSome = true →
        ∃ v, record.get? key = some v ∧ Filled m data key t.counter t'.counter v := by
  obtain ⟨rfl, _, rows⟩ := insert_ok done
  have counter : t'.counter = (newRecord m t data).2 := by
    simp only [insert] at done
    obtain ⟨_, _, last⟩ := bind_eq_ok_iff.mp done
    cases last
    rfl
  refine ⟨rows, fun key undeclared => ?_, fun key declared => counter ▸ exists_filled t data declared⟩
  have shapes : m.Shapes (newRecord m t data).1 := shapes_newRecord
  have absent : ¬ (m.attribute? key).isSome = true := by simp [undeclared]
  rw [← shapes.keys, Dict.mem_keys_iff] at absent
  exact Option.not_isSome_iff_eq_none.mp absent

section

open Command (account)

/-- An account without a number gets one, and nothing but what an account has. -/
theorem insert_filled_account :
    let data : Record := [("name", .str "ada"), ("nickname", .str "a")]
    let record : Record := [("id", .ofInt 1), ("name", .str "ada")]
    ∃ t, Table.insert account true data {} = .ok (record, t) ∧
      t.rows = [{ data := record }] ∧
      (∀ key, account.attribute? key = none → record.get? key = none) ∧
      ∀ key, (account.attribute? key).isSome = true →
        ∃ v, record.get? key = some v ∧ Filled account data key 0 t.counter v := by
  have done : Table.insert account true [("name", .str "ada"), ("nickname", .str "a")] {} =
      .ok ([("id", .ofInt 1), ("name", .str "ada")],
        { rows := [{ data := [("id", .ofInt 1), ("name", .str "ada")] }], counter := 1 }) := rfl
  exact ⟨_, done, insert_filled done⟩

/-- A text that is given for the number of a new account is lost without notice; written into
the account afterwards it stays. -/
theorem insert_replaces_text :
    let t : Table := { rows := [{ data := [("id", .ofInt 1), ("name", .str "ada")] }], counter := 1 }
    Table.insert account true [("id", .str "a1"), ("name", .str "ada")] {} =
        .ok ([("id", .ofInt 1), ("name", .str "ada")], t) ∧
      t.updateAt account true 0 [("id", .str "a1")] =
        .ok ([("id", .str "a1"), ("name", .str "ada")],
          { t with rows := [{ data := [("id", .str "a1"), ("name", .str "ada")] }] }) :=
  ⟨rfl, rfl⟩

end

end Table

end RecordGraph
