import RecordGraph.Proofs.Store.FreshKeys
import RecordGraph.Proofs.Store.Selecting
import RecordGraph.Proofs.Write.ReadBack

/-!
# What is upserted is found, unless it is hidden

An upsert looks for the row with the key of its values among all rows of the table, hidden ones
included, and leaves that row as hidden as it was. Whoever reads looks at live rows only. So a
row that was upserted is found by its key exactly if no hidden row had this key before.
-/

namespace RecordGraph

namespace Table

variable {m : Model} {t t' : Table} {index : Nat} {row stored : StoredRow} {pk : String}
variable {record values : Record} {validate created : Bool} {key : Value}

/-- How an upsert comes to the row that it stores, at which place, and whether it says that the
row is new: it writes over the row with the key of the values, or adds one behind all others. -/
inductive Upserted (m : Model) (pk : String) (values : Record) (t : Table) :
    Nat → StoredRow → Bool → Prop where
  | overwritten {index : Nat} {old : StoredRow} {v : Value} (given : values.get? pk = some v)
      (found : t.rows[index]? = some old) (same : old.has pk v = true) :
      Upserted m pk values t index (old.extend (declared m values)) false
  | added (record : Record) : Upserted m pk values t t.rows.length { data := record } true

/-- A row was stored at a place of a table: it passed the check beside all other rows, and these
are as before. -/
structure Stored (m : Model) (validate : Bool) (t t' : Table) (index : Nat) (row : StoredRow) :
    Prop where
  here : t'.rows[index]? = some row
  others : t'.rows.eraseIdx index = t.rows.eraseIdx index
  checked : check m (t.rows.eraseIdx index) validate row.data = .ok ()

theorem stored_updateAt (done : t.updateAt m validate index values = .ok (record, t')) :
    ∃ old, t.rows[index]? = some old ∧ record = (old.extend (declared m values)).data ∧
      t.Stored m validate t' index (old.extend (declared m values)) := by
  obtain ⟨old, found, checked, rfl, rfl⟩ := updateAt_ok done
  obtain ⟨inside, -⟩ := List.getElem?_eq_some_iff.mp found
  refine ⟨old, found, rfl, List.getElem?_set_self inside, ?_, checked⟩
  exact List.eraseIdx_set_eq

theorem stored_insert (done : t.insert m validate values = .ok (record, t')) :
    t.Stored m validate t' t.rows.length { data := record } := by
  obtain ⟨-, checked, appended⟩ := insert_ok done
  have unmoved : t.rows.eraseIdx t.rows.length = t.rows :=
    List.eraseIdx_of_length_le Nat.le.refl
  refine ⟨by simp [appended], ?_, ?_⟩
  · rw [appended, unmoved, List.eraseIdx_append_of_length_le Nat.le.refl]
    simp
  · rwa [unmoved]

/-- A row that passed the check is the only one with its key. -/
theorem Stored.others_lack (kept : t.Stored m validate t' index row)
    (keyed : Loading.primaryKey m = .ok pk) (known : row.data.get? pk = some key)
    (nonnull : key ≠ .null) : ∀ other ∈ t.rows.eraseIdx index, other.has pk key = false := by
  intro other member
  obtain ⟨a, declared, rfl, primary⟩ := Loading.exists_primary keyed
  have isKey : a.isKey = true := by simp [Attribute.isKey, primary]
  have present := Value.present?_eq_some_iff.mpr ⟨known, nonnull⟩
  rw [Bool.eq_false_iff]
  intro has
  obtain ⟨w, held, same⟩ := (has_eq_true_iff nonnull).mp has
  rw [apart_of_check kept.checked member a declared isKey w key held present] at same
  cases same

/-- So it is the only one that is read by its key, if it is live. -/
theorem Stored.liveWhere (kept : t.Stored m validate t' index row)
    (known : row.data.get? pk = some key)
    (lack : ∀ other ∈ t.rows.eraseIdx index, other.has pk key = false) :
    t'.liveWhere pk key = if row.hidden then [] else [row.data] := by
  obtain ⟨inside, here⟩ := List.getElem?_eq_some_iff.mp kept.here
  have split : t'.rows = t'.rows.take index ++ row :: t'.rows.drop (index + 1) := by
    rw [← here]
    simp
  have apart : ∀ other ∈ t'.rows.take index ++ t'.rows.drop (index + 1),
      other.has pk key = false := by
    rw [← List.eraseIdx_eq_take_drop_succ, kept.others]
    exact lack
  have none : ∀ part : List StoredRow, (∀ other ∈ part, other.has pk key = false) →
      part.filter (fun other => other.has pk key && !other.hidden) = [] := by
    intro part lack
    exact List.filter_eq_nil_iff.mpr fun other member => by simp [lack other member]
  have has : row.has pk key = true := by simp [StoredRow.has, known]
  obtain ⟨before, after⟩ := List.forall_mem_append.mp apart
  rw [Table.liveWhere, live, List.filter_filter, split, List.filter_append, none _ before,
    List.filter_cons, none _ after, has]
  cases row.hidden <;> rfl

/-- What was upserted is hidden exactly if a hidden row had its key before. -/
theorem Upserted.hidden_iff (upserted : t.Upserted m pk values index row created)
    (ordered : values.Ascending) (declared : (m.attribute? pk).isSome = true)
    (known : row.data.get? pk = some key)
    (lack : ∀ other ∈ t.rows.eraseIdx index, other.has pk key = false) :
    row.hidden = true ↔ ∃ old ∈ t.rows, old.hidden = true ∧ old.has pk key = true := by
  have elsewhere {i : Nat} {old : StoredRow} (place : t.rows[i]? = some old)
      (has : old.has pk key = true) : i = index := by
    by_cases same : i = index
    · exact same
    · have other := List.mem_eraseIdx_iff_getElem?.mpr ⟨i, same, place⟩
      rw [lack old other] at has
      cases has
  cases upserted with
  | @overwritten _ old v given found same =>
      rw [Model.get?_extend_declared old ordered declared given] at known
      obtain rfl := Option.some.inj known
      constructor
      · exact fun hidden => ⟨old, List.mem_of_getElem? found, hidden, same⟩
      · rintro ⟨other, member, hidden, has⟩
        obtain ⟨i, place⟩ := List.mem_iff_getElem?.mp member
        obtain rfl := elsewhere place has
        obtain rfl := Option.some.inj (place.symm.trans found)
        exact hidden
  | added record =>
      constructor
      · nofun
      · rintro ⟨other, member, -, has⟩
        obtain ⟨i, place⟩ := List.mem_iff_getElem?.mp member
        obtain rfl := elsewhere place has
        simp at place

end Table

namespace Engine

variable {m : Model} {pk : String} {values : Record} {request : Request.Write} {row : Row}
variable {created : Bool} {e e' : Engine} {key : Value}

/-- An upsert that succeeds has stored the row that it answers, in one of the two ways. -/
theorem upsert_ok (registered : e.registry.get? m.name = some m)
    (keyed : Loading.primaryKey m = .ok pk)
    (done : upsert m values request e = (.ok (row, created), e')) :
    let before := e.database.openTable m.name
    ∃ index stored t, before.Upserted m pk values index stored created ∧
      before.Stored m request.validate t index stored ∧
      row = { model := m, data := stored.data } ∧ e' = e.setTable m.name t := by
  intro before
  rw [upsert, keyed, Action.bind_run_ok (Action.lift_run _ e)] at done
  obtain ⟨⟨record, fresh⟩, e₁, stored, done⟩ := Action.bind_ok done
  obtain ⟨t, work, rfl⟩ := onTable_ok_iff.mp stored
  have known : (e.setTable m.name t).registry.get? m.name = some m := registered
  obtain ⟨answer, e₂, handed, last⟩ := Action.bind_ok done
  rw [handOut_run known] at handed
  cases handed
  cases last
  obtain ⟨place, found, work⟩ := bind_eq_ok_iff.mp work
  cases place with
  | some index =>
      obtain ⟨⟨record, t⟩, written, last⟩ := bind_eq_ok_iff.mp work
      cases last
      obtain ⟨v, present, found⟩ := existing?_some found
      have given := (Value.present?_eq_some_iff.mp present).1
      obtain ⟨old, there, rfl, kept⟩ := Table.stored_updateAt written
      obtain ⟨same, place, has⟩ := Table.position?_ok keyed found
      obtain rfl := Option.some.inj (place.symm.trans there)
      exact ⟨index, _, t, .overwritten given there has, kept, rfl, rfl⟩
  | none =>
      obtain ⟨⟨record, t⟩, inserted, last⟩ := bind_eq_ok_iff.mp work
      cases last
      exact ⟨_, _, t, .added record, Table.stored_insert inserted, rfl, rfl⟩

/-- What is found by a scalar key is a live row with that key, and the name of the key is not
reserved. -/
theorem findOne_keyed (registered : e.registry.get? m.name = some m) (scalar : key.IsScalar)
    (found : findOne m { filter := [(pk, key)] } e = (.ok (some row), e')) :
    Filter.isReserved pk = false ∧
      row.data ∈ (e.database.openTable m.name).liveWhere pk key := by
  obtain ⟨rfl, rows, first, selected⟩ := (findOne_ok_iff registered).mp found
  obtain ⟨record, live, picked⟩ :=
    Loading.exists_of_mem_select selected (List.mem_of_mem_head? first)
  obtain rfl : record = row.data := Except.ok.inj picked.shaped
  have accepted := picked.accepted
  rw [Filter.accepts, Filter.matchesAll_single] at accepted
  have unreserved : Filter.isReserved pk = false := by
    rw [Bool.eq_false_iff]
    exact fun reserved => Filter.matchesEntry_reserved_literal reserved scalar accepted
  refine ⟨unreserved, ?_⟩
  rw [Table.liveWhere_eq]
  refine List.mem_filter.mpr ⟨live, ?_⟩
  exact Except.ok.inj ((Filter.accepts_literal unreserved scalar _).symm.trans picked.accepted)

/-- A row that was upserted and has a scalar key is found by it on the store that the upsert
leaves, exactly if the name of the key is not reserved and no row that was hidden before has
this key. -/
theorem upsert_found_iff (registered : e.registry.get? m.name = some m)
    (keyed : Loading.primaryKey m = .ok pk) (ordered : values.Ascending)
    (done : upsert m values request e = (.ok (row, created), e'))
    (known : row.get? pk = some key) (scalar : key.IsScalar) :
    findOne m { filter := [(pk, key)] } e' = (.ok (some row), e') ↔
      Filter.isReserved pk = false ∧ ∀ old ∈ (e.database.openTable m.name).rows,
        old.hidden = true → old.has pk key = false := by
  obtain ⟨index, stored, t, upserted, kept, rfl, rfl⟩ := upsert_ok registered keyed done
  have registered' : (e.setTable m.name t).registry.get? m.name = some m := registered
  have opened : (e.setTable m.name t).database.openTable m.name = t :=
    Database.openTable_setTable_self ..
  have lack := kept.others_lack keyed known scalar.nonnull
  have alone := kept.liveWhere known lack
  have hidden := upserted.hidden_iff ordered (Loading.isSome_attribute?_primaryKey keyed) known lack
  constructor
  · intro found
    obtain ⟨unreserved, member⟩ := findOne_keyed registered' scalar found
    refine ⟨unreserved, fun old before masked => ?_⟩
    rw [opened, alone] at member
    rw [Bool.eq_false_iff]
    intro has
    rw [hidden.mpr ⟨old, before, masked, has⟩] at member
    cases member
  · rintro ⟨unreserved, free⟩
    have shown : stored.hidden = false := by
      rw [Bool.eq_false_iff]
      intro masked
      obtain ⟨old, before, masked, has⟩ := hidden.mp masked
      rw [free old before masked] at has
      cases has
    rw [shown] at alone
    have selected : Loading.select e.registry (e.setTable m.name t).database m
        { filter := [(pk, key)], limit := some 1 } = .ok [{ model := m, data := stored.data }] :=
      Loading.select_keyed unreserved scalar nofun
        ((congrArg (·.liveWhere pk key) opened).trans alone) rfl
    exact (findOne_ok_iff registered').mpr ⟨rfl, _, rfl, selected⟩

section Accounts

/-- An account that is closed but not forgotten. -/
def ledger : Model :=
  { name := "Account", attributes := [.identity "id", { name := "owner" }], paranoid := true }

/-- Two accounts. The first one is closed. -/
def accounts : Engine :=
  Command.run
    [.bulkCreate ledger [[("owner", .str "ann")], [("owner", .str "bob")]] {},
      .destroy ledger { filter := [("id", .ofInt 1)] }]
    (Engine.ofRegistry [("Account", ledger)])

/-- The open account as eve has it. -/
def taken : Row :=
  { model := ledger, data := [("id", .ofInt 2), ("owner", .str "eve")] }

/-- The open account goes to another owner and is found as it is then. -/
theorem upsert_found_open :
    let run := upsert ledger taken.data {} accounts
    run.1 = .ok (taken, false) ∧
      findOne ledger { filter := [("id", .ofInt 2)] } run.2 = (.ok (some taken), run.2) := by
  have answer : (upsert ledger taken.data {} accounts).1 = .ok (taken, false) := rfl
  have registered : accounts.registry.get? ledger.name = some ledger := rfl
  have shown : ∀ old ∈ (accounts.database.openTable ledger.name).rows,
      old.hidden = true → old.has "id" (.ofInt 2) = false := by decide
  have known : taken.get? "id" = some (.ofInt 2) := rfl
  exact ⟨answer, (upsert_found_iff registered rfl (by decide) (Prod.ext answer rfl) known
    trivial).mpr ⟨by decide, shown⟩⟩

/-- The closed account goes to another owner, but it stays closed and is not found. -/
theorem upsert_hidden_closed :
    let record : Record := [("id", .ofInt 1), ("owner", .str "eve")]
    let run := upsert ledger record {} accounts
    run.1 = .ok ({ model := ledger, data := record }, false) ∧
      (findOne ledger { filter := [("id", .ofInt 1)] } run.2).1 = .ok none :=
  ⟨rfl, congrArg Prod.fst
    (findOne_found [] ((findAll_unsorted rfl rfl rfl rfl rfl).trans rfl))⟩

end Accounts

end Engine

end RecordGraph
