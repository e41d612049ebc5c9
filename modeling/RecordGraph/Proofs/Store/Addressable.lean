import RecordGraph.Proofs.Store.Inserting
import RecordGraph.Proofs.Store.Rewriting

/-!
# Stored rows have a key

Where the primary key of a model refuses null, a row is stored with a key: one that it is
given, or a number. Writing a row over the one of its key leaves the key there, and an update
may not write null under a key that is not numbered. The check lets null pass for numbered
attributes, though, and this is sound only where a number has just been given: an update that
writes null under a numbered key is not refused, and from then on its rows cannot be found by
their key. No other command leaves a row without one.
-/

namespace RecordGraph

/-- Every row, hidden ones included, has a value under a key. -/
def Table.Addressable (key : String) (t : Table) : Prop :=
  ∀ row ∈ t.rows, Record.Has row.data key

namespace Table

variable {m : Model} {t t' : Table} {record data : Record} {validate : Bool} {a : Attribute}
variable {places : List Nat} {index : Nat} {row : StoredRow} {v : Value}

theorem addressable_empty : Addressable a.name {} :=
  fun _ member => nomatch member

theorem isSome_attribute? (declared : a ∈ m.attributes) : (m.attribute? a.name).isSome = true :=
  Model.isSome_attribute?_iff.mpr (List.mem_map_of_mem declared)

/-- What fills a numbered key is not null. -/
theorem Filled.nonnull {before after : Int} {key : String}
    (filled : Filled m data key before after v) (numbered : m.Numbers key) : v ≠ .null := by
  rintro rfl
  cases filled with
  | given _ nonnull => exact nonnull rfl
  | fallback _ _ _ _ allowed => exact nomatch allowed numbered
  | null _ _ plain => exact plain numbered

theorem has_insert (declared : a ∈ m.attributes) (refuses : a.allowNull = false)
    (done : t.insert m validate data = .ok (record, t')) : Record.Has record a.name := by
  obtain ⟨rfl, checked, _⟩ := insert_ok done
  cases numbered : a.autoIncrement with
  | true =>
      obtain ⟨v, found, filled⟩ := exists_filled t data (isSome_attribute? declared)
      exact ⟨v, found, filled.nonnull ⟨a, declared, rfl, numbered⟩⟩
  | false =>
      have present := present_of_check checked declared (by simp [Attribute.refusesNull, *])
      exact Record.has_iff_present?.mpr (Option.isSome_iff_exists.mp present)

theorem Addressable.insert (addressable : t.Addressable a.name) (declared : a ∈ m.attributes)
    (refuses : a.allowNull = false) (done : t.insert m validate data = .ok (record, t')) :
    t'.Addressable a.name := by
  have has := has_insert declared refuses done
  obtain ⟨_, _, rows⟩ := insert_ok done
  intro row member
  rw [rows] at member
  rcases List.mem_append.mp member with old | new
  · exact addressable row old
  · obtain rfl := List.mem_singleton.mp new
    exact has

theorem Addressable.insertAll {inputs records : List Record} (addressable : t.Addressable a.name)
    (declared : a ∈ m.attributes) (refuses : a.allowNull = false)
    (done : t.insertAll m validate inputs = .ok (records, t')) : t'.Addressable a.name := by
  induction inputs generalizing t records with
  | nil =>
      cases done
      exact addressable
  | cons data rest ih =>
      obtain ⟨⟨record, next⟩, first, done⟩ := bind_eq_ok_iff.mp done
      obtain ⟨⟨others, last⟩, remaining, done⟩ := bind_eq_ok_iff.mp done
      cases done
      exact ih (addressable.insert declared refuses first) remaining

/-- A row has a key after entries that say nothing of the key, or give one, are written into
it. -/
theorem has_extend (declared : a ∈ m.attributes) (ordered : data.Ascending)
    (kept : data.get? a.name ≠ some .null) (has : Record.Has row.data a.name) :
    Record.Has (row.extend (Table.declared m data)).data a.name := by
  rw [Record.Has, Model.get?_extend row ordered, Model.get?_declared,
    if_pos (isSome_attribute? declared)]
  cases given : data.get? a.name with
  | none => exact has
  | some v => exact ⟨v, rfl, fun null => kept (null ▸ given)⟩

theorem Addressable.updateAt (addressable : t.Addressable a.name) (declared : a ∈ m.attributes)
    (ordered : data.Ascending) (given : Value.present? (data.get? a.name) = some v)
    (done : t.updateAt m validate index data = .ok (record, t')) : t'.Addressable a.name := by
  obtain ⟨row, found, _, _, rfl⟩ := updateAt_ok done
  obtain ⟨given, nonnull⟩ := Value.present?_eq_some_iff.mp given
  intro other member
  rcases List.mem_or_eq_of_mem_set member with old | rfl
  · exact addressable other old
  · have kept : data.get? a.name ≠ some .null := by
      rw [given]
      exact fun null => nonnull (Option.some.inj null)
    exact has_extend declared ordered kept (addressable row (List.mem_of_getElem? found))

theorem Addressable.updateMany (addressable : t.Addressable a.name) (declared : a ∈ m.attributes)
    (ordered : data.Ascending) (kept : data.get? a.name = some .null → places = [])
    (done : t.updateMany m validate places data = .ok t') : t'.Addressable a.name := by
  obtain rfl := updateMany_ok done
  by_cases null : data.get? a.name = some .null
  · rw [kept null]
    exact addressable
  · exact forall_mem_modifyAll (fun _ has => has_extend declared ordered null has) addressable

/-- Null that is written under a key stands in each of the rows that are updated. -/
theorem null_of_updateMany (declared : a ∈ m.attributes) (ordered : data.Ascending)
    (null : data.get? a.name = some .null) (nodup : places.Nodup)
    (inside : ∀ i ∈ places, ∃ row, t.rows[i]? = some row) (member : index ∈ places)
    (done : t.updateMany m validate places data = .ok t') :
    ∃ row, t'.rows[index]? = some row ∧ row.data.get? a.name = some .null := by
  obtain ⟨_, row, _, found, _, look⟩ :=
    (rewritten_updateMany ordered nodup inside done).written index member
  refine ⟨row, found, ?_⟩
  rw [look, Model.get?_declared, if_pos (isSome_attribute? declared), null]
  rfl

/-- Null under a key that refuses it is written into no row, unless the key is numbered. -/
theorem numbered_of_updateMany (declared : a ∈ m.attributes) (refuses : a.allowNull = false)
    (ordered : data.Ascending) (null : data.get? a.name = some .null) (nodup : places.Nodup)
    (inside : ∀ i ∈ places, ∃ row, t.rows[i]? = some row) (member : index ∈ places)
    (done : t.updateMany m validate places data = .ok t') : a.autoIncrement = true := by
  obtain ⟨row, found, cleared⟩ := null_of_updateMany declared ordered null nodup inside member done
  obtain ⟨_, checked, last⟩ := bind_eq_ok_iff.mp done
  cases last
  have accepted := forM_eq_ok_iff.mp checked index member
  rw [found] at accepted
  cases numbered : a.autoIncrement with
  | true => rfl
  | false =>
      have present := present_of_check accepted declared (by simp [Attribute.refusesNull, *])
      rw [cleared] at present
      cases present

end Table

/-- An update answers how many rows it has matched. -/
theorem Engine.update_run {e : Engine} {m : Model} {values : Record} {request : Request.Update}
    {places : List Nat} {t : Table}
    (matched : (e.database.openTable m.name).matching request.filter false request.limit =
      .ok places)
    (done : (e.database.openTable m.name).updateMany m request.validate places values = .ok t) :
    (Engine.update m values request e).1 = .ok places.length := by
  rw [Engine.update, Engine.onTable_run_ok (a := places.length) (t := t)]
  simp only [matched, done, ok_bind]
  rfl

namespace Command

variable {e : Engine} {c : Command} {m : Model} {a : Attribute}

/-- The entries that a command writes over stored rows are in key order. -/
def Ordered : Command → Prop
  | .update _ values _ | .upsert _ values _ => values.Ascending
  | .save row _ => row.data.Ascending
  | _ => True

/-- An update writes null under a numbered key, in one row at least. -/
def ClearsKey (m : Model) (a : Attribute) (e : Engine) : Command → Prop
  | .update n values request => n = m ∧ a.autoIncrement = true ∧
      values.get? a.name = some .null ∧ ∃ count, (Engine.update n values request e).1 = .ok (count + 1)
  | _ => False

/-- Whatever else a command writes, it leaves all rows with a key. -/
theorem addressable_of_writes {t : Table} (primary : m.attributes.find? (·.primaryKey) = some a)
    (refuses : a.allowNull = false) (about : c.model? = some m) (ordered : c.Ordered)
    (kept : ¬ c.ClearsKey m a e)
    (addressable : (e.database.openTable m.name).Addressable a.name)
    (writes : Writes (e.database.openTable m.name) c t) : t.Addressable a.name := by
  have declared : a ∈ m.attributes := List.mem_of_find?_eq_some primary
  have keyed {n : Model} {pk : String} (same : n = m) (named : Loading.primaryKey n = .ok pk) :
      pk = a.name := by
    subst same
    rw [Loading.primaryKey, Model.primaryKey, primary] at named
    exact (Except.ok.inj named).symm
  cases writes with
  | create done =>
      cases about
      exact addressable.insert declared refuses done
  | bulkCreate done =>
      cases about
      exact addressable.insertAll declared refuses done
  | @update n values request places t matched done =>
      cases about
      refine addressable.updateMany declared ordered (fun null => ?_) done
      obtain rfl := Table.matching_ok matched
      refine List.eq_nil_iff_forall_not_mem.mpr fun i member => kept ⟨rfl, ?_, null, ?_⟩
      · exact Table.numbered_of_updateMany declared refuses ordered null Table.nodup_chosen
          Table.chosen_inside member done
      · obtain ⟨count, size⟩ := Nat.exists_eq_add_one.mpr (List.length_pos_of_mem member)
        exact ⟨count, size ▸ Engine.update_run matched done⟩
  | upsertNew done =>
      cases about
      exact addressable.insert declared refuses done
  | upsertOver named given _ done =>
      cases about
      cases keyed rfl named
      exact addressable.updateAt declared ordered given done
  | destroyMarked places => exact Table.forall_mem_modifyAll (fun _ has => has) addressable
  | destroyRemoved places =>
      exact fun row member => addressable row ((Table.sublist_remove _ _).subset member)
  | restore places => exact Table.forall_mem_modifyAll (fun _ has => has) addressable
  | truncate => exact fun _ member => absurd member List.not_mem_nil
  | saveNew done =>
      cases about
      exact addressable.insert declared refuses done
  | saveOver named given _ done =>
      cases about
      cases keyed rfl named
      exact addressable.updateAt declared ordered given done

/-- An update that clears the key of a row leaves that row without one. -/
theorem not_addressable_of_clearsKey (primary : m.attributes.find? (·.primaryKey) = some a)
    (ordered : c.Ordered) (clears : c.ClearsKey m a e) :
    ¬ ((c.perform e).2.database.openTable m.name).Addressable a.name := by
  cases c with
  | update n values request =>
      obtain ⟨rfl, _, null, count, answer⟩ := clears
      have declared : a ∈ n.attributes := List.mem_of_find?_eq_some primary
      obtain ⟨places, t, matched, done, size, last⟩ := Engine.update_ok (Prod.ext answer rfl)
      have left : ((update n values request).perform e).2 = e.setTable n.name t := last
      obtain rfl := Table.matching_ok matched
      obtain ⟨i, member⟩ := List.exists_mem_of_length_pos (Nat.lt_of_lt_of_eq count.succ_pos size)
      obtain ⟨row, found, cleared⟩ := Table.null_of_updateMany declared ordered null
        Table.nodup_chosen Table.chosen_inside member done
      intro addressable
      rw [left, Engine.setTable, Database.openTable_setTable_self] at addressable
      obtain ⟨v, there, nonnull⟩ := addressable row (List.mem_of_getElem? found)
      exact nonnull (Option.some.inj (there.symm.trans cleared))
  | _ => exact clears.elim

/-- If no row of an engine is without a key, in tables that a transaction may bring back
neither, it stays so exactly along the runs in which no command clears a key. -/
theorem along_addressable_iff_of_everywhere {cs : List Command}
    (primary : m.attributes.find? (·.primaryKey) = some a) (refuses : a.allowNull = false)
    (everywhere : e.Everywhere m.name (Table.Addressable a.name))
    (same : ∀ c ∈ cs, ∀ n, c.model? = some n → n.name = m.name → n = m)
    (unlinked : ∀ c ∈ cs, c.isLink = false) (ordered : ∀ c ∈ cs, c.Ordered) :
    Along (fun e c => ((c.perform e).2.database.openTable m.name).Addressable a.name) e cs ↔
      Along (fun e c => ¬ c.ClearsKey m a e) e cs := by
  induction cs generalizing e with
  | nil => exact .rfl
  | cons c rest ih =>
      obtain ⟨same_first, same_rest⟩ := List.forall_mem_cons.mp same
      obtain ⟨unlinked_first, unlinked_rest⟩ := List.forall_mem_cons.mp unlinked
      obtain ⟨ordered_first, ordered_rest⟩ := List.forall_mem_cons.mp ordered
      have step (kept : ¬ c.ClearsKey m a e) :
          (c.perform e).2.Everywhere m.name (Table.Addressable a.name) := by
        refine everywhere_perform Table.addressable_empty everywhere unlinked_first ?_
        intro n t about here writes
        obtain rfl := same_first n about here
        exact addressable_of_writes primary refuses about ordered_first kept everywhere.current writes
      constructor
      · rintro ⟨addressable, later⟩
        have kept : ¬ c.ClearsKey m a e :=
          fun clears => not_addressable_of_clearsKey primary ordered_first clears addressable
        exact ⟨kept, (ih (step kept) same_rest unlinked_rest ordered_rest).mp later⟩
      · rintro ⟨kept, later⟩
        exact ⟨(step kept).current, (ih (step kept) same_rest unlinked_rest ordered_rest).mpr later⟩

/-- Where the primary key of a model refuses null, every stored row has a key after each command
of a run if and only if no update of the run writes null under the key, and reaches a row with
it. An update can do so only if the key is numbered; all other commands, with whatever values,
leave all rows with a key. -/
theorem addressable_run_iff (r : Registry) (primary : m.attributes.find? (·.primaryKey) = some a)
    (refuses : a.allowNull = false) {cs : List Command}
    (same : ∀ c ∈ cs, ∀ n, c.model? = some n → n.name = m.name → n = m)
    (unlinked : ∀ c ∈ cs, c.isLink = false) (ordered : ∀ c ∈ cs, c.Ordered) :
    Along (fun e c => ((c.perform e).2.database.openTable m.name).Addressable a.name)
        (Engine.ofRegistry r) cs ↔
      Along (fun e c => ¬ c.ClearsKey m a e) (Engine.ofRegistry r) cs :=
  along_addressable_iff_of_everywhere primary refuses (.ofRegistry r Table.addressable_empty)
    same unlinked ordered

/-- Null that is given for the key of a new account counts for nothing, and an account keeps its
key whether it is updated or written over. -/
theorem addressable_run_account :
    Along (fun e c => ((c.perform e).2.database.openTable "Account").Addressable "id")
      (Engine.ofRegistry [("Account", account)])
      [.create account [("id", .null), ("name", .str "ada")] {}, .beginTransaction,
        .update account [("name", .str "eve")] {}, .upsert account [("id", .ofInt 1)] {},
        .save { model := account, data := [("id", .null), ("name", .str "bob")], isNew := true } true,
        .rollback 1] := by
  refine (addressable_run_iff (m := account) (a := .identity "id") _ rfl rfl ?_ ?_ ?_).mpr ?_
  · simp [model?]
  · simp [isLink]
  · simp only [List.forall_mem_cons, List.not_mem_nil, Ordered, false_implies, implies_true]
    decide
  · simp [Along, ClearsKey, Dict.get?]

/-- An update takes the key of an account away. -/
theorem update_clears_account :
    let cs : List Command := [.create account [("name", .str "ada")] {},
      .update account [("id", .null)] {}]
    let t := (run cs (Engine.ofRegistry [("Account", account)])).database.openTable "Account"
    t.rows.map (·.data) = [[("id", .null), ("name", .str "ada")]] ∧ ¬ t.Addressable "id" := by
  refine ⟨rfl, fun addressable => ?_⟩
  obtain ⟨v, found, nonnull⟩ := addressable _ List.mem_cons_self
  cases found
  exact nonnull rfl

end Command

end RecordGraph
