import Mathlib.Data.List.Basic
import RecordGraph.Proofs.Filter.Mentions
import RecordGraph.Proofs.Store.Keys
import RecordGraph.Proofs.Store.Selecting

/-!
# Rewriting the rows that a filter chooses

An update goes through a table in order, notes the places of the live rows that its filter
holds of until there are as many as asked for, and writes the same entries into all of them.
A request reads the table in its own way: it filters all live records first and cuts them to
the page afterwards. Both come to the `chosen` places. They are chosen again after the update
if the filter does not look at a column that was written.
-/

namespace RecordGraph

/-- A filter answers that a record is accepted. -/
def Filter.holds (filter record : Record) : Bool :=
  match accepts filter record with
  | .ok accepted => accepted
  | .error _ => false

theorem Filter.holds_eq_true_iff {filter record : Record} :
    holds filter record = true ↔ accepts filter record = .ok true := by
  rw [holds]
  cases accepts filter record <;> simp

/-- A row is live and a filter holds of its record. -/
def StoredRow.meets (filter : Record) (row : StoredRow) : Bool :=
  !row.hidden && Filter.holds filter row.data

theorem StoredRow.meets_eq_true_iff {filter : Record} {row : StoredRow} :
    row.meets filter = true ↔
      row.hidden = false ∧ Filter.accepts filter row.data = .ok true := by
  rw [meets, Bool.and_eq_true, Bool.not_eq_true', Filter.holds_eq_true_iff]

namespace Table

/-- The places of the live rows that a filter holds of, in the order of insertion, up to a
limit. -/
def chosen (t : Table) (filter : Record) (limit : Option Nat) : List Nat :=
  Result.page none limit (t.rows.findIdxs (·.meets filter))

/-- The rows at some places of a table have got the same declared entries and are otherwise as
before, like all other rows. -/
structure Rewritten (m : Model) (data : Record) (places : List Nat) (t t' : Table) : Prop where
  counter : t'.counter = t.counter
  others : ∀ i, i ∉ places → t'.rows[i]? = t.rows[i]?
  written : ∀ i ∈ places, ∃ row row', t.rows[i]? = some row ∧ t'.rows[i]? = some row' ∧
    row'.hidden = row.hidden ∧
    ∀ name, row'.data.get? name = ((declared m data).get? name).or (row.data.get? name)

variable {m : Model} {t t' : Table} {filter data : Record} {limit : Option Nat} {validate : Bool}
variable {places : List Nat} {rows : List StoredRow} {row : StoredRow} {index : Nat}

/-! ### Choosing -/

theorem page_cons {α : Type} {x : α} {items : List α} (room : limit ≠ some 0) :
    Result.page none limit (x :: items) =
      x :: Result.page none (limit.map (· - 1)) items := by
  cases limit with
  | none => rfl
  | some n =>
      obtain ⟨n, rfl⟩ := Nat.exists_eq_succ_of_ne_zero (n := n) (by simpa using room)
      rfl

theorem page_eq_nil {α : Type} {items : List α} (room : limit ≠ some 0)
    (empty : Result.page none limit items = []) : items = [] := by
  cases items with
  | nil => rfl
  | cons item rest =>
      rw [page_cons room] at empty
      cases empty

theorem matchingFrom_ok (done : matchingFrom filter false limit index rows = .ok places) :
    places = Result.page none limit (rows.findIdxs (·.meets filter) index) := by
  induction rows generalizing limit index places with
  | nil =>
      cases done
      cases limit <;> simp [Result.page]
  | cons row rest ih =>
      rw [matchingFrom] at done
      rw [List.findIdxs_cons, StoredRow.meets]
      cases hidden : row.hidden with
      | true =>
          simp only [hidden, bne_iff_ne, ne_eq, Bool.true_eq_false, not_false_eq_true,
            if_true] at done
          exact ih done
      | false =>
          simp only [hidden, bne_self_eq_false, Bool.false_eq_true, if_false] at done
          split at done
          · next full =>
            cases done
            rw [full]
            rfl
          · next room =>
            obtain ⟨accepted, answer, done⟩ := bind_eq_ok_iff.mp done
            simp only [Filter.holds, answer]
            cases accepted with
            | true =>
                obtain ⟨others, later, last⟩ := bind_eq_ok_iff.mp done
                cases last
                rw [ih later]
                exact (page_cons room).symm
            | false => exact ih done

/-- The rows that are matched are those at the chosen places. -/
theorem matching_ok (done : t.matching filter false limit = .ok places) :
    places = t.chosen filter limit :=
  matchingFrom_ok done

theorem nodup_chosen : (t.chosen filter limit).Nodup :=
  List.nodup_findIdxs.sublist Result.page_sublist

/-- A chosen place is one of a live row that the filter holds of. -/
theorem exists_of_mem_chosen (member : index ∈ t.chosen filter limit) :
    ∃ row, t.rows[index]? = some row ∧ row.meets filter = true := by
  obtain ⟨inside, meets⟩ :=
    List.mem_findIdxs_iff_exists_getElem_pos.mp (Result.page_sublist.subset member)
  exact ⟨_, List.getElem?_eq_getElem inside, meets⟩

theorem chosen_inside : ∀ i ∈ t.chosen filter limit, ∃ row, t.rows[i]? = some row :=
  fun _ member => (exists_of_mem_chosen member).imp fun _ => And.left

theorem map_findIdxs {α : Type} (p : α → Bool) (items : List α) :
    (items.findIdxs p).map (items[·]?) = (items.filter p).map some := by
  refine List.ext_getElem (by simp [List.countP_eq_length_filter]) fun i inside _ => ?_
  simp only [List.getElem_map]
  rw [List.getElem_filter_eq_getElem_getElem_findIdxs]
  exact List.getElem?_eq_getElem _

/-- The records at the chosen places are those of the live records that the filter holds of,
up to the limit. -/
theorem map_chosen (t : Table) (filter : Record) (limit : Option Nat) :
    (t.chosen filter limit).map (fun i => t.rows[i]?.map (·.data)) =
      (Result.page none limit (t.liveRecords.filter (Filter.holds filter))).map some := by
  have live : (t.rows.filter (·.meets filter)).map (·.data) =
      t.liveRecords.filter (Filter.holds filter) := by
    rw [liveRecords, Table.live, List.filter_map, List.filter_filter]
    congr 2
    funext row
    exact Bool.and_comm _ _
  rw [chosen, ← Result.page_map, ← Result.page_map, ← live, List.map_map]
  have places := congrArg (List.map (Option.map (·.data)))
    (map_findIdxs (fun row => row.meets filter) t.rows)
  simp only [List.map_map, Function.comp_def, Option.map_some] at places ⊢
  rw [places]

/-- Which places are chosen is a matter of what the filter says of each row. -/
theorem chosen_congr
    (same : t'.rows.map (·.meets filter) = t.rows.map (·.meets filter)) :
    t'.chosen filter limit = t.chosen filter limit := by
  have places := congrArg (List.findIdxs id) same
  rw [List.findIdxs_map, List.findIdxs_map] at places
  rw [chosen, chosen]
  exact congrArg _ places

/-! ### Rewriting -/

theorem updateMany_ok (done : t.updateMany m validate places data = .ok t') :
    t' = { t with rows := modifyAll (·.extend (declared m data)) places t.rows } := by
  obtain ⟨_, _, last⟩ := bind_eq_ok_iff.mp done
  cases last
  rfl

/-- Updating rows together rewrites those at the places. -/
theorem rewritten_updateMany (ordered : data.Ascending) (nodup : places.Nodup)
    (inside : ∀ i ∈ places, ∃ row, t.rows[i]? = some row)
    (done : t.updateMany m validate places data = .ok t') : Rewritten m data places t t' := by
  obtain rfl := updateMany_ok done
  refine ⟨rfl, fun i other => getElem?_modifyAll_of_not_mem other, fun i member => ?_⟩
  obtain ⟨row, found⟩ := inside i member
  refine ⟨row, row.extend (declared m data), found, ?_, rfl, fun name => ?_⟩
  · exact (getElem?_modifyAll_of_mem nodup member).trans (congrArg _ found)
  · exact Model.get?_extend row ordered

theorem rewritten_nothing (inside : ∀ i ∈ places, ∃ row, t.rows[i]? = some row) :
    Rewritten m [] places t t := by
  refine ⟨rfl, fun _ _ => rfl, fun i member => ?_⟩
  obtain ⟨row, found⟩ := inside i member
  exact ⟨row, row, found, found, rfl, fun _ => rfl⟩

/-- What is written under columns that a filter does not mention makes no difference to it. -/
theorem meets_extend (ordered : data.Ascending)
    (silent : ∀ name ∈ (declared m data).keys, ¬ Filter.Mentions name filter) (row : StoredRow) :
    (row.extend (declared m data)).meets filter = row.meets filter := by
  have agree : Filter.AgreeOn (Filter.Mentions · filter)
      (row.extend (declared m data)).data row.data := by
    intro name mentions
    have unwritten : name ∉ (declared m data).keys := fun written => silent name written mentions
    rw [Dict.mem_keys_iff, Option.not_isSome_iff_eq_none] at unwritten
    rw [Model.get?_extend row ordered, unwritten]
    rfl
  rw [StoredRow.meets, StoredRow.meets, Filter.holds, Filter.holds, Filter.accepts_congr agree]
  rfl

/-- After such a write the same places are chosen. -/
theorem chosen_updateMany (ordered : data.Ascending)
    (silent : ∀ name ∈ (declared m data).keys, ¬ Filter.Mentions name filter)
    (done : t.updateMany m validate places data = .ok t') :
    t'.chosen filter limit = t.chosen filter limit := by
  obtain rfl := updateMany_ok done
  exact chosen_congr (map_modifyAll (meets_extend ordered silent))

end Table

namespace Loading

variable {r : Registry} {d : Database} {m : Model} {filter : Record}
variable {limit transaction : Option Nat}

/-- A request without includes keeps the records that its filter holds of. -/
theorem matching_plain {request : Request.Find} {records : List Record}
    {found : List (Record × Dict (Linked Row))} (plain : request.includes = none)
    (done : matching r d m request records = .ok found) :
    found = (records.filter (Filter.holds request.filter)).map fun record => (record, []) := by
  have nothing (record : Record) :
      related r d true m record [] request.includeList = .ok (some []) := by
    rw [Request.Find.includeList, plain]
    rfl
  induction records generalizing found with
  | nil =>
      cases done
      rfl
  | cons record rest ih =>
      rw [matching] at done
      obtain ⟨accepted, answer, done⟩ := bind_eq_ok_iff.mp done
      rw [List.filter_cons, Filter.holds, answer]
      cases accepted with
      | true =>
          simp only [if_true, nothing, ok_bind] at done
          obtain ⟨others, later, last⟩ := bind_eq_ok_iff.mp done
          cases last
          rw [ih later]
          rfl
      | false => exact ih done

/-- A request with a filter and a limit selects the first live records that the filter holds
of. -/
theorem select_plain {rows : List Row}
    (done : select r d m { filter, limit, transaction } = .ok rows) :
    rows = (Result.page none limit
      ((d.openTable m.name).liveRecords.filter (Filter.holds filter))).map
        fun data => { model := m, data } := by
  rw [Database.openTable]
  cases table : d.get? m.name with
  | none =>
      simp only [select, Database.table?, table] at done
      cases done
      cases limit <;> simp [Result.page, Table.liveRecords, Table.live]
  | some t =>
      simp only [select, Database.table?, table, Option.isSome_none, Bool.false_eq_true,
        if_false] at done
      obtain ⟨found, matched, done⟩ := bind_eq_ok_iff.mp done
      obtain rfl := matching_plain rfl matched
      obtain ⟨keys, unsorted, done⟩ := bind_eq_ok_iff.mp done
      cases unsorted
      rw [Result.sort_unordered, Result.page_map, List.mapM_map] at done
      have shaped := List.mapM_pure (m := Except StorageError)
        (f := fun record : Record => ({ model := m, data := record } : Row))
        (l := Result.page none limit (t.liveRecords.filter (Filter.holds filter)))
      exact (Except.ok.inj (shaped.symm.trans done)).symm

/-- If a request from the start and without includes selects no row, and not for the limit, its
filter is false of all live records. -/
theorem refused_of_select_nil {request : Request.Find} (plain : request.includes = none)
    (start : request.offset = none) (room : request.limit ≠ some 0)
    (done : select r d m request = .ok []) :
    ∀ record ∈ (d.openTable m.name).liveRecords,
      Filter.accepts request.filter record = .ok false := by
  intro record live
  obtain ⟨accepted, answer⟩ := answers_of_select done record live
  cases accepted with
  | false => exact answer
  | true =>
      rw [Database.openTable] at live
      cases table : d.get? m.name with
      | none =>
          rw [table] at live
          cases live
      | some t =>
          rw [table, Option.getD_some] at live
          rw [select, ungrouped_of_select done] at done
          simp only [Option.isSome_none, Bool.false_eq_true, if_false, Database.table?,
            table] at done
          obtain ⟨found, matched, done⟩ := bind_eq_ok_iff.mp done
          obtain ⟨keys, -, done⟩ := bind_eq_ok_iff.mp done
          obtain rfl := matching_plain plain matched
          rw [start] at done
          have nothing := Table.page_eq_nil room (eq_nil_of_mapM_ok done)
          rw [Result.sort, ← List.length_eq_zero_iff, List.length_mergeSort,
            List.length_eq_zero_iff, List.map_eq_nil_iff, List.filter_eq_nil_iff] at nothing
          exact absurd (Filter.holds_eq_true_iff.mpr answer) (nothing record live)

/-- The rows that are selected are those at the chosen places. -/
theorem select_chosen {rows : List Row}
    (done : select r d m { filter, limit, transaction } = .ok rows) :
    rows.map some = ((d.openTable m.name).chosen filter limit).map fun i =>
      (d.openTable m.name).rows[i]?.map fun stored => { model := m, data := stored.data } := by
  have places := congrArg (List.map (Option.map fun data => ({ model := m, data } : Row)))
    (Table.map_chosen (d.openTable m.name) filter limit)
  rw [select_plain done]
  simpa [Function.comp_def] using places.symm

end Loading

/-- An update of the engine that succeeds has written the rows that it matched, and answers how
many there are. -/
theorem Engine.update_ok {m : Model} {values : Record} {request : Request.Update} {n : Nat}
    {e e' : Engine} (done : Engine.update m values request e = (.ok n, e')) :
    ∃ places t, (e.database.openTable m.name).matching request.filter false request.limit =
        .ok places ∧
      (e.database.openTable m.name).updateMany m request.validate places values = .ok t ∧
      n = places.length ∧ e' = e.setTable m.name t := by
  obtain ⟨t, work, rfl⟩ := Engine.onTable_ok_iff.mp done
  obtain ⟨places, matched, work⟩ := bind_eq_ok_iff.mp work
  obtain ⟨changed, written, last⟩ := bind_eq_ok_iff.mp work
  cases last
  exact ⟨places, _, matched, written, rfl, rfl⟩

end RecordGraph
