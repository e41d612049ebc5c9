import RecordGraph.Proofs.Data.Equality
import RecordGraph.Proofs.Store.Command
import RecordGraph.Proofs.Store.Shape

/-!
# The constraints of models hold in every store

A record fits a model when exactly the declared attributes are its keys and a value is
there wherever null is refused. Two records are apart when no key attribute has the
same value in both. A table keeps the constraints of a model when its rows fit and are
pairwise apart, hidden ones included.

Every way of writing a table keeps them. A single update is checked beside the rows it
leaves alone; a bulk update is checked row by row beside all others as they will be, so
of two rows it is enough that one was checked. From tables the constraints pass to the
engine, with the databases it may go back to, and from one command to any run.
-/

namespace RecordGraph

namespace Model

variable {m : Model} {x y : Record}

/-- A record with the declared keys and a value wherever null is refused. -/
structure Fits (m : Model) (record : Record) : Prop extends m.Shapes record where
  present : ∀ a ∈ m.attributes, a.refusesNull = true →
    (Value.present? (record.get? a.name)).isSome = true

/-- No key attribute has the same value in both records. -/
def Apart (m : Model) (x y : Record) : Prop :=
  ∀ a ∈ m.attributes, a.isKey = true → ∀ v w, Value.present? (x.get? a.name) = some v →
    Value.present? (y.get? a.name) = some w → v.same w = false

theorem Apart.symm (h : m.Apart x y) : m.Apart y x := by
  intro a declared isKey v w hv hw
  rw [Value.same_comm]
  exact h a declared isKey w v hw hv

end Model

namespace Table

variable {m : Model} {t t' : Table} {record data : Record} {validate : Bool} {index : Nat}

section Check

variable {others : List StoredRow}

theorem has_eq_true_iff {row : StoredRow} {key : String} {v : Value} (nonnull : v ≠ .null) :
    row.has key v = true ↔
      ∃ w, Value.present? (row.data.get? key) = some w ∧ w.same v = true := by
  simp only [StoredRow.has, Option.any_eq_true, Value.present?_eq_some_iff]
  constructor
  · rintro ⟨w, found, same⟩
    refine ⟨w, ⟨found, ?_⟩, same⟩
    rintro rfl
    simp [nonnull] at same
  · rintro ⟨w, ⟨found, _⟩, same⟩
    exact ⟨w, found, same⟩

/-- A record is accepted when none of its attributes breaks a rule. -/
theorem check_eq_ok_iff : check m others validate record = .ok () ↔
    ∀ a ∈ m.attributes, violations m others validate record a = [] := by
  rw [← List.flatMap_eq_nil_iff, check]
  cases m.attributes.flatMap (violations m others validate record) <;> simp

theorem present_of_check (h : check m others validate record = .ok ()) {a : Attribute}
    (declared : a ∈ m.attributes) (refuses : a.refusesNull = true) :
    (Value.present? (record.get? a.name)).isSome = true := by
  have clean := check_eq_ok_iff.mp h a declared
  unfold violations at clean
  cases found : Value.present? (record.get? a.name) with
  | some v => rfl
  | none => simp [found, refuses] at clean

/-- A refusal lists violations of attributes only. -/
theorem mem_violations_of_check {refusal : Refusal} {v : Violation}
    (refused : check m others validate record = .error (.validation refusal))
    (member : v ∈ refusal.violations) :
    ∃ b ∈ m.attributes, v ∈ violations m others validate record b := by
  unfold check at refused
  split at refused
  · cases refused
  · cases refused
    exact List.mem_flatMap.mp member

/-- An accepted record is apart from all others it was checked beside. -/
theorem apart_of_check (h : check m others validate record = .ok ()) {row : StoredRow}
    (other : row ∈ others) : m.Apart row.data record := by
  intro a declared isKey v w hv hw
  have clean := check_eq_ok_iff.mp h a declared
  simp only [violations, hw, isKey, Bool.true_and, List.append_eq_nil_iff,
    ite_eq_right_iff, List.cons_ne_nil, imp_false, Bool.not_eq_true, List.any_eq_false] at clean
  have nonnull := (Value.present?_eq_some_iff.mp hw).2
  have free := clean.2 row other
  cases same : v.same w with
  | false => rfl
  | true =>
      rw [(has_eq_true_iff nonnull).mpr ⟨v, hv, same⟩] at free
      cases free

/-- A row is updated by writing the declared entries into it where it stands; the answer is
its record then. -/
theorem updateAt_ok (done : t.updateAt m validate index data = .ok (record, t')) :
    ∃ row, t.rows[index]? = some row ∧
      check m (t.rows.eraseIdx index) validate (row.extend (declared m data)).data = .ok () ∧
      record = (row.extend (declared m data)).data ∧
      t' = { t with rows := t.rows.set index (row.extend (declared m data)) } := by
  simp only [updateAt] at done
  cases found : t.rows[index]? with
  | none =>
      rw [found] at done
      cases done
  | some row =>
      rw [found] at done
      obtain ⟨⟨⟩, checked, last⟩ := bind_eq_ok_iff.mp done
      cases last
      exact ⟨row, rfl, checked, rfl, rfl⟩

/-- A new record is accepted as it is checked, if its counter is a 64-bit integer. -/
theorem accept_ok {counter : Int} (done : accept m t validate data counter = .ok ()) :
    counter < 0x8000000000000000 ∧ check m t.rows validate data = .ok () := by
  unfold accept at done
  split at done
  · exact ⟨‹_›, done⟩
  · cases done

/-- A new record is refused by the check alone. -/
theorem accept_refused {counter : Int} {refusal : Refusal}
    (refused : accept m t validate data counter = .error (.validation refusal)) :
    check m t.rows validate data = .error (.validation refusal) := by
  unfold accept at refused
  split at refused
  · exact refused
  · cases refused

/-- A new row is put behind all others. -/
theorem insert_ok (done : t.insert m validate data = .ok (record, t')) :
    record = (newRecord m t data).1 ∧ check m t.rows validate record = .ok () ∧
      t'.rows = t.rows ++ [{ data := record }] := by
  simp only [insert] at done
  obtain ⟨⟨⟩, answer, last⟩ := bind_eq_ok_iff.mp done
  cases last
  exact ⟨rfl, (accept_ok answer).2, rfl⟩

end Check

/-- The constraints of a model on stored rows: each of them fits, and they are pairwise
apart. -/
structure Keeps (m : Model) (rows : List StoredRow) : Prop where
  fits : ∀ row ∈ rows, m.Fits row.data
  apart : rows.Pairwise fun x y => m.Apart x.data y.data

section ModifyAll

variable {f : StoredRow → StoredRow} {indices : List Nat} {rows : List StoredRow}

/-- Change the rows at several places in turn. -/
def modifyAll (f : StoredRow → StoredRow) (indices : List Nat) (rows : List StoredRow) :
    List StoredRow :=
  indices.foldl (fun rows i => rows.modify i f) rows

theorem getElem?_modifyAll_of_not_mem {i : Nat} (untouched : i ∉ indices) :
    (modifyAll f indices rows)[i]? = rows[i]? := by
  induction indices generalizing rows with
  | nil => rfl
  | cons j rest ih =>
      obtain ⟨ne, untouched⟩ := not_or.mp (mt List.mem_cons.mpr untouched)
      exact (ih untouched).trans (List.getElem?_modify_ne f rows (Ne.symm ne))

theorem getElem?_modifyAll_of_mem {i : Nat} (nodup : indices.Nodup) (touched : i ∈ indices) :
    (modifyAll f indices rows)[i]? = rows[i]?.map f := by
  induction indices generalizing rows with
  | nil => cases touched
  | cons j rest ih =>
      obtain ⟨once, others⟩ := List.nodup_cons.mp nodup
      rcases List.mem_cons.mp touched with rfl | later
      · refine (getElem?_modifyAll_of_not_mem once).trans ?_
        rw [List.getElem?_modify_eq]
        rfl
      · have ne : j ≠ i := fun same => once (same ▸ later)
        refine (ih others later).trans ?_
        rw [List.getElem?_modify_ne f rows ne]

/-- What holds of all rows and survives the change holds of all rows afterwards. -/
theorem forall_mem_modifyAll {P : StoredRow → Prop} (change : ∀ row, P row → P (f row))
    (before : ∀ row ∈ rows, P row) : ∀ row ∈ modifyAll f indices rows, P row := by
  induction indices generalizing rows with
  | nil => exact before
  | cons j rest ih =>
      refine ih fun row member => ?_
      obtain ⟨i, at_i⟩ := List.mem_iff_getElem?.mp member
      rw [List.getElem?_modify] at at_i
      obtain ⟨old, found, rfl⟩ := Option.map_eq_some_iff.mp at_i
      have kept := before old (List.mem_of_getElem? found)
      split
      · exact change old kept
      · exact kept

/-- What the change does not touch is the same afterwards, row by row. -/
theorem map_modifyAll {β : Type} {g : StoredRow → β} (keeps : ∀ row, g (f row) = g row) :
    (modifyAll f indices rows).map g = rows.map g := by
  induction indices generalizing rows with
  | nil => rfl
  | cons j rest ih =>
      refine ih.trans (List.ext_getElem? fun i => ?_)
      simp only [List.getElem?_map, List.getElem?_modify]
      cases rows[i]? with
      | none => rfl
      | some row =>
          by_cases here : j = i
          · simp [here, keeps]
          · simp [here]

end ModifyAll

/-- Removing rows leaves the others in their order. -/
theorem sublist_remove (t : Table) (indices : List Nat) :
    (t.remove indices).rows.Sublist t.rows := by
  simp only [Table.remove]
  induction indices with
  | nil => exact .refl _
  | cons i rest ih => exact (List.eraseIdx_sublist _ i).trans ih

theorem keeps_nil : Keeps m [] where
  fits _ member := nomatch member
  apart := .nil

section Pairwise

variable {R : Record → Record → Prop} {rows rows' : List StoredRow}

/-- Where some rows have changed and each of these was checked beside all others, rows stay in a
relation to each other that follows from their being apart: of two rows either one was checked or
both are as before. -/
theorem pairwise_of_checked (symm : ∀ x y, R x y → R y x) (apart : ∀ x y, m.Apart x y → R x y)
    (before : rows.Pairwise fun x y => R x.data y.data) (validate : Bool) (touched : Nat → Prop)
    (same : ∀ i, ¬ touched i → rows'[i]? = rows[i]?)
    (checked : ∀ i row, touched i → rows'[i]? = some row →
      check m (rows'.eraseIdx i) validate row.data = .ok ()) :
    rows'.Pairwise fun x y => R x.data y.data := by
  have beside {i j : Nat} {x y : StoredRow} (at_i : rows'[i]? = some x)
      (at_j : rows'[j]? = some y) (ne : i ≠ j) (change : touched j) : R x.data y.data :=
    apart _ _ <| apart_of_check (checked j y change at_j)
      (List.mem_eraseIdx_iff_getElem?.mpr ⟨i, ne, at_i⟩)
  refine List.pairwise_iff_getElem.mpr fun i j hi hj less => ?_
  have at_i : rows'[i]? = some rows'[i] := List.getElem?_eq_getElem hi
  have at_j : rows'[j]? = some rows'[j] := List.getElem?_eq_getElem hj
  by_cases change_j : touched j
  · exact beside at_i at_j (by omega) change_j
  by_cases change_i : touched i
  · exact symm _ _ (beside at_j at_i (by omega) change_i)
  · rw [same i change_i] at at_i
    rw [same j change_j] at at_j
    obtain ⟨hi', at_i⟩ := List.getElem?_eq_some_iff.mp at_i
    obtain ⟨hj', at_j⟩ := List.getElem?_eq_some_iff.mp at_j
    rw [← at_i, ← at_j]
    exact List.pairwise_iff_getElem.mp before i j hi' hj' less

/-- Rows that are added are checked beside all others. -/
theorem pairwise_insert (apart : ∀ x y, m.Apart x y → R x y)
    (before : t.rows.Pairwise fun x y => R x.data y.data)
    (done : t.insert m validate data = .ok (record, t')) :
    t'.rows.Pairwise fun x y => R x.data y.data := by
  obtain ⟨rfl, checked, rows⟩ := insert_ok done
  rw [rows]
  refine List.pairwise_append.mpr ⟨before, List.pairwise_singleton _ _, fun x old y new => ?_⟩
  obtain rfl := List.mem_singleton.mp new
  exact apart _ _ (apart_of_check checked old)

/-- Every way of writing a table keeps the rows in such a relation. -/
theorem Step.pairwise (step : t.Step m t') (symm : ∀ x y, R x y → R y x)
    (apart : ∀ x y, m.Apart x y → R x y)
    (before : t.rows.Pairwise fun x y => R x.data y.data) :
    t'.rows.Pairwise fun x y => R x.data y.data := by
  cases step with
  | inserted done => exact pairwise_insert apart before done
  | @insertedAll validate inputs records t' done =>
      induction inputs generalizing t records with
      | nil =>
          cases done
          exact before
      | cons data rest ih =>
          obtain ⟨⟨record, next⟩, first, done⟩ := bind_eq_ok_iff.mp done
          obtain ⟨⟨others, last⟩, remaining, done⟩ := bind_eq_ok_iff.mp done
          cases done
          exact ih (pairwise_insert apart before first) remaining
  | @updatedAt validate index data record t' done =>
      obtain ⟨row, found, checked, _, rfl⟩ := updateAt_ok done
      obtain ⟨inside, -⟩ := List.getElem?_eq_some_iff.mp found
      refine pairwise_of_checked symm apart before validate (· = index) ?_ ?_
      · exact fun i untouched => List.getElem?_set_ne (Ne.symm untouched)
      · rintro i changed rfl at_i
        rw [List.getElem?_set_self inside] at at_i
        cases at_i
        rw [List.eraseIdx_set_eq]
        exact checked
  | @updatedMany validate indices data t' done =>
      obtain ⟨_, checked, last⟩ := bind_eq_ok_iff.mp done
      cases last
      refine pairwise_of_checked symm apart before validate (· ∈ indices) ?_ ?_
      · exact fun i untouched => getElem?_modifyAll_of_not_mem untouched
      · intro i row touched at_i
        have accepted := forM_eq_ok_iff.mp checked i touched
        rw [at_i] at accepted
        exact accepted
  | marked hidden indices =>
      have same : (t.setHidden hidden indices).rows.map (·.data) = t.rows.map (·.data) :=
        map_modifyAll fun _ => rfl
      exact List.pairwise_map.mp (same ▸ List.pairwise_map.mpr before)
  | removed indices => exact before.sublist (sublist_remove t indices)
  | cleared => exact .nil

end Pairwise

section Fits

theorem fits_insert (before : ∀ row ∈ t.rows, m.Fits row.data)
    (done : t.insert m validate data = .ok (record, t')) : ∀ row ∈ t'.rows, m.Fits row.data := by
  obtain ⟨rfl, checked, rows⟩ := insert_ok done
  rw [rows]
  refine List.forall_mem_append.mpr ⟨before, List.forall_mem_singleton.mpr ?_⟩
  exact ⟨shapes_newRecord, fun a => present_of_check checked⟩

/-- Every way of writing a table leaves rows that fit. -/
theorem Step.fits (step : t.Step m t') (before : ∀ row ∈ t.rows, m.Fits row.data) :
    ∀ row ∈ t'.rows, m.Fits row.data := by
  cases step with
  | inserted done => exact fits_insert before done
  | @insertedAll validate inputs records t' done =>
      induction inputs generalizing t records with
      | nil =>
          cases done
          exact before
      | cons data rest ih =>
          obtain ⟨⟨record, next⟩, first, done⟩ := bind_eq_ok_iff.mp done
          obtain ⟨⟨others, last⟩, remaining, done⟩ := bind_eq_ok_iff.mp done
          cases done
          exact ih (fits_insert before first) remaining
  | @updatedAt validate index data record t' done =>
      obtain ⟨old, found, checked, _, rfl⟩ := updateAt_ok done
      intro row member
      rcases List.mem_or_eq_of_mem_set member with among | rfl
      · exact before row among
      · have shaped := (before old (List.mem_of_getElem? found)).toShapes.extend data
        exact ⟨shaped, fun a => present_of_check checked⟩
  | @updatedMany validate indices data t' done =>
      obtain ⟨_, checked, last⟩ := bind_eq_ok_iff.mp done
      cases last
      intro row member
      have shaped : ∀ row ∈ t.preview m indices data, m.Shapes row.data :=
        forall_mem_modifyAll (fun row shaped => shaped.extend data)
          fun row member => (before row member).toShapes
      obtain ⟨i, at_i⟩ := List.mem_iff_getElem?.mp member
      by_cases touched : i ∈ indices
      · have accepted := forM_eq_ok_iff.mp checked i touched
        rw [at_i] at accepted
        exact ⟨shaped row member, fun a => present_of_check accepted⟩
      · rw [show (t.preview m indices data)[i]? = t.rows[i]? from
          getElem?_modifyAll_of_not_mem touched] at at_i
        exact before row (List.mem_of_getElem? at_i)
  | marked hidden indices => exact forall_mem_modifyAll (fun _ fits => fits) before
  | removed indices =>
      exact fun row member => before row ((sublist_remove t indices).subset member)
  | cleared => nofun

end Fits

/-- Every way of writing a table keeps the constraints. -/
theorem Keeps.step (kept : Keeps m t.rows) (step : t.Step m t') : Keeps m t'.rows where
  fits := step.fits kept.fits
  apart := step.pairwise (fun _ _ => Model.Apart.symm) (fun _ _ apart => apart) kept.apart

end Table

namespace Database

variable {r : Registry} {d : Database} {m : Model} {name : String} {t : Table}

/-- Every table is that of a registered model and keeps its constraints. -/
def Keeps (r : Registry) (d : Database) : Prop :=
  ∀ name t, d.table? name = some t → ∃ m, r.get? name = some m ∧ Table.Keeps m t.rows

theorem Keeps.openTable (kept : d.Keeps r) (registered : r.get? name = some m) :
    Table.Keeps m (d.openTable name).rows := by
  cases found : d.get? name with
  | none =>
      rw [Database.openTable, found]
      exact Table.keeps_nil
  | some t =>
      obtain ⟨other, same, kept⟩ := kept name t found
      rw [registered] at same
      cases same
      rw [Database.openTable, found]
      exact kept

theorem Keeps.setTable (kept : d.Keeps r) (registered : r.get? name = some m)
    (table : Table.Keeps m t.rows) : (d.setTable name t).Keeps r := by
  intro other u found
  rw [table?, Database.setTable, Dict.get?_insert] at found
  split at found
  · cases found
    subst other
    exact ⟨m, registered, table⟩
  · exact kept other u found

theorem Keeps.dropTable (kept : d.Keeps r) : (d.dropTable name).Keeps r := by
  intro other u found
  rw [table?, Database.dropTable, Dict.get?_erase] at found
  split at found
  · cases found
  · exact kept other u found

end Database

namespace Engine

variable {r : Registry} {e : Engine} {d : Database} {id : Nat}

/-- The database and all databases that a transaction may go back to keep the constraints. -/
structure Keeps (r : Registry) (e : Engine) : Prop where
  current : e.database.Keeps r
  snapshots : ∀ saved ∈ e.snapshots, saved.2.Keeps r

theorem keeps_ofRegistry : (ofRegistry r).Keeps r where
  current _ _ found := nomatch found
  snapshots _ member := nomatch member

theorem Keeps.snapshot (kept : e.Keeps r) (found : e.snapshot? id = some d) : d.Keeps r := by
  obtain ⟨saved, first, rfl⟩ := Option.map_eq_some_iff.mp found
  exact kept.snapshots saved (List.mem_of_find?_eq_some first)

theorem Keeps.close (kept : e.Keeps r) : (e.close id).Keeps r where
  current := kept.current
  snapshots saved member := kept.snapshots saved (List.mem_filter.mp member).1

end Engine

namespace Command

variable {e : Engine} {c : Command}

/-- A command that connects no rows keeps the constraints, whether it fails or not. -/
theorem keeps_perform (registered : c.Registered e.registry) (unlinked : c.isLink = false)
    (kept : e.Keeps e.registry) : (c.perform e).2.Keeps e.registry := by
  have transition := perform_transition registered
  generalize c.perform e = left at transition ⊢
  cases transition with
  | idle => exact kept
  | refused m about err =>
      have found := registered m about
      exact ⟨kept.current.setTable found (kept.current.openTable found), kept.snapshots⟩
  | wrote m about step =>
      have found := registered m about
      exact ⟨kept.current.setTable found ((kept.current.openTable found).step step),
        kept.snapshots⟩
  | dropped m => exact ⟨kept.current.dropTable, kept.snapshots⟩
  | opened => exact ⟨kept.current, List.forall_mem_cons.mpr ⟨kept.current, kept.snapshots⟩⟩
  | committed => exact kept.close
  | rolledBack id _ saved => exact ⟨kept.snapshot saved, kept.close.snapshots⟩
  | pointed link => simp [unlinked] at link
  | paired link => simp [unlinked] at link

theorem keeps_run_of_keeps {cs : List Command} (registered : ∀ c ∈ cs, c.Registered e.registry)
    (unlinked : ∀ c ∈ cs, c.isLink = false) (kept : e.Keeps e.registry) :
    (run cs e).Keeps e.registry := by
  induction cs generalizing e with
  | nil => exact kept
  | cons c rest ih =>
      obtain ⟨first, others⟩ := List.forall_mem_cons.mp registered
      obtain ⟨unlinked_first, unlinked_others⟩ := List.forall_mem_cons.mp unlinked
      have step := keeps_perform first unlinked_first kept
      rw [← registry_perform first] at others step ⊢
      exact ih others unlinked_others step

/-- From an engine without tables no run of commands breaks a constraint: in every table,
also in those that an open transaction may bring back, every row has exactly the declared
keys and a value wherever null is refused, and no two rows share a key. -/
theorem keeps_run (r : Registry) {cs : List Command} (registered : ∀ c ∈ cs, c.Registered r)
    (unlinked : ∀ c ∈ cs, c.isLink = false) : (run cs (Engine.ofRegistry r)).Keeps r :=
  keeps_run_of_keeps (e := Engine.ofRegistry r) registered unlinked Engine.keeps_ofRegistry

/-- A rollback brings a row back in place of a later one of the same name. -/
theorem keeps_run_rollback :
    let e := run [.create account [("name", .str "ada")] {}, .beginTransaction,
      .destroy account {}, .create account [("name", .str "ada")] {}, .rollback 1]
      (Engine.ofRegistry [("Account", account)])
    e.Keeps [("Account", account)] ∧
      (e.database.openTable "Account").rows.map (·.data) =
        [[("id", .ofInt 1), ("name", .str "ada")]] := by
  refine ⟨keeps_run _ ?_ ?_, rfl⟩
  · simp [Registered, model?, account]
  · simp [isLink]

end Command

end RecordGraph
