import Mathlib.Data.List.Forall2
import RecordGraph.Proofs.Store.Connecting
import RecordGraph.Proofs.Store.Required

/-!
# What storing and connecting a row write

Storing a row writes the table of its model, and connecting one writes the table that the
connection hangs on. `Command.Sets` says which table that is and what is made of it. All that
walks keep of a table follows from what each of these four ways of writing makes of it.

`Command.Rewrites` says the same row by row. One stored row is written over, or all that hold
some keys are; rows of a join table are taken out; and rows are put behind all others. The rows
that none of this is about stay what they are, in their order.
-/

namespace RecordGraph

namespace Command

/-- The row that a command stores or connects. -/
def row? : Command → Option Row
  | .save row _ | .setAssociation row _ _ => some row
  | _ => none

open Linking

/-- What storing or connecting a row makes of a table. -/
inductive Sets (e : Engine) : Command → String → Table → Prop where
  | saved {row : Row} {validate : Bool} {record : Record} {t : Table}
      (stored : storing validate row (e.database.openTable row.model.name) = .ok (record, t)) :
      Sets e (.save row validate) row.model.name t
  /-- The row holds the key of its target. -/
  | held {row : Row} {label : String} {linked : Linked Row} {a : Association} {target : Model}
      {pk : String} {wanted : List Value} {key : Value} {index : Nat} {record : Record} {t : Table}
      (ends : Ends e.registry row label linked a target pk wanted) (kind : a.kind = .belongsTo)
      (source : sourceKey row.model (row.set (e.registry.foreignKey row.model a)
        (wanted.head?.getD .null)).data = .ok key)
      (place : (e.database.openTable row.model.name).position? row.model key = .ok (some index))
      (written : (e.database.openTable row.model.name).updateAt row.model false index
        (row.set (e.registry.foreignKey row.model a) (wanted.head?.getD .null)).data =
          .ok (record, t)) :
      Sets e (.setAssociation row label linked) row.model.name t
  /-- The targets hold the key of the row. -/
  | pointed {row : Row} {label : String} {linked : Linked Row} {a : Association} {target : Model}
      {pk : String} {wanted : List Value} {key : Value}
      (ends : Ends e.registry row label linked a target pk wanted)
      (kind : a.kind.isOwnedByTarget = true) (source : sourceKey row.model row.data = .ok key) :
      Sets e (.setAssociation row label linked) target.name
        (pointTargets pk (e.registry.foreignKey row.model a) key wanted
          (e.database.openTable target.name))
  /-- A join table holds the pairs of the row. -/
  | paired {row : Row} {label : String} {linked : Linked Row} {a : Association} {target : Model}
      {pk through : String} {wanted : List Value} {key : Value}
      (ends : Ends e.registry row label linked a target pk wanted) (kind : a.kind = .belongsToMany)
      (source : sourceKey row.model row.data = .ok key) (join : a.through = some through) :
      Sets e (.setAssociation row label linked) through
        (pairTargets (e.registry.foreignKey row.model a) a.joinTargetColumn key wanted
          (e.database.openTable through))

variable {e : Engine} {c : Command} {row : Row} {name : String} {t : Table}

/-- What is left of a store: one table is written, or every table is as it was. -/
theorem sets_perform (on : c.row? = some row) :
    (c.perform e).2.registry = e.registry ∧
      ((∃ name t, c.Sets e name t ∧ (c.perform e).2 = e.setTable name t) ∨
        ∀ name, (c.perform e).2.database.openTable name = e.database.openTable name) := by
  have untouched (name other : String) :
      (e.setTable name (e.database.openTable name)).database.openTable other =
        e.database.openTable other := by
    by_cases same : other = name
    · subst same
      exact Database.openTable_setTable_self ..
    · exact Database.openTable_setTable_of_ne _ _ same
  cases c with
  | save row validate =>
      refine ⟨(transition_save row validate).registry, ?_⟩
      rw [perform]
      cases stored : storing validate row (e.database.openTable row.model.name) with
      | ok answer =>
          rw [save_run_ok stored]
          exact .inl ⟨_, _, .saved stored, rfl⟩
      | error err =>
          rw [save_run_error stored]
          exact .inr (untouched _)
  | setAssociation row label linked =>
      refine ⟨(transition_setAssociation row label linked).registry, ?_⟩
      rw [perform]
      generalize run : Linking.setAssociation label linked row e = done
      obtain ⟨⟨result, row'⟩, e'⟩ := done
      cases result with
      | error err =>
          rcases (connect_error (setAssociation_error run)).1 with rfl | rfl
          · exact .inr fun _ => rfl
          · exact .inr (untouched _)
      | ok _ =>
          obtain ⟨connected, connects, rfl⟩ := setAssociation_ok_iff.mp run
          obtain ⟨a, target, pk, wanted, ends, connects⟩ := connect_ok connects
          cases connects with
          | belongsTo kind source place written =>
              exact .inl ⟨_, _, .held ends kind source place written, rfl⟩
          | pointed kind source => exact .inl ⟨_, _, .pointed ends kind source, rfl⟩
          | paired kind source join => exact .inl ⟨_, _, .paired ends kind source join, rfl⟩
  | _ => cases on

/-- A property of a table is kept if what may be made of the table has it. -/
theorem openTable_perform {P : Table → Prop} (on : c.row? = some row)
    (before : P (e.database.openTable name)) (writes : ∀ t, c.Sets e name t → P t) :
    P ((c.perform e).2.database.openTable name) := by
  obtain ⟨-, ⟨other, t, sets, left⟩ | same⟩ := sets_perform (e := e) on
  · rw [left]
    by_cases here : name = other
    · subst here
      rw [Engine.setTable, Database.openTable_setTable_self]
      exact writes t sets
    · rw [Engine.setTable, Database.openTable_setTable_of_ne _ _ here]
      exact before
  · rw [same]
    exact before

/-- The rows that storing or connecting a row writes in a table, each before and after it. -/
inductive Rewrites (e : Engine) :
    Command → String → Option StoredRow → Option StoredRow → Prop where
  | added {row : Row} {validate : Bool} (isNew : row.isNew = true) :
      Rewrites e (.save row validate) row.model.name none (some
        { data := (Table.newRecord row.model (e.database.openTable row.model.name) row.data).1 })
  /-- The first row with the key of a row is written over. -/
  | overwritten {row : Row} {validate : Bool} {pk : String} {key : Value} {stored : StoredRow}
      (old : row.isNew = false) (keyed : Loading.primaryKey row.model = .ok pk)
      (given : Value.present? (row.get? pk) = some key)
      (found : (e.database.openTable row.model.name).rows.find? (·.has pk key) = some stored) :
      Rewrites e (.save row validate) row.model.name (some stored)
        (some (stored.extend (Table.declared row.model row.data)))
  | held {row source : Row} {label : String} {linked : Linked Row} {a : Association}
      {target : Model} {pk ownPk : String} {wanted : List Value} {key : Value} {stored : StoredRow}
      (ends : Ends e.registry row label linked a target pk wanted) (kind : a.kind = .belongsTo)
      (set : source = row.set (e.registry.foreignKey row.model a) (wanted.head?.getD .null))
      (keyed : Loading.primaryKey row.model = .ok ownPk)
      (given : Value.present? (source.get? ownPk) = some key)
      (found : (e.database.openTable row.model.name).rows.find? (·.has ownPk key) = some stored) :
      Rewrites e (.setAssociation row label linked) row.model.name (some stored)
        (some (stored.extend (Table.declared row.model source.data)))
  /-- The wanted targets and those that hold the key of the source. -/
  | pointed {row : Row} {label : String} {linked : Linked Row} {a : Association} {target : Model}
      {pk : String} {wanted : List Value} {key : Value} {stored : StoredRow}
      (ends : Ends e.registry row label linked a target pk wanted)
      (kind : a.kind.isOwnedByTarget = true) (source : sourceKey row.model row.data = .ok key)
      (among : stored ∈ (e.database.openTable target.name).rows)
      (about : holdsAny stored.data pk wanted = true ∨
        stored.has (e.registry.foreignKey row.model a) key = true) :
      Rewrites e (.setAssociation row label linked) target.name (some stored)
        (some (pointRow pk (e.registry.foreignKey row.model a) key wanted stored))
  /-- The pairs of the source go. -/
  | unpaired {row : Row} {label : String} {linked : Linked Row} {a : Association} {target : Model}
      {pk through : String} {wanted : List Value} {key : Value} {stored : StoredRow}
      (ends : Ends e.registry row label linked a target pk wanted) (kind : a.kind = .belongsToMany)
      (source : sourceKey row.model row.data = .ok key) (join : a.through = some through)
      (among : stored ∈ (e.database.openTable through).rows)
      (about : stored.has (e.registry.foreignKey row.model a) key = true) :
      Rewrites e (.setAssociation row label linked) through (some stored) none
  | paired {row : Row} {label : String} {linked : Linked Row} {a : Association} {target : Model}
      {pk through : String} {wanted : List Value} {key k : Value}
      (ends : Ends e.registry row label linked a target pk wanted) (kind : a.kind = .belongsToMany)
      (source : sourceKey row.model row.data = .ok key) (join : a.through = some through)
      (among : k ∈ wanted) :
      Rewrites e (.setAssociation row label linked) through none
        (some (pairRow (e.registry.foreignKey row.model a) a.joinTargetColumn key k))

end Command

namespace Table

variable {R : Option StoredRow → Option StoredRow → Prop} {t t' : Table}

/-- From one table to another one, each row stays or is rewritten in its place, and rows are put
behind all others. -/
def Shifts (R : Option StoredRow → Option StoredRow → Prop) (t t' : Table) : Prop :=
  ∃ images added,
    List.Forall₂ (fun row image => image = some row ∨ R (some row) image) t.rows images ∧
    (∀ row ∈ added, R none (some row)) ∧ t'.rows = images.filterMap id ++ added

/-- Rows that are put behind all others. -/
theorem shifts_append {added : List StoredRow} (new : ∀ row ∈ added, R none (some row))
    (rows : t'.rows = t.rows ++ added) : t.Shifts R t' := by
  refine ⟨t.rows.map some, added, ?_, new, ?_⟩
  · exact List.forall₂_map_right_iff.mpr (List.forall₂_same.mpr fun row _ => .inl rfl)
  · rw [rows, List.filterMap_map]
    simp

/-- A row that is rewritten in its place. -/
theorem shifts_set {index : Nat} {old new : StoredRow} (found : t.rows[index]? = some old)
    (written : R (some old) (some new)) (rows : t'.rows = t.rows.set index new) :
    t.Shifts R t' := by
  obtain ⟨inside, rfl⟩ := List.getElem?_eq_some_iff.mp found
  refine ⟨(t.rows.set index new).map some, [], ?_, nofun, ?_⟩
  · refine List.forall₂_iff_get.mpr ⟨by simp, fun i hi hj => ?_⟩
    simp only [List.get_eq_getElem, List.getElem_map, List.getElem_set]
    split
    · subst_vars
      exact .inr written
    · exact .inl rfl
  · rw [rows, List.filterMap_map]
    simp

/-- Rows that are rewritten or taken out one by one, before others are put behind them. -/
theorem shifts_filterMap {f : StoredRow → Option StoredRow} {added : List StoredRow}
    (each : ∀ row ∈ t.rows, f row = some row ∨ R (some row) (f row))
    (new : ∀ row ∈ added, R none (some row)) (rows : t'.rows = t.rows.filterMap f ++ added) :
    t.Shifts R t' := by
  refine ⟨t.rows.map f, added, ?_, new, ?_⟩
  · exact List.forall₂_map_right_iff.mpr (List.forall₂_same.mpr each)
  · rw [rows, List.filterMap_map]
    rfl

/-- The rows that a rewriting is not about stay, in their order. -/
theorem Shifts.filter (shifts : t.Shifts R t') {p : StoredRow → Bool}
    (apart : ∀ before after, R before after → before.any p = false ∧ after.any p = false) :
    t'.rows.filter p = t.rows.filter p := by
  obtain ⟨images, added, pairs, new, rows⟩ := shifts
  have none_added : added.filter p = [] := by
    refine List.filter_eq_nil_iff.mpr fun row member => ?_
    simpa using (apart _ _ (new row member)).2
  rw [rows, List.filter_append, none_added, List.append_nil]
  clear rows
  generalize t.rows = stored at pairs
  induction pairs with
  | nil => rfl
  | @cons row image rest images first _ ih =>
      rcases first with rfl | written
      · rw [show (some row :: images).filterMap id = row :: images.filterMap id from rfl,
          List.filter_cons, List.filter_cons, ih]
      · obtain ⟨misses, misses'⟩ := apart _ _ written
        rw [List.filter_cons_of_neg (by simpa using misses), ← ih]
        cases image with
        | none => rfl
        | some after =>
            rw [List.filterMap_cons]
            exact List.filter_cons_of_neg (by simpa using misses')

/-- What holds of one of the rows, and still does when that is rewritten, holds of one of the
rows. -/
theorem Shifts.exists_row (shifts : t.Shifts R t') {Q : StoredRow → Prop}
    (keeps : ∀ row image, R (some row) image → Q row → ∃ after, image = some after ∧ Q after)
    (before : ∃ row ∈ t.rows, Q row) : ∃ row ∈ t'.rows, Q row := by
  obtain ⟨images, added, pairs, -, rows⟩ := shifts
  suffices kept : ∃ row ∈ images.filterMap id, Q row by
    obtain ⟨row, member, holds⟩ := kept
    exact ⟨row, rows ▸ List.mem_append_left _ member, holds⟩
  clear rows
  generalize t.rows = stored at pairs before
  induction pairs with
  | nil => exact absurd before (by simp)
  | @cons row image rest images first _ ih =>
      obtain ⟨other, member, holds⟩ := before
      rcases List.mem_cons.mp member with rfl | later
      · have here : ∃ after, image = some after ∧ Q after := by
          rcases first with kept | written
          · exact ⟨_, kept, holds⟩
          · exact keeps _ _ written holds
        obtain ⟨after, rfl, holds⟩ := here
        exact ⟨after, List.mem_cons_self, holds⟩
      · obtain ⟨after, member, holds⟩ := ih ⟨other, later, holds⟩
        refine ⟨after, ?_, holds⟩
        rw [List.filterMap_cons]
        cases image with
        | none => exact member
        | some _ => exact List.mem_cons_of_mem _ member

end Table

namespace Command

open Linking

variable {e : Engine} {c : Command} {row : Row} {name column : String} {t : Table}

/-- The row at the place of a key is the first one that has it. -/
theorem find?_of_position? {m : Model} {pk : String} {key : Value} {index : Nat}
    (keyed : Loading.primaryKey m = .ok pk) (place : t.position? m key = .ok (some index)) :
    ∃ stored, t.rows[index]? = some stored ∧ t.rows.find? (·.has pk key) = some stored := by
  unfold Table.position? at place
  obtain ⟨_, same, place⟩ := bind_eq_ok_iff.mp place
  cases Except.ok.inj (keyed.symm.trans same)
  obtain ⟨inside, has, first⟩ := List.findIdx?_eq_some_iff_getElem.mp (Except.ok.inj place)
  refine ⟨t.rows[index], List.getElem?_eq_getElem inside, List.find?_eq_some_iff_getElem.mpr ?_⟩
  exact ⟨has, index, inside, rfl, fun j less => by simpa using first j less⟩

/-- What is made of a table is what is made of its rows. -/
theorem Sets.shifts (sets : c.Sets e name t) :
    (e.database.openTable name).Shifts (c.Rewrites e name) t := by
  cases sets with
  | @saved row validate record t stored =>
      cases isNew : row.isNew with
      | true =>
          rw [storing, if_pos isNew] at stored
          obtain ⟨rfl, -, rows⟩ := Table.insert_ok stored
          exact Table.shifts_append (List.forall_mem_singleton.mpr (.added isNew)) rows
      | false =>
          rw [storing, if_neg (by simp [isNew])] at stored
          obtain ⟨key, known, stored⟩ := bind_eq_ok_iff.mp stored
          obtain ⟨place, found, stored⟩ := bind_eq_ok_iff.mp stored
          cases place with
          | none => cases stored
          | some index =>
              obtain ⟨pk, keyed, -⟩ := bind_eq_ok_iff.mp known
              obtain ⟨old, there, first⟩ := find?_of_position? keyed found
              obtain ⟨_, there', -, -, rfl⟩ := Table.updateAt_ok stored
              obtain rfl := Option.some.inj (there.symm.trans there')
              exact Table.shifts_set there
                (.overwritten isNew keyed ((storedKey_ok_iff keyed).mp known) first) rfl
  | held ends kind source place written =>
      obtain ⟨pk, keyed, -⟩ := bind_eq_ok_iff.mp source
      obtain ⟨old, there, first⟩ := find?_of_position? keyed place
      obtain ⟨_, there', -, -, rfl⟩ := Table.updateAt_ok written
      obtain rfl := Option.some.inj (there.symm.trans there')
      exact Table.shifts_set there
        (.held ends kind rfl keyed ((sourceKey_ok_iff keyed).mp source) first) rfl
  | @pointed row label linked a target pk wanted key ends kind source =>
      refine Table.shifts_filterMap
        (f := fun stored =>
          some (pointRow pk (e.registry.foreignKey row.model a) key wanted stored))
        (fun stored among => ?_) (List.forall_mem_nil _) ?_
      · by_cases about : holdsAny stored.data pk wanted = true ∨
            stored.has (e.registry.foreignKey row.model a) key = true
        · exact .inr (.pointed ends kind source among about)
        · obtain ⟨unwanted, unheld⟩ := not_or.mp about
          rw [pointRow, if_neg unwanted, if_neg unheld]
          exact .inl rfl
      · rw [pointTargets_rows, List.append_nil, List.filterMap_eq_map']
  | @paired row label linked a target pk through wanted key ends kind source join =>
      let column := e.registry.foreignKey row.model a
      have new : ∀ pair ∈ wanted.map (pairRow column a.joinTargetColumn key),
          Rewrites e (.setAssociation row label linked) name none (some pair) := by
        intro pair member
        obtain ⟨k, among, rfl⟩ := List.mem_map.mp member
        exact .paired ends kind source join among
      refine Table.shifts_filterMap (f := Option.guard fun stored => !stored.has column key)
        (fun stored among => ?_) new ?_
      · cases about : stored.has column key with
        | true =>
            rw [Option.guard, about]
            exact .inr (.unpaired ends kind source join among about)
        | false =>
            rw [Option.guard, about]
            exact .inl rfl
      · rw [pairTargets_rows, List.filterMap_eq_filter]

/-- A command writes a row that has one of some keys in a column of a table, or makes one that
has. -/
def Touches (e : Engine) (c : Command) (name column : String) (keys : List Value) : Prop :=
  ∃ before after row, c.Rewrites e name before after ∧ (before = some row ∨ after = some row) ∧
    holdsAny row.data column keys = true

/-- The records that have one of some keys stay as they are if no such row is written. -/
theorem sameWhere_perform {keys : List Value} (on : c.row? = some row)
    (apart : ¬ c.Touches e name column keys) :
    (e.database.openTable name).SameWhere column keys
      ((c.perform e).2.database.openTable name) := by
  have kept : ((c.perform e).2.database.openTable name).rows.filter
      (holdsAny ·.data column keys) =
        (e.database.openTable name).rows.filter (holdsAny ·.data column keys) := by
    refine openTable_perform (P := fun t => t.rows.filter (holdsAny ·.data column keys) = _) on rfl
      fun t sets => sets.shifts.filter fun before after written => ?_
    have misses (row : StoredRow) (one : before = some row ∨ after = some row) :
        holdsAny row.data column keys = false :=
      Bool.eq_false_iff.mpr fun holds => apart ⟨before, after, row, written, one, holds⟩
    constructor
    · cases before with
      | none => rfl
      | some row => exact misses row (.inl rfl)
    · cases after with
      | none => rfl
      | some row => exact misses row (.inr rfl)
  have live (t : Table) : t.liveRecords.filter (holdsAny · column keys) =
      ((t.rows.filter (holdsAny ·.data column keys)).filter (!·.hidden)).map (·.data) := by
    simp only [Table.liveRecords, Table.live, List.filter_map, List.filter_filter,
      Function.comp_def, Bool.and_comm]
  rw [Table.SameWhere, live, live, kept]

end Command

end RecordGraph
