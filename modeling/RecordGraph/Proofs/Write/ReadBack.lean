import RecordGraph.Proofs.Filter.Conjunction
import RecordGraph.Proofs.Store.Replacement
import RecordGraph.Proofs.Store.SoleKeys
import RecordGraph.Proofs.Store.Visibility
import RecordGraph.Proofs.Write.Performed

/-!
# What is created is found by its key

Creating a row answers it as its table has it, read again after the walk over the
includes. Reading by a filter takes another path: it runs over all live rows of the table,
loads the related rows of each that the filter accepts, and only then takes the first.
The two meet where the filter is on the key and no include drops a row: the rows that the
filter accepts are those that reading again looks among. There is one of them only, since a row
is checked when it is stored, and the walk gives its key to no other row.
-/

namespace RecordGraph

/-- A value that is not null and not made of other values. -/
def Value.IsScalar : Value → Prop
  | .null | .arr _ | .obj _ => False
  | _ => True

theorem Value.IsScalar.nonnull {key : Value} (scalar : key.IsScalar) : key ≠ .null := by
  rintro rfl
  exact scalar

theorem Value.IsScalar.ne_obj {key : Value} (scalar : key.IsScalar) (fields : Record) :
    key ≠ .obj fields := by
  rintro rfl
  exact scalar

theorem Value.IsScalar.ne_arr {key : Value} (scalar : key.IsScalar) (items : List Value) :
    key ≠ .arr items := by
  rintro rfl
  exact scalar

/-- A filter that says what the value of a column is accepts the records that hold it. -/
theorem Filter.accepts_literal {pk : String} {key : Value} (unreserved : isReserved pk = false)
    (scalar : key.IsScalar) (record : Record) :
    accepts [(pk, key)] record = .ok (Linking.holdsAny record pk [key]) := by
  have isNull : key.isNull = false := by
    rw [Bool.eq_false_iff]
    exact mt Value.isNull_eq_true_iff.mp scalar.nonnull
  have isEqual : Operator.isEqual (record.get? pk) key = Linking.holdsAny record pk [key] := by
    rw [Linking.holdsAny]
    cases record.get? pk with
    | none => exact isNull
    | some v => cases v <;> simp [Operator.isEqual, Value.present?, isNull]
  rw [accepts, matchesAll_single, matchesEntry_of_free unreserved, ← isEqual]
  cases key with
  | obj fields => exact absurd rfl (scalar.ne_obj fields)
  | _ => simp [matchesColumn, unreserved]

/-- A literal under a reserved key has no answer. -/
theorem Filter.matchesEntry_reserved_literal {row : Record} {k : String} {v : Value} {b : Bool}
    (reserved : isReserved k = true) (scalar : v.IsScalar) : matchesEntry row k v ≠ .ok b := by
  cases v with
  | arr items => exact scalar.elim
  | obj fields => exact scalar.elim
  | _ =>
      simp only [matchesEntry, matchesColumn, reserved, if_true]
      split
      · simp
      · split <;> simp

/-- A key that is not reserved is no path between dollar signs. -/
theorem Renaming.key_unreserved {r : Registry} {m : Model} {pk : String}
    (unreserved : Filter.isReserved pk = false) : key r m pk = pk := by
  have plain : Text.betweenDollars? pk = none := by
    rw [Filter.isReserved] at unreserved
    rw [Text.betweenDollars?]
    cases h : pk.toList with
    | nil => rfl
    | cons c rest =>
        rw [h] at unreserved
        split
        · simp_all
        · rfl
  rw [key, plain]

namespace Loading

variable {r : Registry} {d : Database} {m : Model} {data : Record} {filed : Dict (Linked Row)}

/-- The rows that a request keeps are those that its filter accepts, if all of these have
their related rows loaded. -/
theorem matching_ok {request : Request.Find} {holds : Record → Bool} {records : List Record}
    (accepts : ∀ record ∈ records, Filter.accepts request.filter record = .ok (holds record))
    (loads : ∀ record ∈ records.filter holds, ∃ filed,
      related r d true m record [] request.includeList = .ok (some filed)) :
    ∃ found, matching r d m request records = .ok found ∧
      found.map Prod.fst = records.filter holds ∧ ∀ entry ∈ found,
        related r d true m entry.1 [] request.includeList = .ok (some entry.2) := by
  induction records with
  | nil => exact ⟨[], rfl, rfl, nofun⟩
  | cons record rest ih =>
      obtain ⟨here, later⟩ := List.forall_mem_cons.mp accepts
      simp only [matching, here, ok_bind]
      cases accepted : holds record with
      | false =>
          rw [List.filter_cons_of_neg (by simp [accepted])] at loads ⊢
          exact ih later loads
      | true =>
          rw [List.filter_cons_of_pos accepted] at loads ⊢
          obtain ⟨⟨filed, loaded⟩, others⟩ := List.forall_mem_cons.mp loads
          obtain ⟨found, run, keys, each⟩ := ih later others
          refine ⟨(record, filed) :: found, ?_, by rw [List.map_cons, keys], ?_⟩
          · simp only [if_true, loaded, ok_bind, run, pure_eq_ok]
          · exact List.forall_mem_cons.mpr ⟨loaded, each⟩

/-- The first of the rows that a request keeps, where it neither sorts nor shapes them. -/
theorem select_first {filter : Record} {includes : Option (List Request.Include)} {t : Table}
    {found : List (Record × Dict (Linked Row))} (table : d.table? m.name = some t)
    (run : matching r d m { filter, includes, limit := some 1 } t.liveRecords =
      .ok ((data, filed) :: found)) :
    select r d m { filter, includes, limit := some 1 } =
      .ok [{ model := m, data, related := filed }] := by
  simp only [select, table, Option.isSome_none, Bool.false_eq_true, if_false]
  rw [show t.live.map (·.data) = t.liveRecords from rfl, run]
  simp only [ok_bind, Option.getD_none, Result.sortKeys, Result.sort_unordered]
  rfl

/-- Of the live records, a request for a key selects the only one that has it, with its
related rows. -/
theorem select_keyed {pk : String} {key : Value} {includes : Option (List Request.Include)}
    (unreserved : Filter.isReserved pk = false) (scalar : key.IsScalar)
    (optional : ∀ i ∈ includes.getD [], i.head.required = false)
    (found : (d.openTable m.name).liveWhere pk key = [data])
    (loaded : related r d false m data [] (includes.getD []) = .ok (some filed)) :
    select r d m { filter := [(pk, key)], includes, limit := some 1 } =
      .ok [{ model := m, data, related := filed }] := by
  have enforced : related r d true m data [] (includes.getD []) = .ok (some filed) :=
    (related_optional optional []).trans loaded
  cases table : d.get? m.name with
  | none =>
      rw [Database.openTable, table] at found
      cases found
  | some t =>
      rw [Database.openTable, table, Option.getD_some, Table.liveWhere_eq] at found
      have each : ∀ record ∈ t.liveRecords.filter (Linking.holdsAny · pk [key]), ∃ filed,
          related r d true m record [] (includes.getD []) = .ok (some filed) := by
        rw [found]
        exact List.forall_mem_singleton.mpr ⟨filed, enforced⟩
      let request : Request.Find := { filter := [(pk, key)], includes, limit := some 1 }
      have accepts : ∀ record ∈ t.liveRecords, Filter.accepts request.filter record =
          .ok (Linking.holdsAny record pk [key]) :=
        fun record _ => Filter.accepts_literal unreserved scalar record
      obtain ⟨rows, matched, keys, rowsLoaded⟩ := matching_ok accepts each
      rw [found] at keys
      obtain ⟨⟨first, related⟩, rest, rfl, rfl, -⟩ := List.map_eq_cons_iff.mp keys
      have alike := (rowsLoaded _ List.mem_cons_self).symm.trans enforced
      obtain rfl : related = filed := Option.some.inj (Except.ok.inj alike)
      exact select_first table matched

end Loading

namespace Include

theorem required_toRequest (i : Include) : (toRequest i).head.required = i.edge.required := by
  cases i with
  | plain edge => rfl
  | nested edge selection children => cases children <;> rfl

theorem optional_toRequests {includes : List Include}
    (optional : ∀ i ∈ includes, i.edge.required = false) :
    ∀ i ∈ toRequests includes, i.head.required = false := by
  induction includes with
  | nil => nofun
  | cons i rest ih =>
      obtain ⟨here, later⟩ := List.forall_mem_cons.mp optional
      exact List.forall_mem_cons.mpr ⟨(required_toRequest i).trans here, ih later⟩

end Include

namespace Repository

variable {repo : Repository} {e e' : Engine} {includes : List Include} {pk : String} {key : Value}

/-- What follows an operation of the backend runs if the operation succeeds. -/
theorem ask_bind_run {σ α β : Type} [Backend σ] (action : Action σ α) (f : α → Run σ β) (s : σ) :
    (repo.ask action >>= f) s =
      match action s with
      | (.ok a, s') => f a s'
      | (.error err, s') => (.error (.ofStorage repo.model err), s') := by
  rw [Action.bind_run, ask, Run.ofAction]
  cases action s with
  | mk result s' => cases result <;> rfl

/-- A repository and an engine know the same models, among them that of the repository, which
has a primary key. -/
structure Serves (repo : Repository) (e : Engine) (pk : String) : Prop where
  registry : e.registry = repo.registry
  registered : repo.registry.get? repo.model.name = some repo.model
  keyed : repo.model.primaryKey = .ok pk

/-- The query for all rows of the model of a repository, with some includes and nothing
else. -/
def everything (repo : Repository) (includes : List Include) : Query where
  registry := repo.registry
  model := repo.model
  descriptor := { Descriptor.ofModel repo.model.name with includes }

theorem toFind_byPrimaryKey (includes : List Include) (key : Value)
    (keyed : repo.model.primaryKey = .ok pk)
    (unreserved : Filter.isReserved pk = false) :
    ∃ keyedBy, repo.byPrimaryKey (repo.everything includes) key = .ok keyedBy ∧
      keyedBy.toFind = .ok { filter := [(pk, key)]
                             includes := Selection.nonEmpty? (Include.toRequests includes) } := by
  have notAnd : pk ≠ Filter.andKey := by
    rintro rfl
    exact absurd unreserved (by decide)
  have notOr : pk ≠ Filter.orKey := by
    rintro rfl
    exact absurd unreserved (by decide)
  have renamed : Renaming.filter repo.registry repo.model (Condition.build pk .eq key).fields =
      [(pk, key)] := by
    simp [Renaming.filter, Condition.build, Operator.isIdentity, Renaming.entries,
      Renaming.isJunction, notAnd, notOr, Renaming.key_unreserved unreserved, Dict.ofList,
      Dict.extend, Dict.insert]
  have conjoined : (Condition.all [⟨[(pk, key)]⟩]).fields = [(pk, key)] := by
    simp [Condition.all, Condition.and, Condition.always, Condition.conjoinEntry, notAnd,
      Condition.addEntry, Dict.insert, Dict.get?]
  have asked : ((repo.everything includes).filter (Condition.build pk .eq key)).descriptor =
      { selection := { model := repo.model.name, conditions := [⟨[(pk, key)]⟩] }, includes } := by
    rw [everything, Query.filter, renamed]
    rfl
  refine ⟨(repo.everything includes).filter (.build pk .eq key), ?_, ?_⟩
  · rw [byPrimaryKey, Cascade.primaryKey, keyed]
    rfl
  · rw [Query.toFind, asked, Descriptor.toFind, Selection.filter, conjoined]
    rfl

/-- Looking for a row by its key answers the first of the rows that are found with that key. -/
theorem findById_found {q keyedBy : Query} {request : Request.Find} (rows : List Row)
    (known : repo.byPrimaryKey q key = .ok keyedBy) (asked : keyedBy.toFind = .ok request)
    (found : Engine.findAll repo.model { request with limit := some 1 } e = (.ok rows, e)) :
    repo.findById q key e = (.ok rows.head?, e) := by
  rw [findById, known, Run.lift_bind_run, findOne, asked, Run.lift_bind_run]
  exact Run.ofAction_ok_iff.mpr (Engine.findOne_found rows found)

variable {data : Record} {filed : Dict (Linked Row)}

/-- A live row that no other one has the key of is found by its key, with its related rows. -/
theorem findById_ok (serves : repo.Serves e pk) (unreserved : Filter.isReserved pk = false)
    (scalar : key.IsScalar) (optional : ∀ i ∈ includes, i.edge.required = false)
    (found : (e.database.openTable repo.model.name).liveWhere pk key = [data])
    (loaded : Loading.related e.registry e.database false repo.model data []
      (Include.toRequests includes) = .ok (some filed)) :
    repo.findById (repo.everything includes) key e =
      (.ok (some { model := repo.model, data, related := filed }), e) := by
  have optional := Include.optional_toRequests optional
  rw [← Selection.getD_nonEmpty? (Include.toRequests includes)] at optional loaded
  have selected := Loading.select_keyed unreserved scalar optional found loaded
  have model : Loading.model e.registry repo.model.name = .ok repo.model := by
    rw [Loading.model, serves.registry, serves.registered]
  obtain ⟨keyedBy, known, asked⟩ := toFind_byPrimaryKey includes key serves.keyed unreserved
  refine findById_found [_] known asked ?_
  rw [Engine.findAll_run, model, ok_bind, selected]

/-- A row is as its table has it: a live record of the model, with its related rows. -/
structure Current (repo : Repository) (e : Engine) (includes : List Include) (row : Row) :
    Prop where
  model : row.model = repo.model
  old : row.isNew = false
  live : row.data ∈ (e.database.openTable repo.model.name).liveRecords
  loaded : Loading.related e.registry e.database false repo.model row.data []
    (Include.toRequests includes) = .ok (some row.related)

/-- The key of a row is as good as one that no other row of its table has. -/
def Identified (pk : String) (w : Value) (e : Engine) (row : Row) : Prop :=
  (∃ v, row.get? pk = some v ∧ v.same w = true) ∧
    SoleKey pk w ((e.database.openTable row.model.name).rows.map (·.data))

/-- A row that is as its table has it is found by its key, if no other has that key. -/
theorem Current.findById {row : Row} {w : Value} (current : repo.Current e includes row)
    (serves : repo.Serves e pk) (unreserved : Filter.isReserved pk = false)
    (optional : ∀ i ∈ includes, i.edge.required = false)
    (known : row.get? pk = some key) (scalar : key.IsScalar)
    (identified : Identified pk w e row) :
    repo.findById (repo.everything includes) key e = (.ok (some row), e) := by
  obtain ⟨⟨v, known', same⟩, sole⟩ := identified
  obtain rfl := Option.some.inj (known.symm.trans known')
  rw [current.model] at sole
  have found : (e.database.openTable repo.model.name).liveWhere pk key = [row.data] := by
    rw [Table.liveWhere_eq]
    exact SoleKey.filter_eq_singleton (sole.sublist (Table.liveRecords_sublist _)) current.live
      known same scalar.nonnull
  rw [findById_ok serves unreserved scalar optional found current.loaded]
  obtain ⟨model, data, isNew, related⟩ := row
  obtain rfl : model = repo.model := current.model
  obtain rfl : isNew = false := current.old
  rfl

end Repository

/-- A new row is put behind all others of its table, and handed out with its record. -/
theorem Engine.create_stored {m : Model} {data : Record} {request : Request.Write} {row : Row}
    {e e' : Engine} (registered : e.registry.get? m.name = some m)
    (created : Engine.create m data request e = (.ok row, e')) :
    let before := e.database.openTable m.name
    ∃ t, row = { model := m, data := (Table.newRecord m before data).1 } ∧
      t.rows = before.rows ++ [{ data := row.data }] ∧ e' = e.setTable m.name t := by
  intro before
  obtain ⟨record, e₁, stored, handed⟩ := Action.bind_ok created
  obtain ⟨t, inserted, rfl⟩ := Engine.onTable_ok_iff.mp stored
  have known : (e.setTable m.name t).registry.get? m.name = some m := registered
  rw [Engine.handOut_run known] at handed
  cases handed
  obtain ⟨rfl, -, appended⟩ := Table.insert_ok inserted
  exact ⟨t, rfl, appended, rfl⟩

/-- So it is live and as it is stored, and no other row has its key. -/
theorem Engine.create_ok {m : Model} {data : Record} {request : Request.Write} {row : Row}
    {e e' : Engine} (registered : e.registry.get? m.name = some m)
    (created : Engine.create m data request e = (.ok row, e')) :
    row = { model := m, data := row.data } ∧ row.data.Ascending ∧
      row.data ∈ (e'.database.openTable m.name).liveRecords ∧
      ∀ pk key, Loading.primaryKey m = .ok pk → Value.present? (row.get? pk) = some key →
        SoleKey pk key ((e'.database.openTable m.name).rows.map (·.data)) := by
  obtain ⟨record, e₁, stored, handed⟩ := Action.bind_ok created
  obtain ⟨t, inserted, rfl⟩ := Engine.onTable_ok_iff.mp stored
  have known : (e.setTable m.name t).registry.get? m.name = some m := registered
  rw [Engine.handOut_run known] at handed
  cases handed
  rw [Engine.setTable, Database.openTable_setTable_self]
  obtain ⟨rfl, -, appended⟩ := Table.insert_ok inserted
  refine ⟨rfl, Table.shapes_newRecord.ascending, ?_, fun pk key keyed present => ?_⟩
  · simp [Table.liveRecords, Table.live, appended]
  · obtain ⟨found, nonnull⟩ := Value.present?_eq_some_iff.mp present
    exact Table.soleKey_insert keyed found nonnull inserted

/-- Along some includes, rows are connected through other columns of a table than a certain one, at
whatever depth. -/
def Include.Spare (r : Registry) (m : Model) (includes : List Include) (name column : String) :
    Prop :=
  ∀ source label target a, LeadsTo r m includes source label target →
    source.association? label = some a → Linking.SparesColumn r source a target name column

namespace Cascade

variable {r : Registry} {options : PersistOptions} {pk : String} {key : Value}

/-- The walk of a row gives a key that only one row of its model has to no other row, if no row is
connected through the column of the key. -/
theorem Site.soleKey_walk {site : Site Engine} (fits : site.Fits r) (named : r.Named)
    (registered : r.get? site.model.name = some site.model)
    (keyed : Loading.primaryKey site.model = .ok pk)
    (spare : Include.Spare r site.model site.includes site.model.name pk)
    (sole : SoleKey pk key ((site.store.database.openTable site.model.name).rows.map (·.data))) :
    SoleKey pk key
      (((site.walk r options).2.database.openTable site.model.name).rows.map (·.data)) := by
  refine site.holds_walk (J := fun e : Engine =>
    SoleKey pk key ((e.database.openTable site.model.name).rows.map (·.data)))
    (fun c e performs sole => ?_) sole
  obtain ⟨asked, known⟩ := performs.asked fits named
  obtain ⟨row, on, -⟩ := asked.exists_row
  refine Command.soleKey_perform keyed on
    (asked.own named on registered fun _ => rfl) ?_ sole
  rintro label linked a target rfl association resolved
  cases on
  rw [known] at resolved ⊢
  cases asked with
  | setAssociation leads =>
      obtain rfl := leads.target_eq association resolved
      exact spare _ _ _ _ leads association

/-- Connecting a row leaves it a row of its model, as new as it was, with its key if it is not
connected through that. -/
theorem rowUpholds_keyed (m : Model) (new : Bool) (o : Option Value) (label : String)
    (linked : Linked Row)
    (spares : ∀ a target, m.association? label = some a → r.get? a.target = some target →
      Linking.SparesColumn r m a target m.name pk) :
    RowUpholds (fun row => row.model = m ∧ row.isNew = new ∧ row.get? pk = o)
      (fun e => e.registry = r) (Linking.setAssociation label linked) := by
  rintro row e ⟨⟨rfl, old, own⟩, known⟩
  have registry := (upkeep_registry r).connect row label linked e known
  generalize run : Linking.setAssociation label linked row e = done at registry ⊢
  obtain ⟨⟨result, row'⟩, e'⟩ := done
  cases result with
  | error err => exact registry
  | ok _ =>
      obtain ⟨connected, connects, rfl⟩ := Linking.setAssociation_ok_iff.mp run
      obtain ⟨a, target, _, wanted, ends, connects⟩ := Linking.connect_ok connects
      rw [known] at connects
      cases connects with
      | belongsTo kind =>
          have anchor : Linking.anchorTable row.model a target = some row.model.name := by
            rw [Linking.anchorTable, kind]
          obtain ⟨ne, -⟩ := spares a target ends.association (known ▸ ends.registered) anchor
          exact ⟨⟨rfl, old, (Dict.get?_insert_of_ne _ _ (Ne.symm ne)).trans own⟩, registry⟩
      | pointed | paired => exact ⟨⟨rfl, old, own⟩, registry⟩

/-- So does a walk, before it reads the row again. -/
theorem keyed_of_writeAll {m : Model} {draft : Draft} {mode : WriteMode} {own : String}
    {includes : List Include} {row row' : Row} {e e' : Engine} (model : row.model = m)
    (registry : e.registry = r) (spare : Include.Spare r m includes m.name pk)
    (done : writeAll r options m draft mode own includes row e = ((.ok (), row'), e')) :
    row'.model = m ∧ row'.isNew = row.isNew ∧ row'.get? pk = row.get? pk := by
  have keeps : RowUpholds
      (fun here => here.model = m ∧ here.isNew = row.isNew ∧ here.get? pk = row.get? pk)
      (fun e : Engine => e.registry = r) (writeAll r options m draft mode own includes) :=
    (upkeep_registry r).writeAll _ _ _ _ _ fun i asked _ _ _ linked =>
      rowUpholds_keyed m _ _ i.label linked fun a target association registered =>
        spare _ _ _ _ (.here asked association registered) association
  exact (keeps.after ⟨⟨model, rfl, rfl⟩, registry⟩ done).1

end Cascade

namespace Repository

variable {repo : Repository} {e e' : Engine} {includes : List Include} {pk : String} {key : Value}
variable {options : PersistOptions} {draft : Draft} {mode : WriteMode} {row row' : Row}

theorem Serves.primaryKey (serves : repo.Serves e pk) : Loading.primaryKey repo.model = .ok pk := by
  rw [Loading.primaryKey, serves.keyed]
  rfl

/-- A walk that succeeds leaves the row as its table has it, and with its key. -/
theorem persist_current (serves : repo.Serves e pk) (model : row.model = repo.model)
    (old : row.isNew = false) (some_includes : includes ≠ [])
    (spare : Include.Spare repo.registry repo.model includes repo.model.name pk)
    (walked : Cascade.persist repo.registry options repo.model draft mode includes row e =
      ((.ok (), row'), e')) :
    repo.Current e' includes row' ∧ ∃ w v, Value.present? (row.get? pk) = some w ∧
      row'.get? pk = some v ∧ v.same w = true := by
  obtain ⟨pk', row₁, e₁, _, walk, reread⟩ := Cascade.enclose_ok some_includes walked
  obtain ⟨model, new, own⟩ := Cascade.keyed_of_writeAll model serves.registry spare walk
  obtain ⟨data, filed, live, ⟨_, w, keyed, present, holds⟩, loaded, rfl, rfl⟩ :=
    Linking.reload_ok reread
  rw [model] at live keyed
  rw [Request.Reload.includeList_ofIncludes, model] at loaded
  obtain rfl := Except.ok.inj (keyed.symm.trans serves.primaryKey)
  obtain ⟨v, found, _, among, same⟩ := holdsAny_eq_true_iff.mp holds
  rw [List.mem_singleton.mp among] at same
  refine ⟨⟨model, new.trans old, live, ?_⟩, w, v, own ▸ present, found, same⟩
  cases filed with
  | some filed => exact loaded
  | none => exact absurd loaded (Loading.related_ne_none _ _)

/-- What is to be walked from is a row that was just stored. -/
structure Stored (repo : Repository) (e : Engine) (row : Row) : Prop where
  sound : Cascade.Sound repo.registry e
  whole : row = { model := repo.model, data := row.data }
  ordered : row.data.Ascending

theorem Stored.fits (stored : repo.Stored e row) {draft : Draft}
    (fits : draft.Fits repo.registry repo.model) (mode : WriteMode) (includes : List Include) :
    Cascade.Site.Fits repo.registry ⟨repo.model, draft, mode, includes, row, e⟩ where
  sound := stored.sound
  model := by rw [stored.whole]
  ordered := stored.ordered
  draft := fits

/-- Writing the related rows of a stored row gives the key that only one row has to no other. -/
theorem soleKey_cascade {q : Query} {left : Except Failure Row × Engine}
    (serves : repo.Serves e pk) (named : repo.registry.Named) (stored : repo.Stored e row)
    (fits : draft.Fits repo.registry repo.model)
    (spare : Include.Spare repo.registry repo.model q.descriptor.includes repo.model.name pk)
    (run : repo.cascade q draft mode options row e = left)
    (sole : SoleKey pk key ((e.database.openTable repo.model.name).rows.map (·.data))) :
    SoleKey pk key ((left.2.database.openTable repo.model.name).rows.map (·.data)) := by
  rw [← run, cascade]
  split
  · exact Cascade.Site.soleKey_walk (stored.fits fits mode q.descriptor.includes) named
      serves.registered serves.primaryKey spare sole
  · exact sole

/-- A stored row is as its table has it when its related rows have been written. -/
theorem current_of_cascade {q : Query} (serves : repo.Serves e pk)
    (associate : options.associate = true) (stored : repo.Stored e row)
    (spare : Include.Spare repo.registry repo.model q.descriptor.includes repo.model.name pk)
    (live : q.descriptor.includes = [] →
      row.data ∈ (e.database.openTable repo.model.name).liveRecords)
    (done : repo.cascade q draft mode options row e = (.ok row', e'))
    (known : row'.get? pk = some key) (nonnull : key ≠ .null) :
    repo.Current e' q.descriptor.includes row' ∧
      ∃ w, Value.present? (row.get? pk) = some w ∧ key.same w = true := by
  rw [cascade, if_pos associate] at done
  have walked := Run.onRow_ok_iff.mp done
  by_cases none : q.descriptor.includes = []
  · have there := live none
    rw [none] at walked ⊢
    cases walked
    refine ⟨?_, key, Value.present?_eq_some_iff.mpr ⟨known, nonnull⟩, Value.same_self key⟩
    rw [stored.whole]
    exact ⟨rfl, rfl, there, rfl⟩
  · obtain ⟨current, w, v, present, found, same⟩ :=
      persist_current serves (by rw [stored.whole]) (by rw [stored.whole]) none spare walked
    obtain rfl := Option.some.inj (known.symm.trans found)
    exact ⟨current, w, present, same⟩

/-- Creating a row with its related rows is read back: it answers the row that is found on
the store it leaves by the key of that row, along the same includes, provided that the name
of the key is not reserved, that rows which are supplied whole are rows of the targets, and that
no row is connected through the column of the key. -/
theorem create_findById {q : Query} (serves : repo.Serves e pk) (named : repo.registry.Named)
    (ordered : e.Ordered) (fits : draft.Fits repo.registry repo.model)
    (associate : options.associate = true)
    (optional : ∀ i ∈ q.descriptor.includes, i.edge.required = false)
    (spare : Include.Spare repo.registry repo.model q.descriptor.includes repo.model.name pk)
    (created : repo.create q draft options e = (.ok row, e'))
    (known : row.get? pk = some key) (scalar : key.IsScalar)
    (unreserved : Filter.isReserved pk = false) :
    repo.findById (repo.everything q.descriptor.includes) key e' = (.ok (some row), e') := by
  obtain ⟨first, e₁, stored, walked⟩ := Action.bind_ok created
  have stored := Run.ofAction_ok_iff.mp stored
  have sound := Cascade.Sound.create ⟨serves.registry, ordered⟩ repo.model draft.fields
    options.toWrite
  rw [show Engine.create _ _ _ e = _ from stored] at sound
  have serves₁ : repo.Serves e₁ pk := ⟨sound.1, serves.registered, serves.keyed⟩
  obtain ⟨whole, ascending, live, unique⟩ :=
    Engine.create_ok (serves.registry ▸ serves.registered) stored
  have isStored : repo.Stored e₁ first := ⟨sound, whole, ascending⟩
  obtain ⟨current, w, present, same⟩ := current_of_cascade serves₁ associate isStored spare
    (fun _ => live) walked known scalar.nonnull
  have serves' : repo.Serves e' pk := by
    refine ⟨?_, serves.registered, serves.keyed⟩
    exact ((Cascade.upkeep_registry _).cascade repo q draft .create first).after sound.1 walked
  refine current.findById serves' unreserved optional known scalar (w := w) ⟨⟨key, known, same⟩, ?_⟩
  rw [current.model]
  exact soleKey_cascade serves₁ named isStored fits spare walked
    (unique pk w serves.primaryKey present)

section Examples

open Linking (author book library)

/-- Access to the authors of a library. -/
def onAuthors : Repository :=
  { registry := library, model := author }

/-- An author with two books, as stored. -/
def authorOfTwo : Row :=
  { model := author
    data := [("id", .ofInt 1)]
    related := [("books", .many
      [{ model := book, data := [("authorId", .ofInt 1), ("id", .ofInt 1)] },
        { model := book, data := [("authorId", .ofInt 1), ("id", .ofInt 2)] }])] }

/-- All authors with their books. -/
def authorsWithBooks : Query :=
  onAuthors.everything [.plain { target := "Book", label := "books" }]

/-- Creating an author with two new books in an empty library. -/
def createAuthorOfTwo : Except Failure Row × Engine :=
  onAuthors.create authorsWithBooks
    { associations := [("books", .many [.record [], .record []])] } {} (Engine.ofRegistry library)

theorem named_library : library.Named :=
  (Registry.named_nil.register (m := author) rfl).register (m := book) rfl

/-- Books hold the keys of their authors beside their own ones, and authors are not written. -/
theorem spare_authors :
    Include.Spare library author authorsWithBooks.descriptor.includes "Author" "id" := by
  intro source label target a leads association anchor
  cases leads with
  | here asked found registered =>
      obtain rfl := List.mem_singleton.mp asked
      obtain rfl := Option.some.inj (found.symm.trans association)
      cases found
      cases registered
      exact absurd anchor (by decide)
  | down asked _ _ rest =>
      obtain rfl := List.mem_singleton.mp asked
      exact absurd rest Include.not_leadsTo_nil

/-- What is supplied under one label, with no whole row, fits. -/
theorem fits_of_single {r : Registry} {m : Model} {label : String} {supplied : Linked Item}
    (without : ∀ row, Item.row row ∉ supplied.toList) :
    ({ associations := [(label, supplied)] } : Draft).Fits r m := by
  intro other _ _ items _ _ given row member
  rw [Dict.get?] at given
  split at given
  · cases given
    exact absurd member (without row)
  · cases given

/-- The author is found with the books. -/
theorem create_findById_books :
    createAuthorOfTwo.1 = .ok authorOfTwo ∧
      onAuthors.findById authorsWithBooks (.ofInt 1) createAuthorOfTwo.2 =
        (.ok (some authorOfTwo), createAuthorOfTwo.2) := by
  have answer : createAuthorOfTwo.1 = .ok authorOfTwo := rfl
  have created : createAuthorOfTwo = (.ok authorOfTwo, createAuthorOfTwo.2) :=
    Prod.ext answer rfl
  have serves : onAuthors.Serves (Engine.ofRegistry library) "id" := ⟨rfl, rfl, rfl⟩
  have optional : ∀ i ∈ authorsWithBooks.descriptor.includes, i.edge.required = false :=
    List.forall_mem_singleton.mpr rfl
  have known : authorOfTwo.get? "id" = some (.ofInt 1) := rfl
  have found := create_findById (q := authorsWithBooks) serves named_library
    (Engine.ordered_ofRegistry library) (fits_of_single (by simp [Linked.toList])) rfl optional
    spare_authors created known trivial (by decide)
  exact ⟨answer, found⟩

/-- A model whose key has a reserved name. -/
def guest : Model :=
  { name := "User", attributes := [.identity "$id", { name := "name", allowNull := true }] }

def onGuests : Repository :=
  { registry := [("User", guest)], model := guest }

/-- Items have a box and a lid. -/
def item : Model :=
  { name := "Item"
    attributes := [.identity "id", { name := "boxId", dataType := .integer, allowNull := true }]
    associations :=
      [{ key := "box", kind := .belongsTo, target := "Box", foreignKey := some "boxId" },
        { key := "lid", kind := .hasOne, target := "Lid", foreignKey := some "itemId" }] }

def box : Model :=
  { name := "Box", attributes := [.identity "id", { name := "name" }] }

/-- The items that share a lid are connected with it by their own keys. -/
def lid : Model :=
  { name := "Lid"
    attributes := [.identity "id", { name := "itemId", dataType := .integer, allowNull := true }]
    associations :=
      [{ key := "sharing", kind := .hasMany, target := "Item", foreignKey := some "id" }] }

def onItems : Repository :=
  { registry := [("Box", box), ("Item", item), ("Lid", lid)], model := item }

/-- A box, an item outside of it, and a lid. -/
def stocked : Engine :=
  Command.run [.create box [("name", .str "x")] {}, .create item [] {}, .create lid [] {}]
    (Engine.ofRegistry onItems.registry)

/-- Items with the other items of their lid, and with their box if it passes a filter that
cannot be evaluated past the name of the box. -/
def withLidAndBox : Query :=
  onItems.everything
    [.nested { target := "Lid", label := "lid" } { model := "Lid" }
        [.plain { target := "Item", label := "sharing" }],
      .nested { target := "Box", label := "box" }
        { model := "Box"
          conditions := [⟨[("name", .str "x"), ("tags", .obj [("$overlap", .arr [.ofInt 1])])]⟩] }
        []]

/-- An item in another box, of a model of the same name that has no key attributes. -/
def copiedItem : Row where
  model := { item with
    attributes :=
      [{ name := "id", dataType := .integer }, { name := "boxId", dataType := .integer }] }
  data := [("boxId", .ofInt 1), ("id", .ofInt 2)]
  isNew := true

/-- A row whose key has a reserved name is created, but not found by its key. So is a row
whose new lid is connected with the row and with another one: connecting gives both the key
of the lid, the row that is read again is the other one, and the row in the box is the second
one of that key. And so is a row that gets a row of no known model in place of a lid, which is
stored in the table of the row, with its key and in the box. -/
theorem create_findById_differs :
    (let q := onGuests.everything []
      let run := onGuests.create q { fields := [("name", .str "ada")] } {}
        (Engine.ofRegistry onGuests.registry)
      run.1.map (·.data) = .ok [("$id", .ofInt 1), ("name", .str "ada")] ∧
        (onGuests.findById q (.ofInt 1) run.2).1 =
          .error (.storage (.unsupported (.joinedKey "$id")))) ∧
    (let draft : Draft :=
        { fields := [("boxId", .ofInt 1)]
          associations :=
            [("lid", .one (.record [("sharing", .arr [.ofInt 1, .ofInt 2])]))] }
      let run := onItems.create withLidAndBox draft {} stocked
      run.1.map (·.data) = .ok [("boxId", .null), ("id", .ofInt 2)] ∧
        (onItems.findById withLidAndBox (.ofInt 2) run.2).1 =
          .error (.storage (.unsupported (.operator .overlap)))) ∧
    (let draft : Draft := { associations := [("lid", .one (.row copiedItem))] }
      let run := onItems.create withLidAndBox draft {} stocked
      run.1.map (·.data) = .ok [("boxId", .null), ("id", .ofInt 2)] ∧
        (onItems.findById withLidAndBox (.ofInt 2) run.2).1 =
          .error (.storage (.unsupported (.operator .overlap)))) :=
  ⟨⟨rfl, rfl⟩, ⟨rfl, rfl⟩, rfl, rfl⟩

end Examples

end Repository

end RecordGraph
