import RecordGraph.Proofs.Filter.Literals
import RecordGraph.Proofs.Store.Selecting
import RecordGraph.Proofs.Write.Saving

/-!
# Rows that are addressed by a key

To read or to save the row with a key, a query is restricted by an entry that has the key as it
was given under the name of the primary key. A key that is a literal is then compared with the
keys of the rows, null and documents included. Anything else is not: an operator map is carried
out, a reference is read, and the rows that are found and written are those that it leads to.
-/

namespace RecordGraph

open RecordGraph.Filter
open Renaming (isJunction)

/-- A record has a value under a key, where nothing counts as null. -/
def Record.Holds (record : Record) (key : String) (value : Value) : Prop :=
  ((record.get? key).getD .null).same value = true

/-- Of the rows of a table, those without a key are where they were, and so are all other
tables. -/
structure Database.Spares (d d' : Database) (name pk : String) (key : Value) : Prop where
  rows : ∀ (i : Nat) (row : StoredRow), (d.openTable name).rows[i]? = some row →
    ¬ row.data.Holds pk key → (d'.openTable name).rows[i]? = some row
  elsewhere : ∀ other, other ≠ name → d'.openTable other = d.openTable other

variable {pk : String} {key : Value} {record : Record}

/-! ### What the restricted query accepts -/

/-- A condition of one entry that was added to others has to hold as well, unless the entry is an
operator map. -/
theorem Condition.holds_of_accepts_all_concat {conditions : List Condition} {v : Value}
    (notOperators : isOperatorMap v = false)
    (accepted : accepts (Condition.all (conditions ++ [⟨[(pk, v)]⟩])).fields record = .ok true) :
    matchesEntry record pk v = .ok true := by
  have single : comparisons? v = none := by
    cases v with
    | obj fields =>
        have notReserved : allReserved fields = false := notOperators
        simp [comparisons?, notReserved]
    | _ => rfl
  have meet : pk ≠ andKey → ∀ existing, (Condition.all conditions).fields.get? pk = some existing →
      MayMeet pk existing v := by
    intro _ existing _ current ops _ incoming
    rw [single] at incoming
    cases incoming
  have folded : matchesAll record (conjoinEntry (Condition.all conditions).fields (pk, v)) =
        .ok true ↔ matchesAll record (Condition.all conditions).fields = .ok true ∧
          matchesEntry record pk v = .ok true :=
    conjoinEntry_eq_true_iff (ascending_all conditions) meet
  rw [Condition.all_concat] at accepted
  exact (folded.mp accepted).2

/-- What a query restricted to a literal accepts has this value. -/
theorem Query.holds_of_accepts {q : Query} (single : isJunction pk = false)
    (literal : isLiteral key = true)
    (accepted : accepts (q.filter (.build pk .eq key)).descriptor.selection.filter record =
      .ok true) : record.Holds pk key := by
  have renamed : Renaming.filter q.registry q.model (Condition.build pk .eq key).fields =
      [(Renaming.key q.registry q.model pk, key)] := by
    refine (Renaming.filter_single (pk, key)).trans ?_
    simp [Renaming.entry, single]
  rw [Selection.filter, Query.filter, renamed] at accepted
  have holds := Condition.holds_of_accepts_all_concat (isLiteral_iff.mp literal).2 accepted
  -- a name that is reserved still is when it is renamed, and then nothing holds under it
  cases reserved : isReserved pk with
  | true =>
      have joins := Renaming.isJunction_key (r := q.registry) (m := q.model) single
      simp only [isJunction, Bool.or_eq_false_iff, beq_eq_false_iff_ne] at joins
      exact absurd holds (Condition.matchesEntry_ne_true_of_reserved
        (Renaming.isReserved_key reserved) joins.1 joins.2 key)
  | false =>
      rw [Renaming.key_unreserved reserved, comparesLiteral_of_isLiteral reserved literal] at holds
      exact (isEqual_eq_same ..).symm.trans (Except.ok.inj holds)

/-! ### Finding -/

namespace Repository

variable {repo : Repository} {q : Query} {draft : Draft} {options : PersistOptions}
variable {e e' : Engine} {row : Row}

/-- Reading the rows of a request leaves the engine as it is. Each of them is made of a record
that the filter accepts. -/
theorem findAll_picked {m : Model} {request : Request.Find} {rows : List Row}
    (done : Engine.findAll m request e = (.ok rows, e')) :
    e' = e ∧ ∀ row ∈ rows, ∃ record, accepts request.filter record = .ok true ∧
      Result.project record request.attributes = .ok row.data := by
  rw [Engine.findAll_run] at done
  obtain ⟨selected, rfl⟩ := Prod.ext_iff.mp done
  obtain ⟨registered, -, selected⟩ := bind_eq_ok_iff.mp selected
  refine ⟨rfl, fun row member => ?_⟩
  obtain ⟨record, -, picked⟩ := Loading.exists_of_mem_select selected member
  exact ⟨record, picked.accepted, picked.shaped⟩

/-- The row that is found by a literal has this value as its key, unless the query does not ask
for whole rows. -/
theorem findById_holds (keyed : repo.model.primaryKey = .ok pk) (single : isJunction pk = false)
    (literal : isLiteral key = true) (whole : q.descriptor.selection.attributes = [])
    (found : repo.findById q key e = (.ok (some row), e')) : row.data.Holds pk key := by
  rw [findById, byPrimaryKey_eq keyed, Run.lift_bind_run, findOne] at found
  obtain ⟨request, asked, found⟩ := Run.lift_bind_ok found
  obtain ⟨order, -, asked⟩ := bind_eq_ok_iff.mp asked
  cases asked
  obtain ⟨rows, e₁, read, answered⟩ := Action.bind_ok (Run.ofAction_ok_iff.mp found)
  have first : rows.head? = some row := Except.ok.inj (Prod.ext_iff.mp answered).1
  obtain ⟨record, accepted, shaped⟩ := (findAll_picked read).2 row (List.mem_of_mem_head? first)
  have unshaped : (q.filter (.build pk .eq key)).descriptor.selection.projection? = none := by
    simp [Selection.projection?, Query.filter, Descriptor.addCondition, whole,
      Selection.nonEmpty?]
  rw [unshaped] at shaped
  cases shaped
  exact Query.holds_of_accepts single literal accepted

end Repository

/-! ### Saving -/

namespace Database

variable {d : Database} {name : String} {t : Table}

theorem spares_refl : d.Spares d name pk key :=
  ⟨fun _ _ found _ => found, fun _ _ => rfl⟩

theorem spares_setTable (kept : ∀ (i : Nat) (row : StoredRow),
    (d.openTable name).rows[i]? = some row → ¬ row.data.Holds pk key → t.rows[i]? = some row) :
    d.Spares (d.setTable name t) name pk key := by
  refine ⟨fun i row found other => ?_, fun _ ne => openTable_setTable_of_ne _ _ ne⟩
  rw [openTable_setTable_self]
  exact kept i row found other

end Database

/-- An update writes only into rows that its filter accepts. -/
theorem Engine.update_spares {m : Model} {values : Record} {request : Request.Update} {e : Engine}
    (addressed : ∀ record, accepts request.filter record = .ok true → record.Holds pk key) :
    e.database.Spares (Engine.update m values request e).2.database m.name pk key := by
  cases run : Engine.update m values request e with
  | mk result e' =>
      cases result with
      | error err =>
          rw [Engine.onTable_error run]
          exact Database.spares_setTable fun _ _ found _ => found
      | ok n =>
          obtain ⟨places, t, matched, updated, -, rfl⟩ := Engine.update_ok run
          obtain rfl := Table.matching_ok matched
          obtain rfl := Table.updateMany_ok updated
          refine Database.spares_setTable fun i row found other => ?_
          rw [← found]
          refine Table.getElem?_modifyAll_of_not_mem fun chosen => other ?_
          obtain ⟨row', place, meets⟩ := Table.exists_of_mem_chosen chosen
          obtain rfl := Option.some.inj (found.symm.trans place)
          exact addressed _ (StoredRow.meets_eq_true_iff.mp meets).2

/-- A new row is put behind those that there are. -/
theorem Engine.create_spares {m : Model} {data : Record} {request : Request.Write} {e : Engine} :
    e.database.Spares (Engine.create m data request e).2.database m.name pk key := by
  rw [Engine.create, Action.bind_leaves fun _ _ => Engine.handOut_leaves ..]
  cases stored : Engine.onTable m.name (·.insert m request.validate data) e with
  | mk result e' =>
      cases result with
      | error err =>
          rw [Engine.onTable_error stored]
          exact Database.spares_setTable fun _ _ found _ => found
      | ok record =>
          obtain ⟨t, inserted, rfl⟩ := Engine.onTable_ok_iff.mp stored
          obtain ⟨-, -, appended⟩ := Table.insert_ok inserted
          refine Database.spares_setTable fun i row found _ => ?_
          rw [appended]
          obtain ⟨inside, -⟩ := List.getElem?_eq_some_iff.mp found
          exact (List.getElem?_append_left inside).trans found

namespace Repository

variable {repo : Repository} {q : Query} {draft : Draft} {options : PersistOptions}
variable {e e' : Engine} {row : Row} {mode : WriteMode}

/-- A write is confined to a key: it first leaves all rows without the key as they are, and then
writes the related rows of some rows with this key. -/
def Confined (repo : Repository) (q : Query) (draft : Draft) (mode : WriteMode)
    (options : PersistOptions) (pk : String) (key : Value) (e e' : Engine) : Prop :=
  ∃ (written : Engine) (rows : List Row),
    e.database.Spares written.database repo.model.name pk key ∧
    (key ≠ .null → ∀ row ∈ rows, row.data.Holds pk key) ∧
    e'.database = (rows.mapM (repo.cascade q draft mode options) written).2.database

theorem confined_of_spares (spares : e.database.Spares e'.database repo.model.name pk key) :
    repo.Confined q draft mode options pk key e e' :=
  ⟨e', [], spares, fun _ => List.forall_mem_nil _, rfl⟩

/-- An operation that leaves all rows without a key as they are, and then what follows it, are
confined to this key if what follows its success is. -/
theorem confined_of_ask {α β : Type} {action : Action Engine α} {rest : α → Run Engine β}
    (spares : e.database.Spares (action e').2.database repo.model.name pk key)
    (goes : ∀ a after, action e' = (.ok a, after) →
      e.database.Spares after.database repo.model.name pk key →
      repo.Confined q draft mode options pk key e (rest a after).2) :
    repo.Confined q draft mode options pk key e ((repo.ask action >>= rest) e').2 := by
  rw [ask_bind_run]
  cases run : action e' with
  | mk result after =>
      rw [run] at spares
      cases result with
      | error err => exact confined_of_spares spares
      | ok a => exact goes a after run spares

/-- Where the query accepts only records with a key, the second half of an update is about rows
with this key. -/
theorem reread_confined
    (addressed : ∀ record, accepts q.descriptor.selection.filter record = .ok true →
      record.Holds pk key)
    (spares : e.database.Spares e'.database repo.model.name pk key) :
    repo.Confined q draft .update options pk key e
      ((do
        let rows ← repo.ask (Backend.findAll repo.model (rereading q options))
        rows.mapM (repo.cascade q draft .update options) : Run Engine (List Row)) e').2 := by
  have unchanged : (Engine.findAll repo.model (rereading q options) e').2 = e' :=
    congrArg Prod.snd (Engine.findAll_run ..)
  refine confined_of_ask (unchanged.symm ▸ spares) fun rows after read _ => ?_
  obtain ⟨rfl, picked⟩ := findAll_picked read
  refine ⟨_, rows, spares, fun _ row member => ?_, rfl⟩
  obtain ⟨record, accepted, shaped⟩ := picked row member
  obtain rfl : record = row.data := Except.ok.inj shaped
  exact addressed _ accepted

/-- Then the whole update is confined to this key, whether it succeeds or fails. -/
theorem updateRows_confined
    (addressed : ∀ record, accepts q.descriptor.selection.filter record = .ok true →
      record.Holds pk key) :
    repo.Confined q draft .update options pk key e (repo.updateRows q draft options e).2 := by
  unfold updateRows
  dsimp only
  split
  · have spares : e.database.Spares
        (Engine.update repo.model draft.fields (writing q options) e).2.database repo.model.name pk
        key := Engine.update_spares addressed
    exact confined_of_ask spares fun _ _ _ => reread_confined addressed
  · exact reread_confined addressed Database.spares_refl

theorem update_confined
    (addressed : ∀ record, accepts q.descriptor.selection.filter record = .ok true →
      record.Holds pk key) :
    repo.Confined q draft .update options pk key e (repo.update q draft options e).2 := by
  have direct : repo.Confined q draft .update options pk key e
      (repo.updateRows q draft options e).2 := updateRows_confined addressed
  by_cases attached : repo.updateMode = .detached ∨ options.transaction.isSome = true
  · rwa [update, if_pos attached]
  · obtain ⟨transactional, free⟩ := not_or.mp attached
    have transactional : repo.updateMode = .transactional := by
      cases mode : repo.updateMode with
      | detached => exact absurd mode transactional
      | transactional => rfl
    rw [update_run transactional (by simpa using free)]
    generalize repo.updateRows q draft options e = run at direct
    obtain ⟨result, after⟩ := run
    cases result with
    | error failure => exact confined_of_spares Database.spares_refl
    | ok rows => exact direct

/-- Creating a row writes into no row that there is. -/
theorem create_confined :
    repo.Confined q draft .create options pk .null e (repo.create q draft options e).2 := by
  have spares : e.database.Spares
      (Engine.create repo.model draft.fields options.toWrite e).2.database repo.model.name pk
      .null := Engine.create_spares
  rw [create]
  refine confined_of_ask spares fun row after _ spares => ?_
  refine ⟨after, [row], spares, fun nonnull => absurd rfl nonnull, ?_⟩
  rw [List.mapM_cons, Action.bind_leaves fun _ _ => rfl]

/-- Saving values with a literal as their key is confined to this key. -/
theorem save_confined (keyed : repo.model.primaryKey = .ok pk) (single : isJunction pk = false)
    (literal : isLiteral key = true) (given : draft.fields.get? pk = some key) :
    ∃ mode, repo.Confined q draft mode options pk key e (repo.save q draft options e).2 := by
  by_cases null : key = .null
  · have primary : Cascade.primaryKey repo.model = .ok pk := by
      rw [Cascade.primaryKey, keyed]
      rfl
    have absent : Value.present? (draft.fields.get? pk) = none := by
      rw [given, null]
      rfl
    subst null
    refine ⟨.create, ?_⟩
    rw [save, primary, Run.lift_bind_run]
    simp only [absent]
    rw [Action.bind_leaves fun _ _ => rfl]
    exact create_confined
  · refine ⟨.update, ?_⟩
    rw [save_keyed keyed (Value.present?_eq_some_iff.mpr ⟨given, null⟩),
      Action.bind_leaves fun _ _ => rfl]
    -- restricting the query leaves its includes alone, and these are all that is walked
    exact update_confined (q := q.filter (.build pk .eq key)) fun _ =>
      Query.holds_of_accepts single literal

/-- Without related rows to write, a write that is confined to a key leaves all other rows as they
are. -/
theorem Confined.spares (plain : options.associate = false ∨ q.descriptor.includes = [])
    (confined : repo.Confined q draft mode options pk key e e') :
    e.database.Spares e'.database repo.model.name pk key := by
  obtain ⟨written, rows, spares, -, after⟩ := confined
  have nothing : (rows.mapM (repo.cascade q draft mode options) written).2 = written := by
    rw [cascade_plain plain]
    exact Action.mapM_leaves (fun _ _ => rfl) rows written
  rwa [after, nothing]

/-- A literal addresses rows with this very key only, null and documents included. Whatever the
scope of the query, a whole row that is found by it has it as its key; and saving values that have
it as their key leaves all rows without it as they are, but for the related rows that are written
along with some rows that have it. -/
theorem addressed_by_literal (keyed : repo.model.primaryKey = .ok pk)
    (single : isJunction pk = false) (literal : isLiteral key = true) (e : Engine) :
    (∀ q row e', q.descriptor.selection.attributes = [] →
      repo.findById q key e = (.ok (some row), e') → row.data.Holds pk key) ∧
    ∀ q draft options, draft.fields.get? pk = some key →
      (∃ mode, repo.Confined q draft mode options pk key e (repo.save q draft options e).2) ∧
      ((options.associate = false ∨ q.descriptor.includes = []) →
        e.database.Spares (repo.save q draft options e).2.database repo.model.name pk key) := by
  constructor
  · exact fun q row e' whole found => findById_holds keyed single literal whole found
  · intro q draft options given
    obtain ⟨mode, confined⟩ : ∃ mode,
        repo.Confined q draft mode options pk key e (repo.save q draft options e).2 :=
      save_confined keyed single literal given
    exact ⟨⟨mode, confined⟩, fun plain => confined.spares plain⟩

section Parcels

/-- A parcel with the place where it lies as its key. -/
def parcel : Model :=
  { name := "Parcel"
    attributes := [{ name := "place", dataType := .json, primaryKey := true }, { name := "for" }] }

/-- A place in a box. -/
def inBox (box : Int) : Value :=
  .obj [("box", .ofInt box)]

/-- Two parcels, each in a box. -/
def parcels : Engine :=
  Command.run
    [.bulkCreate parcel
      [[("for", .str "ann"), ("place", inBox 1)], [("for", .str "bob"), ("place", inBox 2)]] {}]
    (Engine.ofRegistry [("Parcel", parcel)])

/-- Access to the parcels. -/
def onParcels : Repository :=
  { registry := [("Parcel", parcel)], model := parcel }

/-- The second parcel as it was stored. -/
def forBob : Row :=
  { model := parcel, data := [("for", .str "bob"), ("place", inBox 2)] }

/-- The parcel in the second box is found by its place, and when it gets another addressee the
first parcel is left as it is. -/
theorem addressed_by_literal_parcel :
    let draft : Draft := { fields := [("for", .str "eve"), ("place", inBox 2)] }
    (onParcels.findById (onParcels.everything []) (inBox 2) parcels).1 = .ok (some forBob) ∧
      forBob.data.Holds "place" (inBox 2) ∧
      parcels.database.Spares
        (onParcels.save (onParcels.everything []) draft {} parcels).2.database "Parcel" "place"
        (inBox 2) := by
  have answer : (onParcels.findById (onParcels.everything []) (inBox 2) parcels).1 =
      .ok (some forBob) :=
    congrArg Prod.fst (findById_found [forBob] rfl rfl
      ((Engine.findAll_unsorted rfl rfl rfl rfl rfl).trans rfl))
  have keyed : onParcels.model.primaryKey = .ok "place" := rfl
  have literal : isLiteral (inBox 2) = true := by decide
  obtain ⟨finds, saves⟩ := addressed_by_literal keyed (by decide) literal parcels
  exact ⟨answer, finds _ _ _ rfl (Prod.ext answer rfl), (saves _ _ {} rfl).2 (.inr rfl)⟩

/-- All places but the first box. -/
def outside : Value :=
  .obj [("$ne", inBox 1)]

/-- The parcels of which a key says where they lie. -/
def placed (key : Value) : Query :=
  (onParcels.everything []).filter (.build "place" .eq key)

/-- A place that is an operator map finds a parcel that lies elsewhere, and saving values with it
writes into that parcel, its place included. A place that is a reference finds a parcel, too. -/
theorem addressed_by_operators_elsewhere :
    let elsewhere : Value := .obj [("$ne", inBox 1)]
    let draft : Draft := { fields := [("for", .str "eve"), ("place", elsewhere)] }
    (onParcels.findById (onParcels.everything []) elsewhere parcels).1 = .ok (some forBob) ∧
      ((onParcels.save (onParcels.everything []) draft {} parcels).2.database.openTable
        "Parcel").liveRecords =
          [[("for", .str "ann"), ("place", inBox 1)],
            [("for", .str "eve"), ("place", elsewhere)]] ∧
      (onParcels.findById (onParcels.everything []) (Expr.reference "place") parcels).1.map
        Option.isSome = .ok true := by
  have written : Engine.update parcel [("for", .str "eve"), ("place", outside)]
      (writing (placed outside) {}) parcels = (.ok 1, _) := rfl
  have updated : onParcels.updateRows (placed outside)
      { fields := [("for", .str "eve"), ("place", outside)] } {} parcels =
      (.ok [{ model := parcel, data := [("for", .str "eve"), ("place", outside)] }], _) :=
    (updateRows_found (List.cons_ne_nil _ _) written
      ((Engine.findAll_unsorted rfl rfl rfl rfl rfl).trans rfl)).trans rfl
  have saves : onParcels.save (onParcels.everything [])
      { fields := [("for", .str "eve"), ("place", outside)] } {} =
        (onParcels.updateRows (placed outside)
          { fields := [("for", .str "eve"), ("place", outside)] } {} >>= fun rows =>
            pure rows.head? : Run Engine (Option Row)) := save_keyed rfl rfl
  refine ⟨?_, ?_, ?_⟩
  · exact congrArg Prod.fst (findById_found [forBob] rfl rfl
      ((Engine.findAll_unsorted rfl rfl rfl rfl rfl).trans rfl))
  · exact (congrArg (fun run : Except Failure (Option Row) × Engine =>
      (run.2.database.openTable "Parcel").liveRecords)
      ((congrFun saves parcels).trans (Action.bind_run_ok updated))).trans rfl
  · have first : (onParcels.findById (onParcels.everything []) (Expr.reference "place") parcels).1 =
        .ok (some { model := parcel, data := [("for", .str "ann"), ("place", inBox 1)] }) :=
      congrArg Prod.fst (findById_found [_] rfl rfl
        ((Engine.findAll_unsorted rfl rfl rfl rfl rfl).trans rfl))
    rw [first]
    rfl

end Parcels

end Repository

end RecordGraph
