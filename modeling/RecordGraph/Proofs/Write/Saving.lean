import RecordGraph.Proofs.Filter.Folding
import RecordGraph.Proofs.Select.Paths
import RecordGraph.Proofs.Write.ReadBack
import RecordGraph.Proofs.Write.Updating

/-!
# What saving without an answer means

Saving values with a key restricts the query to the key, updates, and answers the first row
that is read afterwards. That no row is answered says that none is in scope any more, not that
none was: the written values may have led it out of the scope of the query. The tables are
unchanged exactly if there was no row with the key in scope to begin with.
-/

namespace RecordGraph

open RecordGraph.Filter
open Renaming (isJunction)

/-! ### Restricting a query to a key -/

namespace Renaming

variable {r : Registry} {m : Model} {k : String}

/-- A key that is reserved is renamed to one that is. -/
theorem isReserved_key (reserved : isReserved k = true) : isReserved (key r m k) = true := by
  rw [key]
  split
  · split
    · simp [isReserved]
    · exact reserved
  · exact reserved

/-- A literal keeps its value when its key is renamed. -/
theorem entry_literal {v : Value} (scalar : v.IsScalar) :
    entry r m (k, v) = ((entry r m (k, v)).1, v) := by
  rw [entry]
  split
  · cases v with
    | arr items => exact scalar.elim
    | obj fields => exact scalar.elim
    | _ => rfl
  · rfl

end Renaming

namespace Condition

variable {v : Value}

theorem ordered_literal (scalar : v.IsScalar) (k : String) : Ordered ⟨[(k, v)]⟩ := by
  refine ⟨Dict.ascending_single k v, List.forall_mem_singleton.mpr ?_⟩
  cases v with
  | obj fields => exact scalar.elim
  | _ => trivial

theorem disjunctionsApart_literal (scalar : v.IsScalar) (k : String) (c : Condition) :
    DisjunctionsApart c ⟨[(k, v)]⟩ := by
  intro _ w _ found
  obtain ⟨-, rfl⟩ := Prod.mk.inj (List.mem_singleton.mp (Dict.mem_of_get? found))
  cases w with
  | obj fields => exact scalar.elim
  | _ => exact .inr rfl

end Condition

variable {r : Registry} {m : Model} {pk : String} {key : Value} {record : Record}

/-- What a literal under a renamed key answers is whether the record holds it. -/
theorem Renaming.holdsAny_of_matchesEntry {b : Bool} (scalar : key.IsScalar)
    (answer : matchesEntry record (entry r m (pk, key)).1 key = .ok b) :
    Linking.holdsAny record pk [key] = b := by
  cases reserved : isReserved pk with
  | false =>
      have notJunction : isJunction pk = false := by
        have notAnd : pk ≠ andKey := fun same => by simp [same, isReserved_andKey] at reserved
        have notOr : pk ≠ orKey := fun same => by simp [same, isReserved_orKey] at reserved
        simp [isJunction, notAnd, notOr]
      have literal := accepts_literal reserved scalar record
      rw [accepts, matchesAll_single] at literal
      simp only [entry, notJunction, Bool.false_eq_true, if_false,
        key_unreserved reserved] at answer
      exact Except.ok.inj (literal.symm.trans answer)
  | true =>
      have renamed : isReserved (entry r m (pk, key)).1 = true := by
        rw [entry]
        split
        · exact reserved
        · exact isReserved_key reserved
      exact absurd answer (matchesEntry_reserved_literal renamed scalar)

namespace Query

variable {q : Query}

/-- A record has a key and is in the scope of a query. -/
structure Covers (q : Query) (pk : String) (key : Value) (record : Record) : Prop where
  keyed : Linking.holdsAny record pk [key] = true
  accepted : accepts q.descriptor.selection.filter record = .ok true

/-- No live row of a table has a key and is in the scope of a query. -/
def Misses (q : Query) (pk : String) (key : Value) (t : Table) : Prop :=
  ∀ record ∈ t.liveRecords, ¬ q.Covers pk key record

/-- Writing the declared values of a record into the live rows with a key in the scope of a query
would change nothing under the columns that the filter mentions. -/
def Steady (q : Query) (pk : String) (key : Value) (m : Model) (data : Record) (t : Table) :
    Prop :=
  ∀ record ∈ t.liveRecords, q.Covers pk key record →
    ∀ name, Mentions name q.descriptor.selection.filter →
      ∀ v, (Table.declared m data).get? name = some v → record.get? name = some v

/-- Restricting a query to a key adds a literal under the renamed name of the key. -/
theorem conditions_filter_literal (scalar : key.IsScalar) :
    (q.filter (.build pk .eq key)).descriptor.selection.conditions =
      q.descriptor.selection.conditions ++
        [⟨[((Renaming.entry q.registry q.model (pk, key)).1, key)]⟩] := by
  have renamed : Renaming.filter q.registry q.model (Condition.build pk .eq key).fields =
      [((Renaming.entry q.registry q.model (pk, key)).1, key)] := by
    rw [← Renaming.entry_literal scalar]
    exact Renaming.filter_single _
  rw [← renamed]
  rfl

/-- What the restricted query accepts has the key and is in scope. -/
theorem covers_of_accepts (ordered : ∀ c ∈ q.descriptor.selection.conditions, c.Ordered)
    (scalar : key.IsScalar)
    (accepted : accepts (q.filter (.build pk .eq key)).descriptor.selection.filter record =
      .ok true) : q.Covers pk key record := by
  rw [Selection.filter, conditions_filter_literal scalar,
    Condition.accepts_all_concat_iff ordered (Condition.ordered_literal scalar _)
      (Condition.disjunctionsApart_literal scalar _ _)] at accepted
  obtain ⟨inScope, literal⟩ := accepted
  rw [accepts, matchesAll_single] at literal
  exact ⟨Renaming.holdsAny_of_matchesEntry scalar literal, inScope⟩

/-- What the restricted query refuses does not have the key or is out of scope. -/
theorem not_covers_of_refused (scalar : key.IsScalar)
    (refused : accepts (q.filter (.build pk .eq key)).descriptor.selection.filter record =
      .ok false) : ¬ q.Covers pk key record := by
  rintro ⟨keyed, inScope⟩
  rw [Selection.filter, conditions_filter_literal scalar] at refused
  have literal :=
    Condition.accepts_all_concat_eq_false scalar.ne_obj scalar.ne_arr inScope refused
  rw [Renaming.holdsAny_of_matchesEntry scalar literal] at keyed
  cases keyed

/-- Where no row with the key is in scope, the restricted query chooses none. -/
theorem Misses.chosen_eq_nil {t : Table} {limit : Option Nat}
    (ordered : ∀ c ∈ q.descriptor.selection.conditions, c.Ordered) (scalar : key.IsScalar)
    (misses : q.Misses pk key t) :
    t.chosen (q.filter (.build pk .eq key)).descriptor.selection.filter limit = [] := by
  refine List.eq_nil_iff_forall_not_mem.mpr fun i member => ?_
  obtain ⟨row, place, meets⟩ := Table.exists_of_mem_chosen member
  obtain ⟨shown, accepted⟩ := StoredRow.meets_eq_true_iff.mp meets
  exact misses row.data
    (Table.mem_liveRecords_iff.mpr ⟨row, List.mem_of_getElem? place, shown, rfl⟩)
    (covers_of_accepts ordered scalar accepted)

/-- Rows that were in scope still are after steady values have been written over them. So if
none is in scope afterwards, none was before. -/
theorem Misses.of_rewritten {data : Record} {places : List Nat} {t t' : Table}
    (steady : q.Steady pk key m data t) (known : data.get? pk = some key)
    (rewritten : t.Rewritten m data places t')
    (misses : q.Misses pk key t') : q.Misses pk key t := by
  intro record live covers
  obtain ⟨row, stored, shown, rfl⟩ := Table.mem_liveRecords_iff.mp live
  obtain ⟨i, place⟩ := List.mem_iff_getElem?.mp stored
  by_cases member : i ∈ places
  · obtain ⟨old, new, before, after, hidden, entries⟩ := rewritten.written i member
    obtain rfl : old = row := Option.some.inj (before.symm.trans place)
    refine misses new.data (Table.mem_liveRecords_iff.mpr
      ⟨new, List.mem_of_getElem? after, hidden.trans shown, rfl⟩) ⟨?_, ?_⟩
    · rw [Linking.holdsAny, entries, Model.get?_declared]
      split
      · simp [known, Value.same_self]
      · exact covers.keyed
    · have agree : AgreeOn (Mentions · q.descriptor.selection.filter) new.data old.data := by
        intro name mentions
        rw [entries]
        cases written : (Table.declared m data).get? name with
        | none => rfl
        | some v => exact (steady _ live covers name mentions v written).symm
      rw [accepts_congr agree]
      exact covers.accepted
  · have kept := (rewritten.others i member).trans place
    exact misses row.data (Table.mem_liveRecords_iff.mpr
      ⟨row, List.mem_of_getElem? kept, shown, rfl⟩) covers

end Query

/-! ### Saving -/

/-- A walk that answers nothing had nothing to go through. -/
theorem Run.mapM_ok_nil {α β σ : Type} {f : α → Run σ β} {items : List α} {s s' : σ}
    (done : items.mapM f s = (.ok [], s')) : items = [] ∧ s' = s := by
  cases items with
  | nil =>
      cases done
      exact ⟨rfl, rfl⟩
  | cons item rest =>
      rw [List.mapM_cons] at done
      obtain ⟨_, _, _, done⟩ := Action.bind_ok done
      obtain ⟨_, _, _, done⟩ := Action.bind_ok done
      cases done

theorem Selection.limit?_ne_zero (s : Selection) : s.limit? ≠ some 0 := by
  rw [limit?, nonZero?]
  split <;> simp_all

namespace Repository

variable {repo : Repository} {q : Query} {draft : Draft} {options : PersistOptions}
variable {e e' : Engine}

theorem byPrimaryKey_eq (keyed : repo.model.primaryKey = .ok pk) :
    repo.byPrimaryKey q key = .ok (q.filter (.build pk .eq key)) := by
  rw [byPrimaryKey, Cascade.primaryKey, keyed]
  rfl

/-- Saving values with a key answers the first row that an update of the query restricted to the
key answers. -/
theorem save_keyed (keyed : repo.model.primaryKey = .ok pk)
    (present : Value.present? (draft.fields.get? pk) = some key) :
    repo.save q draft options =
      (repo.update (q.filter (.build pk .eq key)) draft options >>= fun rows =>
        pure rows.head? : Run Engine (Option Row)) := by
  have primary : Cascade.primaryKey repo.model = .ok pk := by
    rw [Cascade.primaryKey, keyed]
    rfl
  funext e
  rw [save, primary, Run.lift_bind_run]
  simp only [present]
  rw [byPrimaryKey_eq keyed, Run.lift_bind_run]

/-- So it answers nothing only if that update answers no rows. -/
theorem update_of_save_none (keyed : repo.model.primaryKey = .ok pk)
    (known : draft.fields.get? pk = some key) (nonnull : key ≠ .null)
    (done : repo.save q draft options e = (.ok none, e')) :
    repo.update (q.filter (.build pk .eq key)) draft options e = (.ok [], e') := by
  rw [save_keyed keyed (Value.present?_eq_some_iff.mpr ⟨known, nonnull⟩)] at done
  obtain ⟨rows, e₁, updated, answered⟩ := Action.bind_ok done
  obtain ⟨first, rfl⟩ := Prod.mk.inj answered
  rw [updated, List.head?_eq_none_iff.mp (Except.ok.inj first)]

/-- An update that answers no rows has written the rows that its filter chose, and the filter is
false of all rows that are live then. -/
theorem updateMany_of_update_nil (registered : e.registry.get? repo.model.name = some repo.model)
    (given : draft.fields ≠ []) (done : repo.update q draft options e = (.ok [], e')) :
    let before := e.database.openTable repo.model.name
    let places := before.chosen q.descriptor.selection.filter q.descriptor.selection.limit?
    ∃ t, before.updateMany repo.model options.validate places draft.fields = .ok t ∧
      e'.database = (e.setTable repo.model.name t).database ∧
      ∀ record ∈ t.liveRecords, accepts q.descriptor.selection.filter record = .ok false := by
  intro before places
  obtain ⟨written, found, last, wrote, selected, answered, database⟩ := update_ok registered done
  obtain ⟨rfl, rfl⟩ := Run.mapM_ok_nil answered
  obtain ⟨empty, -⟩ | ⟨t, updated, rfl⟩ := wrote
  · exact absurd empty given
  have refused := Loading.refused_of_select_nil rfl rfl (Selection.limit?_ne_zero _) selected
  rw [Engine.setTable, Database.openTable_setTable_self] at refused
  exact ⟨t, updated, database, refused⟩

/-- Where saving values with a key answers nothing, no row with the key is in the scope of the
query afterwards. The tables are as before exactly if none was in scope before either. This is
so where the values that are written are those that the rows in scope have already, under the
columns that the query looks at. -/
theorem save_none_unchanged_iff (registered : e.registry.get? repo.model.name = some repo.model)
    (keyed : repo.model.primaryKey = .ok pk) (known : draft.fields.get? pk = some key)
    (scalar : key.IsScalar) (fields : draft.fields.Ascending)
    (ordered : ∀ c ∈ q.descriptor.selection.conditions, c.Ordered)
    (done : repo.save q draft options e = (.ok none, e')) :
    let before := e.database.openTable repo.model.name
    let after := e'.database.openTable repo.model.name
    q.Misses pk key after ∧
      ((∀ name, e'.database.openTable name = e.database.openTable name) ↔
        q.Misses pk key before) ∧
      (q.Steady pk key repo.model draft.fields before → q.Misses pk key before) := by
  intro before after
  have given : draft.fields ≠ [] := by
    intro empty
    rw [empty] at known
    cases known
  obtain ⟨t, updated, database, refused⟩ := updateMany_of_update_nil registered given
    (update_of_save_none keyed known scalar.nonnull done)
  have written : after = t := by
    rw [show after = e'.database.openTable repo.model.name from rfl, database]
    exact Database.openTable_setTable_self ..
  have left : q.Misses pk key after := fun record live =>
    Query.not_covers_of_refused scalar (refused record (written ▸ live))
  refine ⟨left, ⟨fun same => ?_, fun misses name => ?_⟩, fun steady => ?_⟩
  · rwa [show after = before from same repo.model.name] at left
  · rw [misses.chosen_eq_nil ordered scalar] at updated
    obtain rfl : t = before := Table.updateMany_ok updated
    rw [database]
    by_cases own : name = repo.model.name
    · rw [own]
      exact Database.openTable_setTable_self ..
    · exact Database.openTable_setTable_of_ne _ _ own
  · exact Query.Misses.of_rewritten steady known
      (Table.rewritten_updateMany fields Table.nodup_chosen Table.chosen_inside updated)
      (written ▸ left)

section Heroes

/-- A hero, with the city to guard. -/
def hero : Model :=
  { name := "Hero"
    attributes := [.identity "id", { name := "name" }, { name := "city", allowNull := true }] }

/-- The only hero so far. -/
def heroes : Engine :=
  Command.run [.create hero [("name", .str "bruce")] {}] (Engine.ofRegistry [("Hero", hero)])

/-- Access to the heroes. -/
def league : Repository :=
  { registry := [("Hero", hero)], model := hero, updateMode := .transactional }

/-- The heroes with a name. -/
def named (name : String) : Query where
  registry := league.registry
  model := hero
  descriptor := { selection := { model := "Hero", conditions := [⟨[("name", .str name)]⟩] } }

theorem mentions_named {name column : String}
    (mentions : Mentions column (named name).descriptor.selection.filter) : column = "name" := by
  rcases mentions with ⟨member, -, mentions⟩ | ⟨member, joins, -, -⟩
  · obtain ⟨rfl, rfl⟩ := Prod.mk.inj (List.mem_singleton.mp member)
    cases mentions
    rfl
  · obtain ⟨rfl, -⟩ := Prod.mk.inj (List.mem_singleton.mp member)
    cases joins

theorem ordered_named (name : String) :
    ∀ c ∈ (named name).descriptor.selection.conditions, c.Ordered :=
  List.forall_mem_singleton.mpr
    ⟨Dict.ascending_single _ _, List.forall_mem_singleton.mpr trivial⟩

/-- Saving a hero with its key answers the first of the rows in scope that are found after it. -/
theorem save_heroes {name : String} {fields : Record} {key : Value} {n : Nat} {e : Engine}
    (rows : List Row) (keyed : Value.present? (fields.get? "id") = some key)
    (written : Engine.update hero fields (writing ((named name).filter (.build "id" .eq key)) {})
      heroes = (.ok n, e))
    (found : Engine.findAll hero (rereading ((named name).filter (.build "id" .eq key)) {}) e =
      (.ok rows, e)) :
    league.save (named name) { fields } {} heroes = (.ok rows.head?, heroes.settle e) := by
  have given : fields ≠ [] := by
    rintro rfl
    cases keyed
  have updated : league.update ((named name).filter (.build "id" .eq key)) { fields } {} heroes =
      (.ok rows, heroes.settle e) := by
    rw [update_run rfl rfl, updateRows_found given written found, cascade_plain (.inr rfl),
      List.mapM_pure, List.map_id']
    rfl
  rw [save_keyed rfl keyed]
  exact Action.bind_run_ok updated

/-- The hero has another name, so the city is not written. -/
theorem save_none_unchanged_alfred :
    let run := league.save (named "alfred")
      { fields := [("city", .str "gotham"), ("id", .ofInt 1)] } {} heroes
    run.1 = .ok none ∧
      (named "alfred").Misses "id" (.ofInt 1) (heroes.database.openTable "Hero") ∧
      ∀ name, run.2.database.openTable name = heroes.database.openTable name := by
  have answer : (league.save (named "alfred")
      { fields := [("city", .str "gotham"), ("id", .ofInt 1)] } {} heroes).1 = .ok none :=
    congrArg Prod.fst (save_heroes [] rfl rfl
      ((Engine.findAll_unsorted rfl rfl rfl rfl rfl).trans rfl))
  have registered : heroes.registry.get? league.model.name = some league.model := rfl
  have scalar : (Value.ofInt 1).IsScalar := trivial
  have steady : (named "alfred").Steady "id" (.ofInt 1) league.model
      [("city", .str "gotham"), ("id", .ofInt 1)]
      (heroes.database.openTable league.model.name) := by
    intro record _ _ name mentions v written
    rw [mentions_named mentions] at written
    cases written
  obtain ⟨-, unchanged, misses⟩ := save_none_unchanged_iff registered rfl rfl scalar
    (by decide) (ordered_named "alfred") (Prod.ext answer rfl)
  exact ⟨answer, misses steady, unchanged.mpr (misses steady)⟩

/-- Another name for the first hero. -/
def batman : Draft where
  fields := [("id", .ofInt 1), ("name", .str "batman")]

/-- The hero takes the other name. The row is in scope and it is written, but as it is not in
scope any more, nothing is answered. -/
theorem save_none_renames_bruce :
    let run := league.save (named "bruce") batman {} heroes
    run.1 = .ok none ∧
      ¬ (named "bruce").Misses "id" (.ofInt 1) (heroes.database.openTable "Hero") ∧
      (heroes.database.openTable "Hero").liveRecords =
        [[("city", .null), ("id", .ofInt 1), ("name", .str "bruce")]] ∧
      (run.2.database.openTable "Hero").liveRecords =
        [[("city", .null), ("id", .ofInt 1), ("name", .str "batman")]] := by
  have run : league.save (named "bruce") batman {} heroes = (.ok none, _) :=
    save_heroes [] rfl rfl ((Engine.findAll_unsorted rfl rfl rfl rfl rfl).trans rfl)
  have before : (heroes.database.openTable "Hero").liveRecords =
      [[("city", .null), ("id", .ofInt 1), ("name", .str "bruce")]] := rfl
  have after : ((league.save (named "bruce") batman {} heroes).2.database.openTable
      "Hero").liveRecords = [[("city", .null), ("id", .ofInt 1), ("name", .str "batman")]] := by
    rw [run]
    rfl
  refine ⟨congrArg Prod.fst run, fun misses => ?_, before, after⟩
  exact misses _ (before ▸ List.mem_singleton_self _) ⟨rfl, rfl⟩

end Heroes

end Repository

end RecordGraph
