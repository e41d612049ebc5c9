import RecordGraph.Proofs.Store.Numbering
import RecordGraph.Proofs.Store.Writes

/-!
# New keys are fresh

A model whose primary key is numbered gets its keys from the counter of its table. As long
as no command writes a number there that the counter has not passed, the counter is past
the numbers of all rows, in the table and in all tables that a transaction may bring back.
The next row that is given no key then gets one that no row has, and is not refused for it.

An update may write any number: the counter does not follow, and a later row gets a number
that is taken.
-/

namespace RecordGraph

namespace Engine

variable {e : Engine} {m : Model} {name key : String}

/-- What creating a row answers: the new record has to be accepted beside the rows of its
table, and its model to be known. -/
theorem create_result (data : Record) (request : Request.Write) :
    let t := e.database.openTable m.name
    let record := (Table.newRecord m t data).1
    (create m data request e).1 = (do
      Table.accept m t request.validate record (Table.newRecord m t data).2
      (Loading.model e.registry m.name).map fun registered =>
        { model := registered, data := record }) := by
  intro t record
  have insert := Table.insert_eq m request.validate data t
  cases answer : Table.accept m t request.validate record (Table.newRecord m t data).2 with
  | error err =>
      rw [answer] at insert
      rw [create, Action.bind_run_error (onTable_run_error insert)]
      rfl
  | ok accepted =>
      rw [answer] at insert
      rw [create, Action.bind_run_ok (onTable_run_ok insert), handOut_result]
      rfl

/-- A row is refused for its record only. -/
theorem create_refused {data : Record} {request : Request.Write} {refusal : Refusal}
    (refused : (create m data request e).1 = .error (.validation refusal)) :
    let t := e.database.openTable m.name
    Table.check m t.rows request.validate (Table.newRecord m t data).1 =
      .error (.validation refusal) := by
  intro t
  rw [create_result] at refused
  cases answer : Table.accept m t request.validate (Table.newRecord m t data).1
      (Table.newRecord m t data).2 with
  | error err =>
      rw [answer] at refused
      obtain rfl := Except.error.inj refused
      exact Table.accept_refused answer
  | ok accepted =>
      rw [answer] at refused
      unfold Loading.model at refused
      split at refused <;> cases refused

/-- The counter of a table is past the numbers of its rows, also where a transaction may
bring it back. -/
structure Ahead (name key : String) (e : Engine) : Prop where
  current : (e.database.openTable name).Ahead key
  snapshots : ∀ saved ∈ e.snapshots, (saved.2.openTable name).Ahead key

theorem ahead_iff_everywhere : e.Ahead name key ↔ e.Everywhere name (Table.Ahead key) :=
  ⟨fun ⟨current, snapshots⟩ => ⟨current, snapshots⟩,
    fun ⟨current, snapshots⟩ => ⟨current, snapshots⟩⟩

theorem ahead_ofRegistry (r : Registry) : (ofRegistry r).Ahead name key :=
  ahead_iff_everywhere.mpr (.ofRegistry r Table.ahead_empty)

end Engine

/-- The primary key of a well-formed model is numbered and has no number as default. -/
structure Model.NumbersKey (m : Model) (a : Attribute) : Prop where
  wellFormed : m.validate = .ok ()
  primary : m.attributes.find? (·.primaryKey) = some a
  numbered : a.autoIncrement = true
  unset : a.default.bind Value.signed? = none

namespace Model.NumbersKey

variable {m : Model} {a : Attribute}

theorem declared (key : m.NumbersKey a) : a ∈ m.attributes :=
  List.mem_of_find?_eq_some key.primary

theorem primaryKey (key : m.NumbersKey a) : Loading.primaryKey m = .ok a.name := by
  rw [Loading.primaryKey, Model.primaryKey, key.primary]
  rfl

/-- No two attributes of a well-formed model have the same name. -/
theorem distinct (key : m.NumbersKey a) : (m.attributes.map (·.name)).Nodup := by
  have accepted := key.wellFormed
  unfold Model.validate at accepted
  obtain ⟨_, _, accepted⟩ := bind_eq_ok_iff.mp accepted
  cases repeated : firstRepeat? [] m.declaredKeys with
  | some name =>
      rw [repeated] at accepted
      cases accepted
  | none => exact (List.nodup_append.mp (firstRepeat?_eq_none_iff.mp repeated).1).1

end Model.NumbersKey

namespace Table

variable {m : Model} {t : Table} {others : List StoredRow} {record data : Record}
variable {validate : Bool} {a b : Attribute} {v : Violation} {refusal : Refusal}

/-- A value that is not unique is that of another row. -/
theorem any_has_of_unique (member : v ∈ violations m others validate record b)
    (unique : v.kind = .unique) :
    v.path = b.name ∧ ∃ w, record.get? b.name = some w ∧ others.any (·.has b.name w) = true := by
  unfold violations at member
  split at member
  · split at member
    · obtain rfl := List.mem_singleton.mp member
      cases unique
    · cases member
  · rename_i w present
    rcases List.mem_append.mp member with text | taken
    · split at text
      · obtain rfl := List.mem_singleton.mp text
        cases unique
      · cases text
    · split at taken
      · rename_i isTaken
        obtain rfl := List.mem_singleton.mp taken
        exact ⟨rfl, w, (Value.present?_eq_some_iff.mp present).1,
          (Bool.and_eq_true_iff.mp isTaken).2⟩
      · cases taken

/-- A new row that is given no key gets a number that no row has. -/
theorem Ahead.fresh (key : m.NumbersKey a) (ahead : t.Ahead a.name)
    (unkeyed : (data.get? a.name).bind Value.signed? = none)
    (room : (newRecord m t data).2 < 0x8000000000000000) :
    ∃ k, (newRecord m t data).1.get? a.name = some (.ofInt k) ∧
      ∀ row ∈ t.rows, row.has a.name (.ofInt k) = false := by
  have initial : (initialRecord m data).get? a.name = initialValue? data a :=
    get?_enterAll key.distinct key.declared rfl
  have admits : Admits (t.counter + 1) a.name (initialRecord m data, t.counter) := by
    refine ⟨fun i given => ?_, Int.le_refl _⟩
    rw [initial, signed?_initialValue? key.unset unkeyed] at given
    cases given
  obtain ⟨k, found, past, le⟩ :=
    admits.numberAll (List.mem_filter.mpr ⟨key.declared, key.numbered⟩)
  refine ⟨k, found, fun row stored => ?_⟩
  have nonneg := ahead.nonneg
  have fits : (Value.ofInt k).signed? = some k :=
    Value.signed?_ofInt_iff.mpr ⟨rfl, by omega, Int.lt_of_le_of_lt le room⟩
  refine Bool.eq_false_iff.mpr fun has => ?_
  obtain ⟨w, there, same⟩ := (Option.any_eq_true ..).mp has
  have under : Value.Under t.counter (some w) := there ▸ ahead.rows row stored
  have reached := under.le_of_same fits same
  omega

/-- Rows without its key do not stand in the way of a new row. -/
theorem path_ne_of_free {w : Value} (found : record.get? a.name = some w)
    (free : ∀ row ∈ others, row.has a.name w = false)
    (refused : check m others validate record = .error (.validation refusal))
    (member : v ∈ refusal.violations) (unique : v.kind = .unique) : v.path ≠ a.name := by
  intro path
  obtain ⟨b, _, member⟩ := mem_violations_of_check refused member
  obtain ⟨name, other, there, taken⟩ := any_has_of_unique member unique
  rw [← name, path] at there taken
  cases there.symm.trans found
  obtain ⟨row, stored, has⟩ := List.any_eq_true.mp taken
  rw [free row stored] at has
  cases has

end Table

namespace Command

variable {e : Engine} {c : Command} {m : Model} {a : Attribute}

/-- A command leaves the counter of a table past the numbers of its rows: an update writes
only numbers under the key that have been counted, and what may be written over the row of
its key has an integer there if it has a number. -/
def CountsKey (name key : String) (e : Engine) : Command → Prop
  | .update _ values _ => ∀ n, (key, .num n) ∈ values →
      ∃ i, n.signed? = some i ∧ i ≤ (e.database.openTable name).counter
  | .upsert _ values _ => IntegerKey key values
  | .save row _ => IntegerKey key row.data
  | _ => True

/-- What holds of every command of a run and the engine that it is carried out in. -/
def Along (P : Engine → Command → Prop) : Engine → List Command → Prop
  | _, [] => True
  | e, c :: rest => P e c ∧ Along P (c.perform e).2 rest

/-- Whatever a command writes into a numbered table keeps its counter past the numbers of its
rows. -/
theorem ahead_of_writes {t : Table} (key : m.NumbersKey a) (about : c.model? = some m)
    (ahead : (e.database.openTable m.name).Ahead a.name) (counts : c.CountsKey m.name a.name e)
    (writes : Writes (e.database.openTable m.name) c t) : t.Ahead a.name := by
  have keyed {n : Model} {pk : String} (same : n = m) (named : Loading.primaryKey n = .ok pk) :
      pk = a.name := by
    subst same
    exact Except.ok.inj (named.symm.trans key.primaryKey)
  cases writes with
  | create done =>
      cases about
      exact ahead.insert key.declared key.numbered done
  | bulkCreate done =>
      cases about
      exact ahead.insertAll key.declared key.numbered done
  | update _ done =>
      cases about
      refine ahead.updateMany (fun v member => ?_) done
      by_cases number : ∃ k, v = .num k
      · obtain ⟨k, rfl⟩ := number
        obtain ⟨i, signed, counted⟩ := counts k member
        obtain rfl := Number.eq_of_signed? signed
        exact Value.under_ofInt (Value.signed?_ofInt_iff.mp signed).2.1 counted
      · exact Value.under_of_not_num fun k same => number ⟨k, same⟩
  | upsertNew done =>
      cases about
      exact ahead.insert key.declared key.numbered done
  | upsertOver named given place done =>
      cases about
      cases keyed rfl named
      exact ahead.overwrite named place counts (Value.present?_eq_some_iff.mp given).1 done
  | destroyMarked places => exact ahead.setHidden true places
  | destroyRemoved places => exact ahead.remove places
  | restore places => exact ahead.setHidden false places
  | truncate => exact ahead.clear
  | saveNew done =>
      cases about
      exact ahead.insert key.declared key.numbered done
  | saveOver named given place done =>
      cases about
      cases keyed rfl named
      exact ahead.overwrite named place counts (Value.present?_eq_some_iff.mp given).1 done

/-- A command keeps the counter of a numbered table past the numbers of its rows. -/
theorem ahead_perform (key : m.NumbersKey a) (ahead : e.Ahead m.name a.name)
    (same : ∀ n, c.model? = some n → n.name = m.name → n = m) (unlinked : c.isLink = false)
    (counts : c.model? = some m → c.CountsKey m.name a.name e) :
    (c.perform e).2.Ahead m.name a.name := by
  rw [Engine.ahead_iff_everywhere] at ahead ⊢
  refine everywhere_perform Table.ahead_empty ahead unlinked fun n t about here writes => ?_
  obtain rfl := same n about here
  exact ahead_of_writes key about ahead.current (counts about) writes

theorem ahead_run {cs : List Command} (key : m.NumbersKey a) (ahead : e.Ahead m.name a.name)
    (same : ∀ c ∈ cs, ∀ n, c.model? = some n → n.name = m.name → n = m)
    (unlinked : ∀ c ∈ cs, c.isLink = false)
    (counts : Along (fun e c => c.model? = some m → c.CountsKey m.name a.name e) e cs) :
    (run cs e).Ahead m.name a.name := by
  induction cs generalizing e with
  | nil => exact ahead
  | cons c rest ih =>
      obtain ⟨same_first, same_rest⟩ := List.forall_mem_cons.mp same
      obtain ⟨unlinked_first, unlinked_rest⟩ := List.forall_mem_cons.mp unlinked
      have step := ahead_perform key ahead same_first unlinked_first counts.1
      exact ih step same_rest unlinked_rest counts.2

/-- Where no update has written a number that the counter has not passed, a row that is
created without a key gets a number that no stored row has, and it is not refused because
another row has its key. -/
theorem create_keyed_fresh (r : Registry) (key : m.NumbersKey a) {cs : List Command}
    (same : ∀ c ∈ cs, ∀ n, c.model? = some n → n.name = m.name → n = m)
    (unlinked : ∀ c ∈ cs, c.isLink = false)
    (counts : Along (fun e c => c.model? = some m → c.CountsKey m.name a.name e)
      (Engine.ofRegistry r) cs)
    {data : Record} (unkeyed : (data.get? a.name).bind Value.signed? = none)
    (room : (Table.newRecord m ((run cs (Engine.ofRegistry r)).database.openTable m.name) data).2 <
      0x8000000000000000) :
    let e := run cs (Engine.ofRegistry r)
    ∃ k, (∀ row ∈ (e.database.openTable m.name).rows, row.has a.name (.ofInt k) = false) ∧
      ∀ request,
        (∀ row, (Engine.create m data request e).1 = .ok row →
          row.get? a.name = some (.ofInt k)) ∧
        ∀ refusal, (Engine.create m data request e).1 = .error (.validation refusal) →
          ∀ v ∈ refusal.violations, v.kind = .unique → v.path ≠ a.name := by
  intro e
  have ahead : e.Ahead m.name a.name :=
    ahead_run key (Engine.ahead_ofRegistry r) same unlinked counts
  obtain ⟨k, found, free⟩ := ahead.current.fresh key unkeyed room
  refine ⟨k, free, fun request => ?_⟩
  constructor
  · intro row created
    rw [Engine.create_result] at created
    obtain ⟨_, _, handed⟩ := bind_eq_ok_iff.mp created
    cases known : Loading.model e.registry m.name with
    | error err =>
        rw [known] at handed
        cases handed
    | ok registered =>
        rw [known] at handed
        cases handed
        exact found
  · intro refusal refused v member unique
    exact Table.path_ne_of_free found free (Engine.create_refused refused) member unique

/-- An account that is given its number raises the counter, and the rollback takes it back. -/
theorem create_keyed_fresh_rollback :
    let e := run [.create account [("id", .ofInt 5), ("name", .str "ada")] {}, .beginTransaction,
      .create account [("name", .str "bob")] {}, .update account [("name", .str "eve")] {},
      .upsert account [("id", .ofInt 5), ("name", .str "cyd")] {}, .rollback 1]
      (Engine.ofRegistry [("Account", account)])
    ∃ k, (∀ row ∈ (e.database.openTable "Account").rows, row.has "id" (.ofInt k) = false) ∧
      ∀ request,
        (∀ row, (Engine.create account [("name", .str "bob")] request e).1 = .ok row →
          row.get? "id" = some (.ofInt k)) ∧
        ∀ refusal, (Engine.create account [("name", .str "bob")] request e).1 =
            .error (.validation refusal) →
          ∀ v ∈ refusal.violations, v.kind = .unique → v.path ≠ "id" := by
  have integer : IntegerKey "id" [("id", .ofInt 5), ("name", .str "cyd")] := by
    refine ⟨by decide, fun n given => ?_⟩
    cases given
    rfl
  refine create_keyed_fresh (m := account) (a := .identity "id") [("Account", account)]
    ⟨rfl, rfl, rfl, rfl⟩ ?_ ?_ ?_ rfl (by decide)
  · simp [model?]
  · simp [isLink]
  · simp only [Along, CountsKey, implies_true, true_and, and_true]
    refine ⟨fun _ n member => ?_, fun _ => integer⟩
    simp at member

/-- An update may write the number that comes next: the row that is created after it is
refused for a key that it was not given. -/
theorem create_refused_after_update :
    let e := run [.create account [("name", .str "ada")] {},
      .update account [("id", .ofInt 2)] {}] (Engine.ofRegistry [("Account", account)])
    (Engine.create account [("name", .str "bob")] {} e).1 = .error (.validation
      ⟨"Validation error", [⟨"id", .unique, "id must be unique"⟩]⟩) := rfl

end Command

end RecordGraph
