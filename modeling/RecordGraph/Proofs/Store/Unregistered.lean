import RecordGraph.Proofs.Store.JoinColumns
import RecordGraph.Proofs.Store.Visibility
import RecordGraph.Proofs.Store.Writes

/-!
# Storing rows of a model that is not registered

A row is stored by the model that a command is given, and handed out as one of the registered
model of that name. The registered model is looked up last. So if there is none, a command fails
after it has written, and leaves the very store that it would leave if the model was registered:
what it has stored is counted, and where it is a join table, rows are found through it.
A command that fails for any other reason has failed before, and nothing of it can be seen.
-/

namespace RecordGraph

variable {α β : Type}

/-- A step does not fail for want of a model. -/
def NeverUnknown (x : Except StorageError α) : Prop :=
  ∀ name, x ≠ .error (.unknownModel name)

theorem NeverUnknown.bind {x : Except StorageError α} {f : α → Except StorageError β}
    (first : NeverUnknown x) (rest : ∀ a, NeverUnknown (f a)) : NeverUnknown (x >>= f) := by
  intro name failed
  cases x with
  | error err =>
      cases failed
      exact first name rfl
  | ok a => exact rest a name failed

theorem neverUnknown_pure (a : α) : NeverUnknown (pure a : Except StorageError α) := by
  intro name failed
  cases failed

namespace Table

variable {m : Model} {validate : Bool} {t : Table}

theorem neverUnknown_check {others : List StoredRow} {record : Record} :
    NeverUnknown (check m others validate record) := by
  intro name failed
  rw [check] at failed
  split at failed <;> cases failed

theorem neverUnknown_accept {record : Record} {counter : Int} :
    NeverUnknown (accept m t validate record counter) := by
  rw [accept]
  split
  · exact neverUnknown_check
  · rintro name ⟨⟩

theorem neverUnknown_insert {data : Record} : NeverUnknown (t.insert m validate data) :=
  neverUnknown_accept.bind fun _ => neverUnknown_pure _

theorem neverUnknown_insertAll {rows : List Record} :
    NeverUnknown (t.insertAll m validate rows) := by
  induction rows generalizing t with
  | nil => exact neverUnknown_pure _
  | cons data rest ih =>
      rw [insertAll]
      exact neverUnknown_insert.bind fun _ => ih.bind fun _ => neverUnknown_pure _

theorem neverUnknown_updateAt {index : Nat} {data : Record} :
    NeverUnknown (t.updateAt m validate index data) := by
  rw [updateAt]
  split
  · intro name failed
    cases failed
  · exact neverUnknown_check.bind fun _ => neverUnknown_pure _

theorem neverUnknown_existing? {pk : String} {values : Record} :
    NeverUnknown (Engine.existing? m pk values t) := by
  rw [Engine.existing?]
  split
  · refine NeverUnknown.bind (fun name failed => ?_) fun _ => neverUnknown_pure _
    obtain ⟨_, _, other⟩ := mapError_eq_error_iff.mp failed
    cases other
  · exact neverUnknown_pure _

end Table

namespace Engine

/-- Work that hands out rows of a model changes nothing. It has an answer if the model is
registered, and fails for no other reason than that it is not. -/
structure HandsOut (m : Model) (x : Action Engine α) : Prop where
  leaves : ∀ e, (x e).2 = e
  answers : ∀ e known, e.registry.get? m.name = some known → ∃ a, (x e).1 = .ok a
  fails : ∀ e err, (x e).1 = .error err → err = .unknownModel m.name

variable {m : Model}

theorem handsOut_pure (a : α) : HandsOut m (pure a) :=
  ⟨fun _ => rfl, fun _ _ _ => ⟨a, rfl⟩, fun _ _ failed => by cases failed⟩

theorem handsOut_handOut (data : Record) : HandsOut m (handOut m data) where
  leaves := handOut_leaves m data
  answers _ _ registered := ⟨_, congrArg Prod.fst (handOut_run registered data)⟩
  fails e err failed := by
    rw [handOut_result, Loading.model] at failed
    cases known : e.registry.get? m.name with
    | some registered =>
        simp only [known] at failed
        cases failed
    | none =>
        simp only [known] at failed
        cases failed
        rfl

theorem HandsOut.bind {x : Action Engine α} {f : α → Action Engine β} (first : HandsOut m x)
    (rest : ∀ a, HandsOut m (f a)) : HandsOut m (x >>= f) where
  leaves e := (Action.bind_leaves fun a => (rest a).leaves).trans (first.leaves e)
  answers e known registered := by
    obtain ⟨a, answered⟩ := first.answers e known registered
    rw [Action.bind_run, answered, first.leaves]
    exact (rest a).answers e known registered
  fails e err failed := by
    obtain failed | ⟨a, s, _, failed⟩ := Action.bind_error failed
    · exact first.fails e err failed
    · exact (rest a).fails s err failed

theorem HandsOut.mapM {f : α → Action Engine β} (each : ∀ a, HandsOut m (f a)) (items : List α) :
    HandsOut m (items.mapM f) := by
  induction items with
  | nil => exact handsOut_pure []
  | cons a rest ih =>
      rw [List.mapM_cons]
      exact (each a).bind fun _ => ih.bind fun _ => handsOut_pure _

end Engine

section Opened

variable {d : Database} {name : String}

/-- The table of a name, made if it does not exist. -/
def Database.opened (d : Database) (name : String) : Database :=
  d.setTable name (d.openTable name)

theorem Database.openTable_opened (other : String) :
    (d.opened name).openTable other = d.openTable other := by
  by_cases same : other = name
  · rw [same, opened, openTable_setTable_self]
  · exact openTable_setTable_of_ne d _ same

theorem Database.table?_opened {other : String} (ne : other ≠ name) :
    (d.opened name).table? other = d.table? other :=
  Dict.get?_insert_of_ne d _ ne

theorem Loading.associated_opened {r : Registry} {source target : Model} {a : Association}
    {data : Record} (ne : target.name ≠ name) :
    associated r (d.opened name) source a target data = associated r d source a target data := by
  simp only [associated, Database.table?_opened ne, joined_eq, Database.openTable_opened]

variable {e : Engine}

/-- A table that no registered model has may be opened unseen. -/
theorem Engine.readsAlike_opened (named : e.registry.Named)
    (unknown : e.registry.get? name = none) :
    e.ReadsAlike { e with database := e.database.opened name } := by
  have others (other : String) (m : Model) (known : e.registry.get? other = some m) :
      m.name ≠ name := by
    intro same
    rw [← same, named other m known, known] at unknown
    cases unknown
  have ends (source : Model) (data : Record) (head : Request.IncludeHead) :
      Loading.SameEnds e.registry e.database (e.database.opened name) source data head :=
    fun a target _ known => Loading.associated_opened (others _ target known)
  have related (includes : List Request.Include) (source : Model) (data : Record) (enforce : Bool) :
      Loading.related e.registry (e.database.opened name) enforce source data [] includes =
        Loading.related e.registry e.database enforce source data [] includes :=
    Loading.related_same includes source data enforce []
      (Loading.sameAlong_of_ends ends includes source data)
  refine readsAlike_of_findAll (fun m request => ?_) fun request row => ?_
  · refine findAll_congr rfl fun registered known => ?_
    have table := Database.table?_opened (d := e.database) (others _ registered known)
    exact Loading.select_congr (congrArg _ table) fun record =>
      related request.includeList registered record true
  · exact Linking.reload_congr (congrArg _ (Database.openTable_opened _)) fun data =>
      related request.includeList row.model data false

end Opened

namespace Command

variable {e e' : Engine} {c : Command} {m : Model} {d : Database} {err : StorageError}

/-- A command that stores records of a model and hands them out. -/
inductive Stores (m : Model) : Command → Prop where
  | create (data : Record) (request : Request.Write) : Stores m (.create m data request)
  | bulkCreate (rows : List Record) (request : Request.Write) :
      Stores m (.bulkCreate m rows request)
  | upsert (values : Record) (request : Request.Write) : Stores m (.upsert m values request)

/-- How a command on rows of a model goes that is given a database. What it leaves does not
depend on the registered models. -/
inductive Goes (c : Command) (m : Model) (d : Database) : Prop where
  /-- It fails before it writes, whatever models are registered. -/
  | refused {err : StorageError} {d' : Database} (about : ∀ name, err ≠ .unknownModel name)
      (unseen : d' = d ∨ d' = d.opened m.name)
      (run : ∀ e : Engine, e.database = d → c.perform e = (.error err, { e with database := d' }))
  /-- It writes, and fails at most because its model is not registered. -/
  | written {t : Table} (writes : Writes (d.openTable m.name) c t)
      (run : ∀ e : Engine, e.database = d → (c.perform e).2 = e.setTable m.name t)
      (answers : ∀ (e : Engine) known, e.database = d → e.registry.get? m.name = some known →
        (c.perform e).1 = .ok ())
      (fails : ∀ (e : Engine) err, e.database = d → (c.perform e).1 = .error err →
        err = .unknownModel m.name)

/-- Work on the table of a model, and then handing out rows of it. -/
theorem goes_onTable {work : Table → Except StorageError (α × Table)} {answer : α → Action Engine β}
    (perform : ∀ e : Engine, c.perform e = outcome ((Engine.onTable m.name work >>= answer) e))
    (knows : ∀ t, NeverUnknown (work t))
    (writes : ∀ a t, work (d.openTable m.name) = .ok (a, t) → Writes (d.openTable m.name) c t)
    (hands : ∀ a, Engine.HandsOut m (answer a)) : Goes c m d := by
  cases done : work (d.openTable m.name) with
  | error err =>
      -- The table is made if there was none, and nothing is handed out.
      have about (name : String) : err ≠ .unknownModel name :=
        fun unknown => knows _ name (done.trans (congrArg _ unknown))
      refine .refused about (.inr rfl) ?_
      rintro e rfl
      rw [perform, Action.bind_run_error (Engine.onTable_run_error done)]
      rfl
  | ok answered =>
      obtain ⟨a, t⟩ := answered
      have run (e : Engine) (same : e.database = d) :
          c.perform e = outcome (answer a (e.setTable m.name t)) := by
        subst same
        rw [perform, Action.bind_run_ok (Engine.onTable_run_ok done)]
      refine .written (writes a t done) (fun e same => ?_) (fun e known same registered => ?_)
        fun e err same failed => ?_
      · rw [run e same]
        exact (hands a).leaves _
      · obtain ⟨b, answered⟩ := (hands a).answers (e.setTable m.name t) known registered
        rw [run e same, outcome, answered]
        rfl
      · rw [run e same, outcome] at failed
        refine (hands a).fails (e.setTable m.name t) err ?_
        cases result : (answer a (e.setTable m.name t)).1 with
        | error other => simpa [result, Except.map] using failed
        | ok b => simp [result, Except.map] at failed

theorem Stores.goes (stores : Stores m c) : Goes c m d := by
  cases stores with
  | create data request =>
      exact goes_onTable (fun _ => rfl) (fun _ => Table.neverUnknown_insert)
        (fun _ _ done => .create done) Engine.handsOut_handOut
  | bulkCreate rows request =>
      exact goes_onTable (fun _ => rfl) (fun _ => Table.neverUnknown_insertAll)
        (fun _ _ done => .bulkCreate done) (.mapM Engine.handsOut_handOut)
  | upsert values request =>
      cases named : Loading.primaryKey m with
      | error err =>
          have about (name : String) : err ≠ .unknownModel name := by
            intro unknown
            obtain ⟨_, _, other⟩ := mapError_eq_error_iff.mp (named.trans (congrArg _ unknown))
            cases other
          refine .refused about (.inl rfl) ?_
          rintro e rfl
          rw [perform, Engine.upsert, named, Action.bind_run_error (Action.lift_run _ e)]
          rfl
      | ok pk =>
          apply goes_onTable
          case perform =>
            intro e
            rw [perform, Engine.upsert, named, Action.bind_run_ok (Action.lift_run _ e)]
          case knows =>
            refine fun t => Table.neverUnknown_existing?.bind fun place => ?_
            cases place with
            | none => exact Table.neverUnknown_insert.bind fun _ => neverUnknown_pure _
            | some index => exact Table.neverUnknown_updateAt.bind fun _ => neverUnknown_pure _
          case writes => exact fun _ _ done => writes_upsert named done
          case hands =>
            rintro ⟨record, created⟩
            exact (Engine.handsOut_handOut record).bind fun row =>
              Engine.handsOut_pure (row, created)

/-- A command that stores rows of a model that is not registered may fail in two ways. The error
that the model is unknown comes last: by then the command has written, and the engine is as it
is after the same command where the model is registered, which succeeds. Any other error comes
before, and is that of all engines with the same tables: no row is stored or changed then, no
counter has advanced, and whatever is read is as before. -/
theorem stores_unregistered (named : e.registry.Named) (stores : Stores m c)
    (unknown : e.registry.get? m.name = none) (failed : c.perform e = (.error err, e')) :
    (err = .unknownModel m.name →
      (∃ t, Writes (e.database.openTable m.name) c t ∧ e' = e.setTable m.name t) ∧
      ∀ r known, r.get? m.name = some known →
        c.perform { e with registry := r } = (.ok (), { e' with registry := r })) ∧
    (err ≠ .unknownModel m.name →
      (∀ name, e'.database.openTable name = e.database.openTable name) ∧ e.ReadsAlike e' ∧
      ∀ r, c.perform { e with registry := r } = (.error err, { e' with registry := r })) := by
  obtain ⟨about, unseen, run⟩ | ⟨writes, run, answers, fails⟩ := stores.goes (d := e.database)
  case refused first d' =>
    obtain ⟨same, rfl⟩ := Prod.mk.inj ((run e rfl).symm.trans failed)
    obtain rfl := Except.error.inj same
    refine ⟨fun is => absurd is (about _), fun _ => ⟨fun name => ?_, ?_, fun r => run _ rfl⟩⟩
    · obtain rfl | rfl := unseen
      · rfl
      · exact Database.openTable_opened name
    · obtain rfl | rfl := unseen
      · exact Engine.readsAlike_of_findAll (fun _ _ => rfl) fun _ _ => rfl
      · exact Engine.readsAlike_opened named unknown
  case written t =>
    have left : e' = e.setTable m.name t := by rw [← run e rfl, failed]
    subst left
    refine ⟨fun _ => ⟨⟨t, writes, rfl⟩, fun r known registered => Prod.ext ?_ ?_⟩, fun other => ?_⟩
    · exact answers { e with registry := r } known rfl registered
    · exact run { e with registry := r } rfl
    · exact absurd (fails e err rfl (congrArg Prod.fst failed)) other

section Circle

open Linking (circle peer tag)

/-- A peer with a tag, by a model that is not registered. -/
def peerTag : Model :=
  { name := "PeerTag"
    attributes := [.identity "id", { name := "PeerId", dataType := .integer },
      { name := "TagId", dataType := .integer }] }

/-- A peer without a tag is refused, and nothing is there to see. -/
theorem stores_unregistered_refused :
    let run := (Command.create peerTag [("PeerId", .ofInt 1)] {}).perform circle
    run.1 = .error (.validation ⟨"Validation error", [⟨"TagId", .notNull,
        "PeerTag.TagId cannot be null"⟩]⟩) ∧
      run.2.database.openTable "PeerTag" = circle.database.openTable "PeerTag" ∧
      circle.ReadsAlike run.2 := by
  have named : circle.registry.Named :=
    (Registry.named_nil.register (m := tag) rfl).register (m := peer) rfl
  have failed : (Command.create peerTag [("PeerId", .ofInt 1)] {}).perform circle =
      (.error (.validation ⟨"Validation error", [⟨"TagId", .notNull,
        "PeerTag.TagId cannot be null"⟩]⟩), _) := rfl
  obtain ⟨tables, alike, _⟩ := (stores_unregistered named (.create _ _) rfl failed).2 nofun
  exact ⟨rfl, tables "PeerTag", alike⟩

/-- A peer with a tag cannot be handed out, but is stored: one row more is counted, and the peer
is read with the tag from then on. -/
theorem create_unregistered_stores :
    let run :=
      (Command.create peerTag [("PeerId", .ofInt 1), ("TagId", .ofInt 1)] {}).perform circle
    let read (e : Engine) := (Linking.reload
      { includes := some [Request.plainInclude "Tag" "tags" false] }
      (Loading.plainRow peer [("id", .ofInt 1)]) e).1.2.related
    circle.registry.get? "PeerTag" = none ∧ run.1 = .error (.unknownModel "PeerTag") ∧
      circle.storedRows "PeerTag" = 0 ∧ run.2.storedRows "PeerTag" = 1 ∧
      read circle = [("tags", .many [])] ∧
      read run.2 = [("tags", .many [Loading.plainRow tag [("id", .ofInt 1)]])] :=
  ⟨rfl, rfl, rfl, rfl, rfl, rfl⟩

end Circle

end Command

end RecordGraph
