import RecordGraph.Proofs.Store.Reading
import RecordGraph.Proofs.Write.Reached
import RecordGraph.Proofs.Write.Updating

/-!
# Where a validation error comes from

A write stores the rows of its query, and then walks the includes for one of them after the other.
If it fails with a validation error, then some row was refused on the way: one of the query itself,
where it is stored, connected or read again, or one that was supplied for such a walk, at whatever
depth. The error is that of the refused row and says where it is: the labels of the includes that
lead there stand in front of every key, each of them once and the outermost first.
-/

namespace RecordGraph

namespace Engine

variable {m : Model} {data : Record} {row : Row} {e e' : Engine}

/-- Rows that are handed out together are rows of the model that is known under the name of
theirs. -/
theorem mapM_handOut_ok {records : List Record} {rows : List Row}
    (done : records.mapM (handOut m) e = (.ok rows, e')) :
    e' = e ∧ ∀ row ∈ rows, e.registry.get? m.name = some row.model := by
  induction records generalizing rows e' with
  | nil =>
      cases done
      exact ⟨rfl, nofun⟩
  | cons record rest ih =>
      rw [List.mapM_cons] at done
      obtain ⟨row, e₁, first, done⟩ := Action.bind_ok done
      obtain ⟨rows, e₂, others, last⟩ := Action.bind_ok done
      obtain ⟨rfl, known, -⟩ := handOut_ok first
      obtain ⟨rfl, each⟩ := ih others
      cases last
      exact ⟨rfl, List.forall_mem_cons.mpr ⟨known, each⟩⟩

/-- Work on a table does not change the models that are known. -/
theorem registry_of_onTable {α : Type} {name : String}
    {work : Table → Except StorageError (α × Table)} {a : α}
    (done : onTable name work e = (.ok a, e')) : e'.registry = e.registry := by
  obtain ⟨_, _, rfl⟩ := onTable_ok_iff.mp done
  rfl

theorem known_of_create {request : Request.Write} (done : create m data request e = (.ok row, e')) :
    e'.registry = e.registry ∧ e.registry.get? m.name = some row.model := by
  obtain ⟨_, e₁, stored, handed⟩ := Action.bind_ok done
  obtain ⟨rfl, known, -⟩ := handOut_ok handed
  have registry := registry_of_onTable stored
  exact ⟨registry, registry ▸ known⟩

theorem known_of_bulkCreate {inputs : List Record} {rows : List Row} {request : Request.Write}
    (done : bulkCreate m inputs request e = (.ok rows, e')) :
    e'.registry = e.registry ∧ ∀ row ∈ rows, e.registry.get? m.name = some row.model := by
  obtain ⟨_, e₁, stored, handed⟩ := Action.bind_ok done
  obtain ⟨rfl, known⟩ := mapM_handOut_ok handed
  have registry := registry_of_onTable stored
  exact ⟨registry, registry ▸ known⟩

theorem known_of_upsert {values : Record} {created : Bool} {request : Request.Write}
    (done : upsert m values request e = (.ok (row, created), e')) :
    e'.registry = e.registry ∧ e.registry.get? m.name = some row.model := by
  obtain ⟨_, e₁, keyed, done⟩ := Action.bind_ok done
  rw [Action.lift_run] at keyed
  obtain rfl := (Prod.ext_iff.mp keyed).2
  obtain ⟨_, e₂, stored, done⟩ := Action.bind_ok done
  obtain ⟨_, e₃, handed, last⟩ := Action.bind_ok done
  cases last
  obtain ⟨rfl, known, -⟩ := handOut_ok handed
  have registry := registry_of_onTable stored
  exact ⟨registry, registry ▸ known⟩

theorem known_of_findAll {request : Request.Find} {rows : List Row}
    (done : findAll m request e = (.ok rows, e')) :
    e' = e ∧ ∀ row ∈ rows, e.registry.get? m.name = some row.model := by
  rw [findAll_run] at done
  obtain ⟨answered, rfl⟩ := Prod.ext_iff.mp done
  obtain ⟨registered, known, selected⟩ := bind_eq_ok_iff.mp answered
  refine ⟨rfl, fun row member => ?_⟩
  obtain ⟨_, _, picked⟩ := Loading.exists_of_mem_select selected member
  rw [picked.model]
  exact Linking.model_ok known

end Engine

namespace Cascade

variable {σ : Type} [Backend σ] {r : Registry} {options : PersistOptions}

/-- The labels that lead a walk to a row lead through the includes to the model of the row. -/
theorem Site.Reaches.leads {site : Site σ} {path : List String} {visit : Visit σ}
    (reaches : site.Reaches r options path visit) :
    Include.Leads r site.model site.includes path visit.target := by
  induction reaches with
  | here supplies =>
      obtain ⟨asked, association, registered⟩ := supplies.known
      exact .down asked association registered .here
  | down supplies descends _ ih =>
      obtain ⟨asked, association, registered⟩ := supplies.known
      obtain ⟨⟩ := descends
      exact .down asked association registered ih

end Cascade

namespace Repository

/-- A write of rows with their related rows. -/
inductive Write where
  | create (draft : Draft)
  | bulkCreate (drafts : List Draft)
  | update (draft : Draft)
  | upsert (draft : Draft)

variable (repo : Repository) (q : Query) (options : PersistOptions) (e : Engine)

/-- A write fails. -/
def Write.Fails (failure : Failure) : Write → Prop
  | .create draft => (repo.create q draft options e).1 = .error failure
  | .bulkCreate drafts => (repo.bulkCreate q drafts options e).1 = .error failure
  | .update draft => (repo.update q draft options e).1 = .error failure
  | .upsert draft => (repo.upsert q draft options e).1 = .error failure

/-- The rows of the query itself are refused where they are stored. -/
inductive Write.Refused (refusal : Refusal) : Write → Prop where
  | create {draft : Draft}
      (refused : (Engine.create repo.model draft.fields options.toWrite e).1 =
        .error (.validation refusal)) : Refused refusal (.create draft)
  | bulkCreate {drafts : List Draft}
      (refused : (Engine.bulkCreate repo.model (drafts.map (·.fields)) options.toWrite e).1 =
        .error (.validation refusal)) : Refused refusal (.bulkCreate drafts)
  | update {draft : Draft} (given : draft.fields ≠ [])
      (refused : (Engine.update repo.model draft.fields (writing q options) e).1 =
        .error (.validation refusal)) : Refused refusal (.update draft)
  | upsert {draft : Draft}
      (refused : (Engine.upsert repo.model draft.fields options.toWrite e).1 =
        .error (.validation refusal)) : Refused refusal (.upsert draft)

/-- A write walks from a row of the query that was stored. Where there are several, those before
it have been walked from. An atomic update walks within its transaction as it would without. -/
inductive Write.Walks : Write → Cascade.Site Engine → Prop where
  | create {draft : Draft} {row : Row} {e' : Engine} (associate : options.associate = true)
      (stored : Engine.create repo.model draft.fields options.toWrite e = (.ok row, e')) :
      Walks (.create draft) ⟨repo.model, draft, .create, q.descriptor.includes, row, e'⟩
  | bulkCreate {drafts : List Draft} {rows : List Row} {draft : Draft} {row : Row}
      {e₁ e' : Engine} (associate : options.associate = true)
      (stored : Engine.bulkCreate repo.model (drafts.map (·.fields)) options.toWrite e =
        (.ok rows, e₁))
      (turn : Cascade.Turn
        (fun supplied : Row × Draft => repo.cascade q supplied.2 .create options supplied.1)
        (rows.zip drafts) e₁ (row, draft) e') :
      Walks (.bulkCreate drafts) ⟨repo.model, draft, .create, q.descriptor.includes, row, e'⟩
  | update {draft : Draft} {rows : List Row} {row : Row} {e₁ e₂ e' : Engine}
      (associate : options.associate = true)
      (written : draft.fields = [] ∧ e₁ = e ∨
        ∃ n, Engine.update repo.model draft.fields (writing q options) e = (.ok n, e₁))
      (read : Engine.findAll repo.model (rereading q options) e₁ = (.ok rows, e₂))
      (turn : Cascade.Turn (repo.cascade q draft .update options) rows e₂ row e') :
      Walks (.update draft) ⟨repo.model, draft, .update, q.descriptor.includes, row, e'⟩
  | upsert {draft : Draft} {row : Row} {created : Bool} {e' : Engine}
      (associate : options.associate = true)
      (stored : Engine.upsert repo.model draft.fields options.toWrite e =
        (.ok (row, created), e')) :
      Walks (.upsert draft) ⟨repo.model, draft, if created then .create else .update,
        q.descriptor.includes, row, e'⟩

/-- The row at the end of a path of labels is refused, which is a row of a model. At the end of the
empty path that is a row of the query itself, and at that of any other one a row that was supplied
for a walk from such a row. -/
inductive Write.RefusedAt (write : Write) : List String → Model → Refusal → Prop where
  | stored {refusal : Refusal} (refused : write.Refused repo q options e refusal) :
      RefusedAt write [] repo.model refusal
  | walked {site : Cascade.Site Engine} {refusal : Refusal}
      (walks : write.Walks repo q options e site)
      (model : e.registry.get? repo.model.name = some site.row.model)
      (refused : site.Refused repo.registry options refusal) :
      RefusedAt write [] repo.model refusal
  | supplied {site : Cascade.Site Engine} {label : String} {path : List String}
      {visit : Cascade.Visit Engine} {refusal : Refusal}
      (walks : write.Walks repo q options e site)
      (reaches : site.Reaches repo.registry options (label :: path) visit)
      (model : ∀ row record e', visit.Writes row record e' →
        visit.item.modelFor e.registry visit.target = some row.model)
      (refused : visit.Refused repo.registry options refusal) :
      RefusedAt write (label :: path) visit.target refusal

variable {repo q options e} {write : Write} {site : Cascade.Site Engine} {err : ValidationError}

/-- A write walks from rows of the model of the query, along its includes. -/
theorem Write.Walks.known (walks : write.Walks repo q options e site) :
    site.model = repo.model ∧ site.includes = q.descriptor.includes ∧
      e.registry.get? repo.model.name = some site.row.model ∧
      site.store.registry = e.registry := by
  have keeps (draft : Draft) (mode : WriteMode) (row : Row) : Upholds
      (fun s : Engine => s.registry = e.registry) (repo.cascade q draft mode options row) :=
    (Cascade.upkeep_registry e.registry).cascade repo q draft mode row
  cases walks with
  | create associate stored =>
      obtain ⟨registry, model⟩ := Engine.known_of_create stored
      exact ⟨rfl, rfl, model, registry⟩
  | bulkCreate associate stored turn =>
      obtain ⟨registry, models⟩ := Engine.known_of_bulkCreate stored
      exact ⟨rfl, rfl, models _ (List.of_mem_zip turn.mem).1,
        turn.upheld (J := fun s => s.registry = e.registry) (fun _ => keeps _ _ _) registry⟩
  | @update draft rows row e₁ e₂ e' associate written read turn =>
      have registry : e₁.registry = e.registry := by
        obtain ⟨-, rfl⟩ | ⟨n, written⟩ := written
        · rfl
        · exact Engine.registry_of_onTable written
      obtain ⟨rfl, models⟩ := Engine.known_of_findAll read
      exact ⟨rfl, rfl, registry ▸ models _ turn.mem,
        turn.upheld (J := fun s => s.registry = e.registry) (keeps _ _) registry⟩
  | upsert associate stored =>
      obtain ⟨registry, model⟩ := Engine.known_of_upsert stored
      exact ⟨rfl, rfl, model, registry⟩

/-- What a walk is refused for is refused at the end of a path. -/
theorem Write.Walks.refusedAt (walks : write.Walks repo q options e site)
    (blames : site.Blames repo.registry options err) :
    ∃ path last refusal,
      Include.Leads repo.registry repo.model q.descriptor.includes path last ∧
        write.RefusedAt repo q options e path last refusal ∧
        err = (ValidationError.ofRefusal last refusal).prefixed path := by
  obtain ⟨model, includes, row, registry⟩ := walks.known
  obtain ⟨refusal, refused, rfl⟩ | ⟨path, visit, refusal, reaches, refused, rfl⟩ := blames
  · refine ⟨[], repo.model, refusal, .here, .walked walks row refused, ?_⟩
    rw [ValidationError.prefixed_nil, model]
  · have leads := reaches.leads
    rw [model, includes] at leads
    have known := reaches.upheld (Cascade.upkeep_registry e.registry) registry
    have made (row : Row) (record : Record) (e' : Engine) (writes : visit.Writes row record e') :
        visit.item.modelFor e.registry visit.target = some row.model := known ▸ writes.model
    refine ⟨path, visit.target, refusal, leads, ?_, rfl⟩
    cases path with
    | nil => cases reaches
    | cons label path => exact .supplied walks reaches made refused

/-- A refusal of the rows of the query itself stands at the end of the empty path. -/
theorem Write.Refused.refusedAt {refusal : Refusal}
    (refused : write.Refused repo q options e refusal) :
    ∃ path last refusal',
      Include.Leads repo.registry repo.model q.descriptor.includes path last ∧
        write.RefusedAt repo q options e path last refusal' ∧
        ValidationError.ofRefusal repo.model refusal =
          (ValidationError.ofRefusal last refusal').prefixed path :=
  ⟨[], repo.model, refusal, .here, .stored refused, (ValidationError.prefixed_nil _).symm⟩

/-- The walk of a row that fails is refused somewhere. -/
theorem blames_of_cascade {draft : Draft} {mode : WriteMode} {row : Row}
    (failed : (repo.cascade q draft mode options row e).1 = .error (.validation err)) :
    options.associate = true ∧
      Cascade.Site.Blames repo.registry options
        ⟨repo.model, draft, mode, q.descriptor.includes, row, e⟩ err := by
  rw [cascade] at failed
  split at failed
  · next associate =>
    exact ⟨associate, Cascade.Site.blames_of_walk Engine.buildsFreely _
      (Run.onRow_error_iff.mp failed)⟩
  · cases failed

/-- A validation error of a write through the engine in memory is located. A path of labels leads
through the includes of the query, from its model to the model that the error names; the row that
was refused is one of that model, and it is a row of the query itself if and only if the path is
empty. The error is the one that the refusal of that row makes for its model, with the labels of
the path in front of every key. -/
theorem validation_located (repo : Repository) (q : Query) (options : PersistOptions) (e : Engine)
    (write : Write) (err : ValidationError)
    (failed : write.Fails repo q options e (.validation err)) :
    ∃ path last refusal,
      Include.Leads repo.registry repo.model q.descriptor.includes path last ∧
        write.RefusedAt repo q options e path last refusal ∧
        err = (ValidationError.ofRefusal last refusal).prefixed path := by
  cases write with
  | create draft =>
      rcases Action.bind_error failed with unstored | ⟨row, e', stored, failed⟩
      · obtain ⟨error, refused, made⟩ := mapError_eq_error_iff.mp unstored
        obtain ⟨refusal, rfl, rfl⟩ := Failure.ofStorage_eq_validation made
        exact Write.Refused.refusedAt (.create refused)
      · obtain ⟨associate, blames⟩ := blames_of_cascade failed
        exact (Write.Walks.create associate (Run.ofAction_ok_iff.mp stored)).refusedAt blames
  | bulkCreate drafts =>
      rcases Action.bind_error failed with unstored | ⟨rows, e₁, stored, failed⟩
      · obtain ⟨error, refused, made⟩ := mapError_eq_error_iff.mp unstored
        obtain ⟨refusal, rfl, rfl⟩ := Failure.ofStorage_eq_validation made
        exact Write.Refused.refusedAt (.bulkCreate refused)
      · obtain ⟨⟨row, draft⟩, e', turn, failed⟩ := Cascade.exists_turn_of_mapM failed
        obtain ⟨associate, blames⟩ := blames_of_cascade failed
        exact (Write.Walks.bulkCreate associate (Run.ofAction_ok_iff.mp stored) turn).refusedAt
          blames
  | update draft =>
      rcases updateRows_error (updateRows_of_update_error failed) with
        ⟨given, error, refused, made⟩ |
        ⟨e₁, written, ⟨error, refused, made⟩ | ⟨rows, e₂, read, failed⟩⟩
      · obtain ⟨refusal, rfl, rfl⟩ := Failure.ofStorage_eq_validation made
        exact Write.Refused.refusedAt (.update given refused)
      · obtain ⟨refusal, rfl, rfl⟩ := Failure.ofStorage_eq_validation made
        exact absurd refused (Engine.findAll_ne_refused _ _ _ refusal)
      · obtain ⟨row, e', turn, failed⟩ := Cascade.exists_turn_of_mapM failed
        obtain ⟨associate, blames⟩ := blames_of_cascade failed
        exact (Write.Walks.update associate written read turn).refusedAt blames
  | upsert draft =>
      rcases Action.bind_error failed with unstored | ⟨⟨row, created⟩, e', stored, failed⟩
      · obtain ⟨error, refused, made⟩ := mapError_eq_error_iff.mp unstored
        obtain ⟨refusal, rfl, rfl⟩ := Failure.ofStorage_eq_validation made
        exact Write.Refused.refusedAt (.upsert refused)
      · rcases Action.bind_error failed with failed | ⟨_, _, _, answered⟩
        · obtain ⟨associate, blames⟩ := blames_of_cascade failed
          exact (Write.Walks.upsert associate (Run.ofAction_ok_iff.mp stored)).refusedAt blames
        · cases answered

section Club

/-- A club has teams, which have members, who need a name. -/
def club : Model :=
  { name := "Club"
    attributes := [.identity "id"]
    associations :=
      [{ key := "teams", kind := .hasMany, target := "Team", foreignKey := some "clubId" }] }

/-- A team of a club. -/
def team : Model :=
  { name := "Team"
    attributes := [.identity "id", { name := "clubId", dataType := .integer, allowNull := true }]
    associations :=
      [{ key := "members", kind := .hasMany, target := "Member", foreignKey := some "teamId" }] }

/-- A member of a team. -/
def member : Model :=
  { name := "Member"
    attributes :=
      [.identity "id", { name := "name" },
        { name := "teamId", dataType := .integer, allowNull := true }] }

def clubs : Registry :=
  [("Club", club), ("Member", member), ("Team", team)]

/-- Clubs with their teams and the members of these. -/
def withMembers : Query where
  registry := clubs
  model := club
  descriptor :=
    { selection := { model := "Club" }
      includes := [.nested { target := "Team", label := "teams" } { model := "Team" }
        [.plain { target := "Member", label := "members" }]] }

/-- A club with a team whose only member has no name. -/
def nameless : Draft where
  associations := [("teams", .many [.record [("members", .arr [.obj []])]])]

/-- What the member without a name is refused with, two levels down. -/
def unnamed : ValidationError :=
  (ValidationError.ofRefusal member
    ⟨"Validation error", [⟨"name", .notNull, "Member.name cannot be null"⟩]⟩).prefixed
      ["teams", "members"]

theorem validation_located_unnamed :
    let repo : Repository := { registry := clubs, model := club }
    let write : Write := .create nameless
    write.Fails repo withMembers {} (Engine.ofRegistry clubs) (.validation unnamed) ∧
      (∃ path last refusal,
        Include.Leads clubs club withMembers.descriptor.includes path last ∧
          write.RefusedAt repo withMembers {} (Engine.ofRegistry clubs) path last refusal ∧
          unnamed = (ValidationError.ofRefusal last refusal).prefixed path) ∧
      unnamed.failingKeys = ["teams.members.name"] := by
  have failed : Write.Fails ⟨clubs, club, .detached⟩ withMembers {} (Engine.ofRegistry clubs)
      (.validation unnamed) (.create nameless) := by
    change (create ⟨clubs, club, .detached⟩ withMembers nameless {} (Engine.ofRegistry clubs)).1 = _
    rfl
  exact ⟨failed, validation_located _ withMembers {} _ (.create nameless) unnamed failed, rfl⟩

end Club

end Repository

end RecordGraph
