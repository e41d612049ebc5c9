import RecordGraph.Proofs.Write.ErrorKeys
import RecordGraph.Proofs.Write.Labels
import RecordGraph.Proofs.Write.Reached
import RecordGraph.Write.Repository

/-!
# Keys of rows just created

When a row was just created, its key is written into the rows that are to hold it before they
are stored, so the column for it may be a required one. What could undo this is anything else
that writes the column: an association that answers to its name, which takes the key out of
the record, and an association that the row belongs to through the same column. The latter
stands back where the column is written with the row.
-/

namespace RecordGraph

/-- What is supplied for an include is a row of its target, with nothing filed but under the
labels of its associations, or a record or a key. -/
inductive Item.Fits (target : Model) : Item → Prop where
  | record {fields : Record} (ordered : fields.Ascending) : Fits target (.record fields)
  | row {row : Row} (model : row.model = target) (ordered : row.data.Ascending)
      (filed : ∀ entry ∈ row.related, (target.association? entry.1).isSome = true) :
      Fits target (.row row)
  | key (value : Value) : Fits target (.key value)

namespace Cascade

variable {r : Registry} {options : PersistOptions}

/-- The column of a stop gets the key of a row that was just created: the targets hold it in
an attribute that no association answers to. -/
structure Stop.Stamps (stop : Stop) : Prop where
  inserted : stop.mode = .create
  owned : stop.association.kind.isOwnedByTarget = true
  keyed : ∃ key, Value.present? (stop.source.get? stop.pk) = some key
  declared : (stop.target.attribute? stop.column).isSome = true
  plain : stop.target.association? stop.column = none

/-- A store of a registry whose records are in key order. -/
def Sound (r : Registry) (e : Engine) : Prop :=
  e.registry = r ∧ e.Ordered

theorem upkeep_sound (r : Registry) : Upkeep (Sound r) :=
  upkeep_of_transition fun transition sound =>
    ⟨transition.registry.trans sound.1, transition.ordered sound.2⟩

theorem Stop.upholds_make (stop : Stop) (item : Item) :
    Upholds (Sound r) (stop.make r options item : Run Engine Row) :=
  (upkeep_sound r).make stop item

theorem Sound.create {e : Engine} (sound : Sound r e) (m : Model) (data : Record)
    (request : Request.Write) : Sound r (Engine.create m data request e).2 := by
  rw [Engine.create, Action.bind_leaves fun _ _ => Engine.handOut_leaves _ _ _]
  refine ⟨Engine.onTable_registry.trans sound.1, sound.2.onTable ?_⟩
  exact fun t record t' ordered done => ordered.insert done

theorem Sound.mapM_make {stop : Stop} {items : List Item} {rows : List Row} {e e' : Engine}
    (sound : Sound r e) (made : items.mapM (stop.make r options) e = (.ok rows, e')) :
    Sound r e' :=
  (Upholds.mapM stop.upholds_make items).after sound made

theorem Sound.save {row row' : Row} {e e' : Engine} (sound : Sound r e)
    (saved : Backend.save options.toWrite row e = ((.ok (), row'), e')) : Sound r e' :=
  ((rowUpholds_of_all fun row e => (upkeep_sound r).save row options.validate e).after
    ⟨trivial, sound⟩ saved).2

/-- The column of a stop that stamps keys has a value in what is written in advance. -/
theorem Stop.Stamps.stamp_eq {stop : Stop} (stamps : stop.Stamps) :
    ∃ key, key ≠ .null ∧ stop.stamp = some (stop.column, key) := by
  obtain ⟨key, keyed⟩ := stamps.keyed
  refine ⟨key, (Value.present?_eq_some_iff.mp keyed).2, ?_⟩
  rw [Stop.stamp, Cascade.stamp, if_pos ⟨stamps.inserted, stamps.owned⟩, keyed]
  rfl

section Writes

variable {target : Model} {column pk : String} {key : Value} {e : Engine}

/-- A row is made with the data that is given for it. -/
theorem build_of_registered (registered : e.registry.get? target.name = some target) (data : Record)
    (isNew : Bool) :
    Engine.build target data isNew e = (.ok { model := target, data, isNew }, e) :=
  Action.bind_run_ok (Engine.handOut_run registered data)

theorem ascending_stampRecord {record : Record} (ordered : record.Ascending) (stamp : Stamp) :
    (stampRecord stamp record).Ascending := by
  unfold stampRecord
  split
  · exact Dict.ascending_insert _ _ ordered
  · exact ordered

/-- In what a row comes with, related rows stand under their labels only. -/
theorem get?_plain (row : Row) {v : Value} (depth : Nat) (plain : target.association? column = none)
    (filed : ∀ entry ∈ row.related, (target.association? entry.1).isSome = true)
    (there : row.data.get? column = some v) : (row.plain depth).get? column = some v := by
  cases depth with
  | zero => exact there
  | succ depth =>
      refine Dict.get?_extend_of_unique (.inr there) fun w member => ?_
      obtain ⟨entry, among, made⟩ := List.mem_map.mp member
      have answers := filed entry among
      rw [(Prod.mk.inj made).1, plain] at answers
      cases answers

theorem ascending_plain {row : Row} (depth : Nat) (ordered : row.data.Ascending) :
    (row.plain depth).Ascending := by
  cases depth with
  | zero => exact ordered
  | succ depth => exact Dict.ascending_extend _ ordered

/-- A column that no association answers to is written with the row. -/
theorem has_fields_ofRecord {record : Record} (plain : target.association? column = none)
    (ordered : record.Ascending) (has : Record.Has record column) :
    Record.Has (Draft.ofRecord target record).fields column := by
  rw [Record.Has, (Draft.plain_of_association? plain ordered).1]
  exact has

end Writes

/-- What is stored of a row at a stop that stamps keys carries the key, and so does what is
supplied for it. -/
theorem Visit.Writes.carries {visit : Visit Engine} {row : Row} {record : Record} {e : Engine}
    (writes : visit.Writes row record e) (stamps : visit.Stamps)
    (fits : visit.item.Fits visit.target)
    (registered : visit.store.registry.get? visit.target.name = some visit.target) :
    row.Carries visit.target visit.column ∧
      Record.Has (Draft.ofRecord visit.target record).fields visit.column ∧ e = visit.store := by
  obtain ⟨key, nonnull, stamp⟩ := stamps.stamp_eq
  obtain ⟨keyed, made, writes⟩ := writes
  obtain ⟨stop, item, store⟩ := visit
  simp only at stamp made writes fits registered
  rw [stamp] at made
  have builds (data : Record) (isNew : Bool) : Run.ofAction (Failure.ofStorage stop.target)
      (Backend.build stop.target data isNew) store =
        (.ok { model := stop.target, data, isNew }, store) :=
    Run.ofAction_ok_iff.mpr (build_of_registered registered data isNew)
  cases fits with
  | @row source model ordered filed =>
      cases made
      have there : Record.Has (source.data.insert stop.column key) stop.column :=
        Record.has_insert_self nonnull
      refine ⟨⟨model, Dict.ascending_insert _ _ ordered, there⟩, ?_, rfl⟩
      have plain := get?_plain { source with data := source.data.insert stop.column key }
        (Include.depthOf stop.asked.children) stamps.plain filed (Dict.get?_insert_self ..)
      exact has_fields_ofRecord stamps.plain
        (ascending_plain _ (Dict.ascending_insert _ _ ordered)) ⟨key, plain, nonnull⟩
  | @record fields ordered =>
      have written : Record.Has (Draft.ofRecord stop.target
          (fields.insert stop.column key)).fields stop.column :=
        has_fields_ofRecord stamps.plain (Dict.ascending_insert _ _ ordered)
          (Record.has_insert_self nonnull)
      rw [supply, Action.bind_run_ok (builds _ _)] at made
      cases made
      refine ⟨⟨rfl, ?_, written⟩, written, rfl⟩
      rw [Draft.fields_ofRecord]
      exact Dict.ascending_ofList _
  | key value =>
      -- a bare key is attached as it is
      rw [supply, Action.bind_run_ok (builds _ _)] at made
      cases made
      simp [attachesOnly, Dict.keys] at writes

/-- Connecting a row under a label leaves it its value where no other key goes into the
column. -/
theorem rowUpholds_carries {m : Model} {column label : String} (linked : Linked Row)
    (apart : ∀ a, m.association? label = some a → a.kind = .belongsTo →
      r.foreignKey m a ≠ column) :
    RowUpholds (Row.Carries m column) (Sound r) (Linking.setAssociation label linked) := by
  intro row e ⟨carries, sound⟩
  have after := (upkeep_sound r).connect row label linked e sound
  cases run : Linking.setAssociation label linked row e with
  | mk left e' =>
      obtain ⟨result, row'⟩ := left
      rw [run] at after
      cases result with
      | error err => exact after
      | ok _ =>
          refine ⟨Linking.carries_of_setAssociation carries ?_ run, after⟩
          rw [sound.1]
          exact apart

/-- An association that a row belongs to through a column stands back where the column is
written with the row. -/
theorem apart_of_free {m : Model} {label column : String} {a : Association} {draft : Draft}
    (has : Record.Has draft.fields column) (found : m.association? label = some a)
    (free : keyIsWritten a (r.foreignKey m a) draft = false) :
    ∀ b, m.association? label = some b → b.kind = .belongsTo → r.foreignKey m b ≠ column := by
  rintro b same kind rfl
  obtain rfl := Option.some.inj (found.symm.trans same)
  obtain ⟨v, present⟩ := Record.has_iff_present?.mp has
  simp [keyIsWritten, kind, present] at free

/-- A row that carries a value is not refused for want of it on its own walk. -/
theorem Site.not_misses_of_refused {site : Site Engine} {column : String} {refusal : Refusal}
    (sound : Sound r site.store) (carries : site.row.Carries site.model column)
    (has : Record.Has site.draft.fields column)
    (declared : (site.model.attribute? column).isSome = true)
    (refused : site.Refused r options refusal) : ¬ refusal.Misses column := by
  cases refused with
  | @connecting stop items rows s s' stops made refused =>
      obtain ⟨keyed, arrives, given, association, registered, free⟩ := stops
      have writes (pk : String) (i : Include) : RowUpholds (Row.Carries site.model column) (Sound r)
          (writeOne r options site.model site.draft site.mode pk i) :=
        (upkeep_sound r).writeOne _ _ _ _ i fun a found free linked =>
          rowUpholds_carries linked (apart_of_free has found free)
      obtain ⟨carries, sound⟩ := arrives.upheld (writes _) ⟨carries, sound⟩
      refine Linking.not_misses_of_setAssociation carries ?_ declared refused
      rw [(sound.mapM_make made).1]
      exact apart_of_free has association free
  | rereading keyed walked refused => exact absurd refused (Linking.reload_ne_refused _ _ _ refusal)

/-- A row supplied at a stop that stamps keys is not refused for want of the key. -/
theorem Visit.not_misses_of_refused {visit : Visit Engine} {refusal : Refusal}
    (sound : Sound r visit.store)
    (registered : r.get? visit.target.name = some visit.target) (stamps : visit.Stamps)
    (fits : visit.item.Fits visit.target) (refused : visit.Refused r options refusal) :
    ¬ refusal.Misses visit.column := by
  rw [← sound.1] at registered
  cases refused with
  | saving writes refused =>
      obtain ⟨carries, _⟩ := writes.carries stamps fits registered
      exact Linking.not_misses_of_save stamps.declared carries refused
  | walking descends refused =>
      obtain ⟨writes, saved, _⟩ := descends
      obtain ⟨carries, has, rfl⟩ := writes.carries stamps fits registered
      have stored := Linking.carries_of_save stamps.declared carries sound.2 saved
      exact Site.not_misses_of_refused (sound.save saved) stored has stamps.declared refused

/-- The walk of a site comes to rows of registered targets, with the store still sound. -/
theorem Site.Reaches.sound (named : r.Named) {site : Site Engine} {path : List String}
    {visit : Visit Engine} (reaches : site.Reaches r options path visit)
    (sound : Sound r site.store) :
    Sound r visit.store ∧ r.get? visit.target.name = some visit.target :=
  ⟨reaches.upheld (upkeep_sound r) sound, reaches.registered named⟩

end Cascade

namespace Repository

/-- Where a row is created with its related rows, no supplied row is refused for want of the
key of a row that the same call has created, at whatever depth: neither where it is stored nor
later on its own walk. This holds of every include whose targets hold the key in an attribute
that no association answers to, if what is supplied for it fits. Nothing else makes the call
fail with a validation error than the refusal of the row itself or of a row that its walk has
come to. -/
theorem create_stamps_keys (repo : Repository) (q : Query) (draft : Draft)
    (options : PersistOptions) (e : Engine) (named : repo.registry.Named)
    (shared : e.registry = repo.registry) (ordered : e.Ordered) :
    let site (row : Row) (e' : Engine) : Cascade.Site Engine :=
      ⟨repo.model, draft, .create, q.descriptor.includes, row, e'⟩
    let created := Backend.create repo.model draft.fields options.toWrite e
    (∀ row e', created = (.ok row, e') → ∀ path visit refusal,
      (site row e').Reaches repo.registry options path visit →
      visit.Refused repo.registry options refusal →
      visit.Stamps → visit.item.Fits visit.target →
        let err := (ValidationError.ofRefusal visit.target refusal).prefixed path
        ∀ item ∈ err.errorsFor (ValidationError.pathPrefix path ++ visit.column),
          item.kind ≠ "attribute.required") ∧
    ∀ err, (repo.create q draft options e).1 = .error (.validation err) →
      (∃ refusal, created.1 = .error (.validation refusal) ∧ err = .ofRefusal repo.model refusal) ∨
        ∃ row e', created = (.ok row, e') ∧ (site row e').Blames repo.registry options err := by
  intro site created
  constructor
  · intro row e' done path visit refusal reaches refused stamps fits err item listed required
    have sound : Cascade.Sound repo.registry created.2 :=
      Cascade.Sound.create ⟨shared, ordered⟩ _ _ _
    rw [done] at sound
    obtain ⟨sound, registered⟩ := reaches.sound named sound
    have misses := ValidationError.misses_of_errorsFor listed required
    exact visit.not_misses_of_refused sound registered stamps fits refused misses
  · intro err failed
    rcases Action.bind_error failed with uncreated | ⟨row, e', done, failed⟩
    · obtain ⟨error, refused, known⟩ := mapError_eq_error_iff.mp uncreated
      obtain ⟨refusal, rfl, rfl⟩ := Failure.ofStorage_eq_validation known
      exact .inl ⟨refusal, refused, rfl⟩
    · refine .inr ⟨row, e', Run.ofAction_ok_iff.mp done, ?_⟩
      rw [cascade] at failed
      split at failed
      · exact (site row e').blames_of_walk Engine.buildsFreely (Run.onRow_error_iff.mp failed)
      · cases failed

section Pets

/-- Pets hold the key of their owner. -/
def hasPets : Association :=
  { key := "pets", kind := .hasMany, target := "Pet", foreignKey := some "ownerId" }

/-- An owner of pets. -/
def owner : Model :=
  { name := "Owner", attributes := [.identity "id"], associations := [hasPets] }

/-- A pet needs an owner and a name, and may have a sitter. -/
def pet : Model :=
  { name := "Pet"
    attributes := [.identity "id", { name := "name" }, { name := "ownerId", dataType := .integer },
      { name := "sitterId", dataType := .integer, allowNull := true }]
    associations :=
      [{ key := "sitter", kind := .belongsTo, target := "Owner", foreignKey := some "sitterId" }] }

/-- A license is for a sitter, in a column that is named as the one for the owner of a pet. -/
def license : Model :=
  { name := "License"
    attributes := [.identity "id", { name := "ownerId", dataType := .integer }]
    associations :=
      [{ key := "sitter", kind := .belongsTo, target := "Owner", foreignKey := some "ownerId" }] }

def pets : Registry :=
  [("License", license), ("Owner", owner), ("Pet", pet)]

def owners : Repository :=
  { registry := pets, model := owner }

/-- The pets of an owner, with their sitters. -/
def petsWithSitters : Include :=
  .nested { target := "Pet", label := "pets" } { model := "Pet" }
    [.plain { target := "Owner", label := "sitter" }]

def ownersWithPets : Query where
  registry := pets
  model := owner
  descriptor := { selection := { model := "Owner" }, includes := [petsWithSitters] }

/-- An owner with one pet. -/
def ownerOf (item : Item) : Draft where
  associations := [("pets", .many [item])]

/-- The first owner that is stored. -/
def firstOwner : Row :=
  { model := owner, data := [("id", .ofInt 1)] }

def kennel : Engine :=
  Engine.ofRegistry pets

/-- The store with the first owner in it. -/
def kennelOfOne : Engine :=
  (Engine.create owner [] {} kennel).2

/-- The walk of the first owner. -/
def ownerSite (item : Item) : Cascade.Site Engine :=
  ⟨owner, ownerOf item, .create, [petsWithSitters], firstOwner, kennelOfOne⟩

/-- The place of the first pet in the walk of its owner. -/
def petVisit (item : Item) : Cascade.Visit Engine where
  asked := petsWithSitters
  association := hasPets
  target := pet
  column := "ownerId"
  pk := "id"
  source := firstOwner
  mode := .create
  item := item
  store := kennelOfOne

theorem reaches_pet (item : Item) :
    (ownerSite item).Reaches pets {} ["pets"] (petVisit item) := by
  have stops : (ownerSite item).Stops pets {} (petVisit item).toStop [item] kennelOfOne :=
    @Cascade.Site.Stops.intro Engine _ pets {} (ownerSite item) "id" petsWithSitters firstOwner
      kennelOfOne (.many [item]) hasPets pet rfl (.first ..) rfl rfl rfl rfl
  exact .here (.intro stops (.first ..))

theorem stamps_pet (item : Item) : (petVisit item).Stamps :=
  ⟨rfl, rfl, ⟨.ofInt 1, rfl⟩, rfl, rfl⟩

theorem named_pets : pets.Named :=
  ((Registry.named_nil.register (m := license) rfl).register (m := owner) rfl).register
    (m := pet) rfl

/-- What a pet without a name is refused with. -/
def unnamedPet : Refusal :=
  ⟨"Validation error", [⟨"name", .notNull, "Pet.name cannot be null"⟩]⟩

/-- A pet that is supplied without anything lacks a name, and no owner. -/
theorem create_stamps_keys_unnamed :
    let err := (ValidationError.ofRefusal pet unnamedPet).prefixed ["pets"]
    (owners.create ownersWithPets (ownerOf (.record [])) {} kennel).1 = .error (.validation err) ∧
      err.failingKeys = ["pets.name"] ∧
      ∀ item ∈ err.errorsFor "pets.ownerId", item.kind ≠ "attribute.required" := by
  refine ⟨by rfl, rfl, ?_⟩
  refine (create_stamps_keys owners ownersWithPets (ownerOf (.record [])) {} kennel named_pets rfl
    (Engine.ordered_ofRegistry pets)).1 firstOwner kennelOfOne rfl ["pets"] _ unnamedPet
    (reaches_pet (.record [])) ?_ (stamps_pet _) (.record Dict.ascending_nil)
  exact .saving (.intro rfl rfl rfl) rfl

/-- A license that is supplied in place of a pet. -/
def misfiled : Row :=
  { model := license, data := [("sitter", .null)], isNew := true }

/-- The license as it is to be stored, with the key of the owner written in advance. -/
def stampedLicense : Row :=
  { misfiled with data := misfiled.data.insert "ownerId" (.ofInt 1) }

/-- The license as it was stored. -/
def storedLicense : Row :=
  { model := license, data := [("id", .ofInt 1), ("ownerId", .ofInt 1)] }

/-- The store with the license in it, too. -/
def kennelOfTwo : Engine :=
  (Linking.save true stampedLicense kennelOfOne).2

/-- The walk of the license, as that of a pet. -/
def licenseSite : Cascade.Site Engine :=
  ⟨pet, Draft.ofRecord pet stampedLicense.data, .create, petsWithSitters.children, storedLicense,
    kennelOfTwo⟩

theorem descends_license : (petVisit (.row misfiled)).Descends {} licenseSite :=
  @Cascade.Visit.Descends.intro Engine _ {} (petVisit (.row misfiled)) stampedLicense storedLicense
    stampedLicense.data kennelOfOne kennelOfTwo (.intro rfl rfl rfl) rfl rfl

/-- What the license is refused with: connecting it with no sitter takes the key away that was
written in advance. -/
def unowned : Refusal :=
  ⟨"Validation error", [⟨"ownerId", .notNull, "License.ownerId cannot be null"⟩]⟩

/-- A row of some other model than that of the include may be refused for want of the key. -/
theorem create_misses_key_of_misfiled :
    let err := (ValidationError.ofRefusal pet unowned).prefixed ["pets"]
    Backend.create owner [] ({} : PersistOptions).toWrite kennel = (.ok firstOwner, kennelOfOne) ∧
      (ownerSite (.row misfiled)).Reaches pets {} ["pets"] (petVisit (.row misfiled)) ∧
      (petVisit (.row misfiled)).Stamps ∧ (petVisit (.row misfiled)).Refused pets {} unowned ∧
      (owners.create ownersWithPets (ownerOf (.row misfiled)) {} kennel).1 =
        .error (.validation err) ∧
      ⟨"attribute.required", "License.ownerId cannot be null"⟩ ∈ err.errorsFor "pets.ownerId" := by
  refine ⟨rfl, reaches_pet _, stamps_pet _, ?_, by rfl, by decide⟩
  refine .walking descends_license ?_
  have stops := @Cascade.Site.Stops.intro Engine _ pets {} licenseSite "id" _ storedLicense
    kennelOfTwo .none _ owner rfl (.first ..) rfl rfl rfl rfl
  exact .connecting stops rfl rfl

end Pets

end Repository

end RecordGraph
