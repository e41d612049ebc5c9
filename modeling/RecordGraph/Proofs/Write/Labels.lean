import RecordGraph.Proofs.Data.Entries
import RecordGraph.Proofs.Schema.Names
import RecordGraph.Proofs.Store.Linking
import RecordGraph.Proofs.Store.Loading
import RecordGraph.Write.Cascade

/-!
# What is done under a label

Related rows are loaded, connected and written under a label, and a record is sorted into
columns and related rows by its labels. Each of these looks the label up anew. Where a label
leads to an association all of them go through this one (`Follows`), and what no association
answers to is a plain column of a draft.
-/

namespace RecordGraph

variable {r : Registry} {m : Model} {a : Association} {label : String}

/-- What is loaded, connected and written under a label is so through an association. -/
structure Follows (m : Model) (label : String) (a : Association) : Prop where
  /-- Loading answers records at the other end of the association. -/
  loaded {r : Registry} {d : Database} {data : Record} {i : Request.Include} {toMany : Bool}
    {rows : List Row} (asked : i.head.label = label)
    (done : Loading.one r d m data i = .ok (toMany, rows)) :
    toMany = a.kind.isToMany ∧ ∃ target records, r.get? i.head.model = some target ∧
      Loading.associated r d m a target data = .ok records ∧
      ∀ row ∈ rows, row.model = target ∧
        ∃ record ∈ records, Result.project record i.head.attributes = .ok row.data
  /-- Connecting writes in the way of the association, to the table of its target. -/
  linked {e e' : Engine} {row row' : Row} {linked : Linked Row} (model : row.model = m)
    (done : Linking.setAssociation label linked row e = ((.ok (), row'), e')) :
    ∃ target pk wanted connected, Linking.Ends e.registry row label linked a target pk wanted ∧
      Linking.Connects e row a target pk (e.registry.foreignKey m a) wanted connected e' ∧
      row' = connected.file label linked
  /-- Writing stamps the connecting column of the association into rows of its target. -/
  written {σ : Type} [Backend σ] {r : Registry} {options : PersistOptions} {draft : Draft}
    {mode : WriteMode} {pk : String} {edge : Edge} {depth : Nat}
    {descend : Model → Draft → WriteMode → RowRun σ Unit} {supplied : Linked Item}
    {target : Model} (asked : edge.label = label)
    (given : draft.associations.get? label = some supplied)
    (registered : r.get? a.target = some target) :
    Cascade.writeEdge r options m draft mode pk edge depth descend =
      if Cascade.keyIsWritten a (r.foreignKey m a) draft then pure ()
      else do
        let row ← RowRun.row
        let items ← RowRun.ofRun <| supplied.toList.mapM <|
          Cascade.coerce options edge depth descend target
            (Cascade.stamp mode a (r.foreignKey m a) pk row)
        RowRun.ofAction (Failure.ofStorage m) <|
          Backend.setAssociation label (.ofList a.kind.isToMany items) options.transaction

namespace Loading

variable {d : Database} {source target : Model} {data : Record}

/-- An include that could be loaded holds rows from the other end of its association. -/
theorem including_ok {head : Request.IncludeHead}
    {below : Model → Record → Except StorageError (Option (Dict (Linked Row)))}
    {toMany : Bool} {loaded : List Row} (found : source.association? head.label = some a)
    (done : including r d source data head below = .ok (toMany, loaded)) :
    toMany = a.kind.isToMany ∧ ∃ target records, r.get? head.model = some target ∧
      associated r d source a target data = .ok records ∧
      ∀ row ∈ loaded, row.model = target ∧
        ∃ record ∈ records, Result.project record head.attributes = .ok row.data := by
  obtain ⟨b, target, records, association, registered, reached, rfl, made⟩ :=
    exists_ends_of_including done
  obtain rfl := Option.some.inj (found.symm.trans (Linking.association_ok association))
  refine ⟨rfl, target, records, Linking.model_ok registered, reached, fun row member => ?_⟩
  obtain ⟨model, record, among, data, _⟩ := made row member
  exact ⟨model, record, among, data⟩

end Loading

/-- Every look-up of a label finds the same association. -/
theorem follows_of_association? (found : m.association? label = some a) : Follows m label a where
  loaded {_ _ _ i _ _} asked done := by
    subst asked
    cases i <;> exact Loading.including_ok found done
  linked model done := by
    subst model
    obtain ⟨connected, connects, filed⟩ := Linking.setAssociation_ok_iff.mp done
    obtain ⟨b, target, pk, wanted, ends, connects⟩ := Linking.connect_ok connects
    obtain rfl := Option.some.inj (found.symm.trans ends.association)
    exact ⟨target, pk, wanted, connected, ends, connects, filed⟩
  written asked given registered := by
    subst asked
    simp only [Cascade.writeEdge, given, found, registered]

namespace Draft

/-- Sorting a record files away what associations answer to; all other entries become
columns. -/
theorem fields_ofRecord (m : Model) (record : Record) :
    (ofRecord m record).fields =
      Dict.ofList (List.filter (fun entry => (m.association? entry.1).isNone) record) := by
  suffices from_draft : ∀ d : Draft, (record.foldl (addEntry m) d).fields =
      d.fields.extend (List.filter (fun entry => (m.association? entry.1).isNone) record) from
    from_draft {}
  induction record with
  | nil => exact fun _ => rfl
  | cons entry rest ih =>
      intro d
      rw [List.foldl_cons, ih, List.filter_cons]
      cases found : m.association? entry.1 <;> simp [addEntry, found, link, setField]

/-- Entries that no association answers to leave the related rows of a draft as they are. -/
theorem associations_ofRecord (m : Model) (record : Record) :
    (ofRecord m record).associations =
      (ofRecord m (List.filter (fun entry => (m.association? entry.1).isSome) record)).associations
    := by
  suffices from_draft : ∀ d c : Draft, d.associations = c.associations →
      (record.foldl (addEntry m) d).associations =
        ((List.filter (fun entry => (m.association? entry.1).isSome) record).foldl
          (addEntry m) c).associations from
    from_draft {} {} rfl
  induction record with
  | nil => exact fun _ _ same => same
  | cons entry rest ih =>
      intro d c same
      rw [List.foldl_cons, List.filter_cons]
      cases found : m.association? entry.1 with
      | none => exact ih _ _ (by simpa [addEntry, found, setField] using same)
      | some a => exact ih _ _ (by simp [addEntry, found, link, same])

/-- An entry under a name that no association answers to is a column of the draft, and has
no part in its related rows. -/
theorem plain_of_association? {name : String} (plain : m.association? name = none)
    {record : Record} (ordered : record.Ascending) :
    (ofRecord m record).fields.get? name = record.get? name ∧
      (ofRecord m (record.erase name)).associations = (ofRecord m record).associations := by
  constructor
  · rw [fields_ofRecord, Dict.ofList, Dict.get?_extend (Dict.ascending_filter _ ordered),
      Dict.get?_filter_keys fun key => (m.association? key).isNone]
    simp [plain]
  · rw [associations_ofRecord, associations_ofRecord m record, Dict.erase, List.filter_filter]
    congr 3
    funext entry
    by_cases same : entry.1 = name
    · simp [same, plain]
    · simp [same]

end Draft

/-- In a registered model it is the keys that decide whether names are unambiguous. Where
they stand apart, what is done under the alias of an association is done through it, and
what a record has under the name of an attribute is a plain column of its draft. -/
theorem Registry.names_of_register {r' : Registry} (done : r.register m = .ok r') :
    (m.Unambiguous ↔ m.KeysApart) ∧
      (m.KeysApart →
        (∀ a ∈ m.associations, Follows m a.canonicalAlias a) ∧
        ∀ column ∈ m.attributes, ∀ record : Record, record.Ascending →
          (Draft.ofRecord m record).fields.get? column.name = record.get? column.name ∧
            (Draft.ofRecord m (record.erase column.name)).associations =
              (Draft.ofRecord m record).associations) := by
  have distinct : m.declaredKeys.Nodup := Model.nodup_of_validate (validate_of_register done)
  have decided : m.Unambiguous ↔ m.KeysApart := Model.unambiguous_iff distinct
  refine ⟨decided, fun apart => ?_⟩
  have names : m.Unambiguous := decided.mpr apart
  constructor
  · intro a member
    exact follows_of_association? (names.aliases a member)
  · intro column member record ordered
    exact Draft.plain_of_association? (names.attributes column member) ordered

/-- The author of a book, who is its writer. -/
def Association.writer : Association :=
  { key := "author", kind := .belongsTo, target := "Person", declaredAlias := some "writer" }

/-- The owner of a book, under some alias. -/
def Association.owner (called : String) : Association :=
  { key := "owner", kind := .belongsTo, target := "Person", declaredAlias := some called }

/-- Books with a text column, a writer and an owner. -/
def Model.ownedBook (column called : String) : Model :=
  { name := "Book", attributes := [.identity "id", { name := column }],
    associations := [.writer, .owner called] }

/-- The books of a library with their two associations under aliases. -/
theorem Registry.names_of_register_library :
    register [] (.ownedBook "title" "library") = .ok [("Book", .ownedBook "title" "library")] ∧
      (Model.ownedBook "title" "library").Unambiguous ∧
      Follows (.ownedBook "title" "library") "writer" Association.writer ∧
      (Draft.ofRecord (.ownedBook "title" "library")
        [("author", .null), ("title", .str "Emma")]).fields.get? "title" = some (.str "Emma") := by
  have done : register [] (.ownedBook "title" "library") =
      .ok [("Book", .ownedBook "title" "library")] := rfl
  obtain ⟨decided, follows⟩ := names_of_register done
  have apart : (Model.ownedBook "title" "library").KeysApart := by decide
  obtain ⟨labels, columns⟩ := follows apart
  refine ⟨done, decided.mpr apart, labels Association.writer (by decide), ?_⟩
  exact (columns { name := "title" } (by simp [Model.ownedBook]) _ (by decide)).1

/-- A model is accepted although the alias of its second association, the key of the first,
leads to the first, and its column is taken for the second. -/
theorem Registry.register_crossedNames :
    register [] (.ownedBook "owner" "author") = .ok [("Book", .ownedBook "owner" "author")] ∧
      Association.owner "author" ∈ (Model.ownedBook "owner" "author").associations ∧
      (Model.ownedBook "owner" "author").association? (Association.owner "author").canonicalAlias =
        some Association.writer ∧
      Association.writer ≠ Association.owner "author" ∧
      "owner" ∈ (Model.ownedBook "owner" "author").attributes.map (·.name) ∧
      (Model.ownedBook "owner" "author").association? "owner" =
        some (Association.owner "author") := by
  refine ⟨rfl, ?_, ?_, ?_, ?_, ?_⟩ <;> decide

end RecordGraph
