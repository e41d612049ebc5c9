import RecordGraph.Proofs.Store.Command
import RecordGraph.Proofs.Store.Keys
import RecordGraph.Proofs.Store.Linking

/-!
# Connecting a row writes the row in memory

To connect a row that belongs to another, its key column is changed in memory and then the
row is stored over the one of its key, the whole of it. One stored row changes, and it holds
afterwards what the row in memory holds under every declared column. So the key column is the
only one to change exactly where the row in memory has no other value than the stored row: a
value that was changed in memory only, or in the store only, is written with it.
-/

namespace RecordGraph

/-- One row of a table has got another record where it stands. All other rows and all other
tables are as before. -/
structure Engine.RowChange (e e' : Engine) (name : String) (index : Nat) (stored : StoredRow)
    (record : Record) : Prop where
  found : (e.database.openTable name).rows[index]? = some stored
  changed : (e'.database.openTable name).rows[index]? = some { stored with data := record }
  others : ∀ i, i ≠ index →
    (e'.database.openTable name).rows[i]? = (e.database.openTable name).rows[i]?
  counter : (e'.database.openTable name).counter = (e.database.openTable name).counter
  elsewhere : ∀ other, other ≠ name →
    e'.database.openTable other = e.database.openTable other

variable {e e' : Engine} {m : Model} {index : Nat} {data record : Record} {stored : StoredRow}

/-- Updating one row changes this row, by the declared entries that are written. -/
theorem Engine.rowChange_updateAt {validate : Bool} {t : Table}
    (done : (e.database.openTable m.name).updateAt m validate index data = .ok (record, t)) :
    ∃ stored, record = (stored.extend (Table.declared m data)).data ∧
      e.RowChange (e.setTable m.name t) m.name index stored record := by
  obtain ⟨stored, found, _, rfl, rfl⟩ := Table.updateAt_ok done
  obtain ⟨inside, _⟩ := List.getElem?_eq_some_iff.mp found
  refine ⟨stored, rfl, found, ?_, fun i ne => ?_, ?_, fun other ne => ?_⟩
  · rw [Engine.setTable, Database.openTable_setTable_self]
    exact List.getElem?_set_self inside
  · rw [Engine.setTable, Database.openTable_setTable_self]
    exact List.getElem?_set_ne (Ne.symm ne)
  · rw [Engine.setTable, Database.openTable_setTable_self]
  · exact Database.openTable_setTable_of_ne _ _ ne

/-- Declared entries leave columns of a row as they are exactly where the row has them. -/
theorem Model.extend_keeps_iff (P : String → Prop) (ordered : data.Ascending) :
    (∀ name, P name →
        (stored.extend (Table.declared m data)).data.get? name = stored.data.get? name) ↔
      ∀ name, P name → (m.attribute? name).isSome = true →
        ∀ v, data.get? name = some v → stored.data.get? name = some v := by
  refine forall₂_congr fun name _ => ?_
  rw [get?_extend stored ordered, get?_declared]
  split
  · next declared =>
    cases given : data.get? name with
    | none => simp
    | some v => simp [declared, eq_comm]
  · next undeclared => simp [undeclared]

namespace Linking

variable {row row' : Row} {label : String} {linked : Linked Row} {a : Association}

/-- A row that belongs to another is connected by one change of a stored row, the one with
the key that the row has in memory. If its key column is declared it holds the key of the
connected row afterwards, or null for none. It is the only column to change exactly where the
row in memory has nothing under the other declared columns but what is stored. -/
theorem setAssociation_changes_column_iff
    (association : row.model.association? label = some a) (kind : a.kind = .belongsTo)
    (ordered : row.data.Ascending)
    (done : setAssociation label linked row e = ((.ok (), row'), e')) :
    ∃ target pk wanted key index stored record,
      Ends e.registry row label linked a target pk wanted ∧
      sourceKey row.model row'.data = .ok key ∧
      (e.database.openTable row.model.name).position? row.model key = .ok (some index) ∧
      e.RowChange e' row.model.name index stored record ∧
      ((row.model.attribute? (e.registry.foreignKey row.model a)).isSome = true →
        record.get? (e.registry.foreignKey row.model a) = some (wanted.head?.getD .null)) ∧
      ((∀ name, name ≠ e.registry.foreignKey row.model a →
          record.get? name = stored.data.get? name) ↔
        ∀ name, name ≠ e.registry.foreignKey row.model a →
          (row.model.attribute? name).isSome = true →
            ∀ v, row.get? name = some v → stored.data.get? name = some v) := by
  obtain ⟨connected, connects, rfl⟩ := setAssociation_ok_iff.mp done
  obtain ⟨b, target, pk, wanted, ends, connects⟩ := connect_ok connects
  obtain rfl := Option.some.inj (association.symm.trans ends.association)
  cases connects with
  | pointed owned =>
      rw [kind] at owned
      cases owned
  | paired joined =>
      rw [kind] at joined
      cases joined
  | @belongsTo key index record t _ source place written =>
      obtain ⟨stored, rfl, change⟩ := Engine.rowChange_updateAt written
      generalize e.registry.foreignKey row.model a = column at source written change ⊢
      have inMemory : (row.data.insert column (wanted.head?.getD .null)).Ascending :=
        Dict.ascending_insert _ _ ordered
      refine ⟨target, pk, wanted, key, index, stored, _, ends, source, place, change, ?_, ?_⟩
      · exact fun declared =>
          Model.get?_extend_declared stored inMemory declared (Dict.get?_insert_self ..)
      · refine (Model.extend_keeps_iff _ inMemory).trans (forall₂_congr fun name ne => ?_)
        rw [Dict.get?_insert_of_ne _ _ ne]
        rfl

section Draft

/-- The writer of a post, held by the post. -/
def writtenBy : Association :=
  { key := "author", kind := .belongsTo, target := "User" }

def user : Model :=
  { name := "User", attributes := [.identity "id"] }

def post : Model :=
  { name := "Post"
    attributes :=
      [.identity "id", { name := "title", allowNull := true },
        { name := "authorId", dataType := .integer, allowNull := true }]
    associations := [writtenBy] }

/-- A user and two posts without one. -/
def posts : Engine :=
  Command.run
    [.create user [] {}, .create post [("title", .str "draft")] {},
      .create post [("title", .str "notes")] {}]
    (Engine.ofRegistry [("Post", post), ("User", user)])

def ada : Row :=
  { model := user, data := [("id", .ofInt 1)] }

/-- The first post as it was created. -/
def draft : Row :=
  { model := post, data := [("authorId", .null), ("id", .ofInt 1), ("title", .str "draft")] }

/-- A post that is in memory as it is stored gets an author and keeps its title. -/
theorem setAssociation_changes_column_fresh :
    let run := setAssociation "author" (.one ada) draft posts
    run.1.1 = .ok () ∧ ∃ stored record, posts.RowChange run.2 "Post" 0 stored record ∧
      record.get? "authorId" = some (.ofInt 1) ∧
      ∀ name, name ≠ "authorId" → record.get? name = stored.data.get? name := by
  intro run
  have done : setAssociation "author" (.one ada) draft posts = ((.ok (), run.1.2), run.2) := rfl
  obtain ⟨target, pk, wanted, key, index, stored, record, ends, source, place, change, written,
    keeps⟩ := setAssociation_changes_column_iff (a := writtenBy) rfl rfl (by decide) done
  cases ends.registered
  cases ends.primaryKey
  cases ends.keys
  cases source
  cases place
  cases change.found
  exact ⟨rfl, _, _, change, written rfl, keeps.mpr fun _ _ _ _ given => given⟩

/-- A post that got another title in the store gets the one in memory back with its author. -/
theorem setAssociation_restores_title :
    let e := Command.run [.update post [("title", .str "final")] { filter := [("id", .ofInt 1)] }]
      posts
    let run := setAssociation "author" (.one ada) draft e
    run.1.1 = .ok () ∧
      (e.database.openTable "Post").rows.map (·.data.get? "title") =
        [some (.str "final"), some (.str "notes")] ∧
      (run.2.database.openTable "Post").rows.map (·.data.get? "title") =
        [some (.str "draft"), some (.str "notes")] :=
  ⟨rfl, rfl, rfl⟩

end Draft

end Linking

end RecordGraph
