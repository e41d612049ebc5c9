import RecordGraph.Proofs.Store.Anchoring
import RecordGraph.Proofs.Store.RowWrites

/-!
# Live rows that stay

Storing and connecting rows hide nothing and delete nothing but the pairs of a join table. What they
may do to a live row is to give it another key: connecting does where the key of the row is the
column that is connected through, and storing a row over it leaves the key that was given, which
equals its own. So a live row with a key stays one, unless keys are given that do not equal this
one although something equals both, as a floating-point number may for two large integers.
-/

namespace RecordGraph

open Linking

/-- A live row has a key. -/
def Table.HasLive (pk : String) (key : Value) (t : Table) : Prop :=
  ∃ record ∈ t.liveRecords, holdsAny record pk [key] = true

/-- Nothing equals both of two values unless they are equal. -/
def Value.Discernible (v w : Value) : Prop :=
  ∀ u : Value, u.same v = true → u.same w = true → w.same v = true

/-- Connecting a source by an association writes another column of a table than a certain one,
and takes no rows out of it. -/
def Linking.Retaining (r : Registry) (source : Model) (a : Association) (target : Model)
    (name column : String) : Prop :=
  anchorTable source a target = some name →
    a.kind ≠ .belongsToMany ∧ r.foreignKey source a ≠ column

namespace Command

variable {e : Engine} {c : Command} {m : Model} {row : Row} {pk : String} {key : Value}

/-- A live row of a model that is written over keeps its key. -/
theorem Rewrites.keeps {stored : StoredRow} {image : Option StoredRow}
    (written : c.Rewrites e m.name (some stored) image) (keyed : Loading.primaryKey m = .ok pk)
    (on : c.row? = some row) (own : row.model.name = m.name → row.model = m)
    (ordered : row.data.Ascending)
    (retaining : ∀ label linked a target, c = .setAssociation row label linked →
      row.model.association? label = some a → e.registry.get? a.target = some target →
        Retaining e.registry row.model a target m.name pk)
    (discernible : row.model.name = m.name → ∀ v, row.get? pk = some v → key.Discernible v)
    (holds : stored.hidden = false ∧ holdsAny stored.data pk [key] = true) :
    ∃ after, image = some after ∧ after.hidden = false ∧ holdsAny after.data pk [key] = true := by
  have declared := Loading.isSome_attribute?_primaryKey keyed
  obtain ⟨visible, holds⟩ := holds
  have kept {after : StoredRow} (same : after.data.get? pk = stored.data.get? pk) :
      holdsAny after.data pk [key] = true := by
    rwa [holdsAny, same]
  -- the row that is written over equals both keys
  have given {source : Record} {v : Value} (sorted : source.Ascending)
      (present : Value.present? (source.get? pk) = some v) (same : source.get? pk = row.get? pk)
      (has : stored.has pk v = true) (here : row.model.name = m.name) :
      holdsAny (stored.extend (Table.declared m source)).data pk [key] = true := by
    obtain ⟨known, nonnull⟩ := Value.present?_eq_some_iff.mp present
    obtain ⟨u, there, equal⟩ := (Table.has_eq_true_iff nonnull).mp has
    obtain ⟨u', there', k, among, equal'⟩ := holdsAny_eq_true_iff.mp holds
    obtain rfl := List.mem_singleton.mp among
    rw [(Value.present?_eq_some_iff.mp there).1] at there'
    cases there'
    have final := Model.get?_extend_declared stored sorted declared known
    exact holdsAny_eq_true_iff.mpr ⟨v, final, k, among,
      discernible here v (same ▸ known) u equal' equal⟩
  generalize filed : m.name = name at written
  cases written with
  | overwritten old keyed' present found =>
      cases on
      obtain rfl := own filed.symm
      obtain rfl := Except.ok.inj (keyed.symm.trans keyed')
      have has := List.find?_some found
      exact ⟨_, rfl, visible, given ordered present rfl has rfl⟩
  | held ends kind set keyed' present found =>
      cases on
      obtain rfl := own filed.symm
      obtain rfl := Except.ok.inj (keyed.symm.trans keyed')
      obtain ⟨-, ne⟩ := retaining _ _ _ _ rfl ends.association ends.registered
        (by rw [anchorTable, kind])
      subst set
      have has := List.find?_some found
      exact ⟨_, rfl, visible, given (Dict.ascending_insert _ _ ordered) present
        (Dict.get?_insert_of_ne _ _ ne.symm) has rfl⟩
  | pointed ends kind =>
      cases on
      obtain ⟨-, ne⟩ := retaining _ _ _ _ rfl ends.association ends.registered
        (filed ▸ anchorTable_of_owned kind)
      exact ⟨_, rfl, by rw [pointRow_hidden, visible], kept (pointRow_get? ne.symm)⟩
  | unpaired ends kind _ join =>
      cases on
      obtain ⟨other, -⟩ := retaining _ _ _ _ rfl ends.association ends.registered
        (by simp only [anchorTable, kind, join, filed])
      exact absurd kind other

/-- So a key that a live row of a model has stays that of a live row when a row is stored or
connected. -/
theorem hasLive_perform (keyed : Loading.primaryKey m = .ok pk) (on : c.row? = some row)
    (own : row.model.name = m.name → row.model = m) (ordered : row.data.Ascending)
    (retaining : ∀ label linked a target, c = .setAssociation row label linked →
      row.model.association? label = some a → e.registry.get? a.target = some target →
        Retaining e.registry row.model a target m.name pk)
    (discernible : row.model.name = m.name → ∀ v, row.get? pk = some v → key.Discernible v)
    (live : (e.database.openTable m.name).HasLive pk key) :
    ((c.perform e).2.database.openTable m.name).HasLive pk key := by
  refine openTable_perform (P := Table.HasLive pk key) on live fun t sets => ?_
  obtain ⟨record, member, has⟩ := live
  obtain ⟨stored, among, visible, rfl⟩ := Table.mem_liveRecords_iff.mp member
  obtain ⟨after, there, visible, has⟩ := sets.shifts.exists_row
    (Q := fun stored => stored.hidden = false ∧ holdsAny stored.data pk [key] = true)
    (fun _ _ written => written.keeps keyed on own ordered retaining discernible)
    ⟨stored, among, visible, has⟩
  exact ⟨after.data, Table.mem_liveRecords_iff.mpr ⟨after, there, visible, rfl⟩, has⟩

end Command

end RecordGraph
