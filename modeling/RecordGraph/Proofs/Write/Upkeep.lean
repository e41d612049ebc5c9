import RecordGraph.Proofs.Store.Command
import RecordGraph.Proofs.Write.Invariant
import RecordGraph.Write.Repository

/-!
# What a walk keeps

Walking the includes of a query makes rows, stores them, connects them, and reads them
again. A property of the store that storing and connecting keep is kept by the whole walk,
at every depth, whether it fails or not. Of the row in hand, a walk changes nothing but by
connecting it and by reading it again, so a property of the row is kept if these keep it.
-/

namespace RecordGraph

variable {σ ε α β : Type} {P : Row → Prop} {J : σ → Prop}

/-- Work leads from states with a property to such states, whether it fails or not. -/
def Upholds (J : σ → Prop) (x : ExceptT ε (StateM σ) α) : Prop :=
  ∀ s, J s → J (x s).2

/-- Work on a row does the same, and as long as it goes on it keeps a property of the row. -/
def RowUpholds (P : Row → Prop) (J : σ → Prop) (x : ExceptT ε (StateT Row (StateM σ)) α) :
    Prop :=
  RowKeeps (fun row s => P row ∧ J s) J x

section Upholds

variable {x : ExceptT ε (StateM σ) α} {f : α → ExceptT ε (StateM σ) β}

theorem Leaves.upholds (h : Leaves x) : Upholds J x := by
  intro s holds
  rw [h s]
  exact holds

theorem Upholds.after {s s' : σ} {result : Except ε α} (upholds : Upholds J x) (holds : J s)
    (run : x s = (result, s')) : J s' := by
  have left := upholds s holds
  rwa [run] at left

theorem upholds_pure (a : α) : Upholds J (pure a : ExceptT ε (StateM σ) α) :=
  (leaves_pure a).upholds

theorem Upholds.bind (first : Upholds J x) (rest : ∀ a, Upholds J (f a)) :
    Upholds J (x >>= f) := by
  intro s holds
  rw [Action.bind_run]
  cases (x s).1 with
  | error err => exact first s holds
  | ok a => exact rest a _ (first s holds)

theorem Upholds.mapM_of_mem {items : List α} (each : ∀ a ∈ items, Upholds J (f a)) :
    Upholds J (items.mapM f) := by
  induction items with
  | nil => exact upholds_pure []
  | cons a rest ih =>
      obtain ⟨here, later⟩ := List.forall_mem_cons.mp each
      rw [List.mapM_cons]
      exact here.bind fun b => (ih later).bind fun _ => upholds_pure _

theorem Upholds.mapM (each : ∀ a, Upholds J (f a)) (items : List α) :
    Upholds J (items.mapM f) :=
  mapM_of_mem fun a _ => each a

end Upholds

theorem RowUpholds.after {x : ExceptT ε (StateT Row (StateM σ)) α} {row row' : Row} {s s' : σ}
    {a : α} (upholds : RowUpholds P J x) (holds : P row ∧ J s)
    (run : x row s = ((.ok a, row'), s')) : P row' ∧ J s' := by
  have left := upholds row s holds
  rwa [run] at left

/-- The property of the state is kept in any case. -/
theorem RowUpholds.state {x : ExceptT ε (StateT Row (StateM σ)) α} {row : Row} {s : σ}
    (upholds : RowUpholds P J x) (own : P row) (holds : J s) : J (x row s).2 := by
  have left := upholds row s ⟨own, holds⟩
  cases result : (x row s).1.1 with
  | error err =>
      rw [result] at left
      exact left
  | ok a =>
      rw [result] at left
      exact left.2

theorem RowUpholds.onRow_of {x : RowRun σ Unit} {row : Row} (h : RowUpholds P J x)
    (own : P row) : Upholds J (Run.onRow row x) :=
  fun _ holds => h.state own holds

theorem RowUpholds.onRow {x : RowRun σ Unit} (row : Row)
    (h : RowUpholds (fun _ => True) J x) : Upholds J (Run.onRow row x) :=
  h.onRow_of trivial

theorem RowUpholds.mapFailure {x : RowRun σ α} (change : Failure → Failure)
    (h : RowUpholds P J x) : RowUpholds P J (RowRun.mapFailure change x) := by
  intro row s holds
  have after := h row s holds
  rw [RowRun.mapFailure]
  generalize x row s = run at after ⊢
  obtain ⟨⟨result, row'⟩, s'⟩ := run
  cases result <;> exact after

theorem Upholds.ofRun {x : Run σ α} (h : Upholds J x) : RowUpholds P J (RowRun.ofRun x) := by
  intro row s ⟨own, holds⟩
  have after := h s holds
  rw [RowRun.ofRun]
  generalize x s = run at after ⊢
  obtain ⟨result, s'⟩ := run
  cases result with
  | error err => exact after
  | ok a => exact ⟨own, after⟩

namespace Cascade

variable {J : Engine → Prop}

/-- A property of the store that storing a row and connecting one keep. -/
structure Upkeep (J : Engine → Prop) : Prop where
  save : ∀ row validate e, J e → J (Linking.save validate row e).2
  connect : ∀ row label linked e, J e → J (Linking.setAssociation label linked row e).2

/-- What commands keep, storing and connecting keep. -/
theorem upkeep_of_transition (keeps : ∀ {e c left}, Command.Transition e c left → J e → J left.2) :
    Upkeep J where
  save row validate _ := keeps (Command.transition_save row validate)
  connect row label linked _ := keeps (Command.transition_setAssociation row label linked)

/-- Connecting and storing rows does not touch the registry. -/
theorem upkeep_registry (r : Registry) : Upkeep (fun e => e.registry = r) :=
  upkeep_of_transition fun transition known => transition.registry.trans known

/-- Work on rows that keeps a property of the store from every row. -/
theorem rowUpholds_of_all {x : ExceptT ε (StateT Row (StateM σ)) α} {J : σ → Prop}
    (h : ∀ row s, J s → J (x row s).2) : RowUpholds (fun _ => True) J x := by
  intro row s ⟨_, holds⟩
  have after := h row s holds
  cases (x row s).1.1 with
  | error err => exact after
  | ok a => exact ⟨trivial, after⟩

theorem upholds_build (m : Model) (data : Record) (isNew : Bool) :
    Upholds J (Engine.build m data isNew) := by
  intro e holds
  rw [Engine.build, Action.bind_leaves fun _ _ => rfl, Engine.handOut_leaves]
  exact holds

theorem upholds_supply (target : Model) (pk : String) (depth : Nat) (stamp : Stamp)
    (item : Item) : Upholds J (supply target pk depth stamp item : Run Engine (Row × Record)) := by
  cases item with
  | row row => exact upholds_pure _
  | record fields => exact Upholds.bind (upholds_build _ _ _) fun _ => upholds_pure _
  | key key => exact Upholds.bind (upholds_build _ _ _) fun _ => upholds_pure _

variable {r : Registry} {options : PersistOptions} {m : Model} {draft : Draft} {mode : WriteMode}
variable {descend : Model → Draft → WriteMode → RowRun Engine Unit}

theorem Upkeep.coerce (keep : Upkeep J) (edge : Edge) (depth : Nat)
    (below : ∀ m d mode, RowUpholds (fun _ => True) J (descend m d mode)) (target : Model)
    (stamp : Stamp) (item : Item) :
    Upholds J (Cascade.coerce options edge depth descend target stamp item) := by
  rw [Cascade.coerce]
  refine (Upholds.bind (x := liftM (primaryKey target)) (fun _ holds => holds)) fun pk => ?_
  refine (upholds_supply target pk depth stamp item).bind fun made => ?_
  obtain ⟨row, record⟩ := made
  dsimp only
  split
  · exact upholds_pure row
  · refine RowUpholds.onRow row (RowKeeps.bind ?_ fun _ => ?_)
    · exact (rowUpholds_of_all fun row e => keep.save row _ e).ofAction _
    · dsimp only
      split
      · exact (below _ _ _).mapFailure _
      · exact rowKeeps_pure ()

/-- Writing an include keeps what holds of the row if connecting the row under its label
does; that happens only where no written key decides. -/
theorem Upkeep.writeEdge (keep : Upkeep J) (pk : String) (edge : Edge) (depth : Nat)
    (below : ∀ m d mode, RowUpholds (fun _ => True) J (descend m d mode))
    (own : ∀ a, m.association? edge.label = some a →
      keyIsWritten a (r.foreignKey m a) draft = false →
      ∀ linked, RowUpholds P J (Linking.setAssociation edge.label linked)) :
    RowUpholds P J (Cascade.writeEdge r options m draft mode pk edge depth descend) := by
  rw [Cascade.writeEdge]
  split
  · rename_i supplied a _ association
    split
    · exact rowKeeps_pure ()
    · rename_i target _
      dsimp only
      split
      · exact rowKeeps_pure ()
      · rename_i free
        refine rowKeeps_runRow.bind fun row => ?_
        refine RowKeeps.bind ?_ fun items => ?_
        · exact (Upholds.mapM (keep.coerce edge depth below target _) _).ofRun
        · exact (own a association (by simpa using free) _).ofAction _
  · exact rowKeeps_pure ()

theorem rowUpholds_reload (reread : ∀ row data related, P row → P { row with data, related })
    (request : Request.Reload) : RowUpholds P J (Linking.reload request) :=
  Linking.rowKeeps_reload (fun _ _ kept => kept.2)
    (fun row data related _ kept => ⟨reread row data related kept.1, kept.2⟩) request

theorem rowUpholds_enclose (reread : ∀ row data related, P row → P { row with data, related })
    {includes : List Include} {walk : String → RowRun Engine Unit}
    (walks : ∀ pk, RowUpholds P J (walk pk)) :
    RowUpholds P J (enclose options m includes walk) := by
  rw [enclose]
  split
  · exact rowKeeps_pure ()
  · refine (rowKeeps_lift (fun _ _ kept => kept.2) _).bind fun pk => ?_
    exact (walks pk).bind fun _ => (rowUpholds_reload reread _).ofAction _

mutual

/-- Walking a list of includes keeps what storing and connecting keep of the store, and of
the row what connecting it under their labels keeps. -/
theorem Upkeep.writeAll (keep : Upkeep J) (m : Model) (draft : Draft) (mode : WriteMode)
    (pk : String) : ∀ {P : Row → Prop} (includes : List Include),
      (∀ i ∈ includes, ∀ a, m.association? i.label = some a →
        keyIsWritten a (r.foreignKey m a) draft = false →
        ∀ linked, RowUpholds P J (Linking.setAssociation i.label linked)) →
      RowUpholds P J (Cascade.writeAll r options m draft mode pk includes)
  | _, [], _ => by
      rw [Cascade.writeAll]
      exact rowKeeps_pure ()
  | _, i :: rest, own => by
      obtain ⟨here, later⟩ := List.forall_mem_cons.mp own
      rw [Cascade.writeAll]
      exact (keep.writeOne m draft mode pk i here).bind fun _ =>
        keep.writeAll m draft mode pk rest later

theorem Upkeep.writeOne (keep : Upkeep J) (m : Model) (draft : Draft) (mode : WriteMode)
    (pk : String) : ∀ {P : Row → Prop} (i : Include),
      (∀ a, m.association? i.label = some a → keyIsWritten a (r.foreignKey m a) draft = false →
        ∀ linked, RowUpholds P J (Linking.setAssociation i.label linked)) →
      RowUpholds P J (Cascade.writeOne r options m draft mode pk i)
  | _, .plain edge, own => by
      rw [Cascade.writeOne]
      exact keep.writeEdge pk edge 0 (fun _ _ _ => rowKeeps_pure ()) own
  | _, .nested edge _ children, own => by
      rw [Cascade.writeOne]
      refine keep.writeEdge pk edge _ (fun target nested nestedMode => ?_) own
      refine rowUpholds_enclose (fun _ _ _ _ => trivial) fun nestedPk => ?_
      refine keep.writeAll target nested nestedMode nestedPk children ?_
      exact fun i _ _ _ _ linked => rowUpholds_of_all fun row e => keep.connect row i.label linked e

end

/-- A whole walk keeps of the store what storing and connecting keep. -/
theorem Upkeep.persist (keep : Upkeep J) (m : Model) (draft : Draft) (mode : WriteMode)
    (includes : List Include) :
    RowUpholds (fun _ => True) J (Cascade.persist r options m draft mode includes) := by
  refine rowUpholds_enclose (fun _ _ _ _ => trivial) fun pk => ?_
  refine keep.writeAll m draft mode pk includes ?_
  exact fun i _ _ _ _ linked => rowUpholds_of_all fun row e => keep.connect row i.label linked e

/-- So does writing the related rows of a row that a repository has stored. -/
theorem Upkeep.cascade (keep : Upkeep J) (repo : Repository) (q : Query) (draft : Draft)
    (mode : WriteMode) (row : Row) : Upholds J (repo.cascade q draft mode options row) := by
  rw [Repository.cascade]
  split
  · exact (keep.persist _ _ _ _).onRow row
  · exact upholds_pure row

end Cascade

end RecordGraph
