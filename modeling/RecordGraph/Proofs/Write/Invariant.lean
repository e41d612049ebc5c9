import RecordGraph.Proofs.Store.Action
import RecordGraph.Store.Linking
import RecordGraph.Write.Run

/-!
# What work on rows keeps

Work that may fail halfway is followed with two properties: one of the row and the state,
which holds as long as the work goes on, and one of the state alone, which also holds where
the work has failed. Whatever puts works together keeps both, so of a walk only those steps
need a look that write something; of the others it is enough that they leave the state as
it is.
-/

namespace RecordGraph

variable {σ ε α β : Type}

/-- Work that leaves the state as it is, whether it fails or not. -/
def Leaves (x : ExceptT ε (StateM σ) α) : Prop :=
  ∀ s, (x s).2 = s

/-- From a row and a state with the first property, work on the row that succeeds leads to
such a row and state, and work that fails to a state with the second one. -/
def RowKeeps (I : Row → σ → Prop) (J : σ → Prop) (x : ExceptT ε (StateT Row (StateM σ)) α) : Prop :=
  ∀ row s, I row s →
    match (x row s).1.1 with
    | .ok _ => I (x row s).1.2 (x row s).2
    | .error _ => J (x row s).2

section Leaves

variable {x : ExceptT ε (StateM σ) α} {f : α → ExceptT ε (StateM σ) β}

theorem leaves_pure (a : α) : Leaves (pure a : ExceptT ε (StateM σ) α) :=
  fun _ => rfl

/-- What goes on after a step has to leave the states in which the step has its answer. -/
theorem Leaves.bind (first : Leaves x) (rest : ∀ a s, (x s).1 = .ok a → (f a s).2 = s) :
    Leaves (x >>= f) := by
  intro s
  rw [Action.bind_run, first s]
  cases answer : (x s).1 with
  | error err => rfl
  | ok a => exact rest a s answer

theorem Leaves.mapM {f : α → ExceptT ε (StateM σ) β} {items : List α}
    (each : ∀ a ∈ items, Leaves (f a)) : Leaves (items.mapM f) := by
  induction items with
  | nil => exact leaves_pure []
  | cons a rest ih =>
      obtain ⟨first, others⟩ := List.forall_mem_cons.mp each
      rw [List.mapM_cons]
      refine first.bind fun b s _ => ?_
      exact (ih others).bind (fun _ _ _ => rfl) s

end Leaves

section RowKeeps

variable {I : Row → σ → Prop} {J : σ → Prop}
variable {x : ExceptT ε (StateT Row (StateM σ)) α}
variable {f : α → ExceptT ε (StateT Row (StateM σ)) β}

theorem rowKeeps_pure (a : α) : RowKeeps I J (pure a : ExceptT ε (StateT Row (StateM σ)) α) :=
  fun _ _ kept => kept

theorem RowKeeps.bind (first : RowKeeps I J x) (rest : ∀ a, RowKeeps I J (f a)) :
    RowKeeps I J (x >>= f) := by
  intro row s kept
  have after := first row s kept
  rw [RowAction.bind_run]
  cases answer : (x row s).1.1 with
  | error err =>
      rw [answer] at after
      exact after
  | ok a =>
      rw [answer] at after
      exact rest a _ _ after

theorem rowKeeps_lift (fails : ∀ row s, I row s → J s) (x : Except ε α) :
    RowKeeps I J (liftM x : ExceptT ε (StateT Row (StateM σ)) α) := by
  intro row s kept
  cases x with
  | error err => exact fails row s kept
  | ok a => exact kept

theorem rowKeeps_throw (fails : ∀ row s, I row s → J s) (err : ε) :
    RowKeeps I J (throw err : ExceptT ε (StateT Row (StateM σ)) α) :=
  fun row s kept => fails row s kept

theorem rowKeeps_row : RowKeeps I J (RowAction.row : RowAction σ Row) :=
  fun _ _ kept => kept

theorem rowKeeps_runRow : RowKeeps I J (RowRun.row : RowRun σ Row) :=
  fun _ _ kept => kept

theorem rowKeeps_modifyRow {change : Row → Row} (keeps : ∀ row s, I row s → I (change row) s) :
    RowKeeps I J (RowAction.modifyRow change : RowAction σ Unit) :=
  fun row s kept => keeps row s kept

theorem RowKeeps.ofAction {x : RowAction σ α} (failure : StorageError → Failure)
    (h : RowKeeps I J x) : RowKeeps I J (RowRun.ofAction failure x) := by
  intro row s kept
  have after := h row s kept
  rw [RowRun.ofAction]
  generalize x row s = run at after ⊢
  obtain ⟨⟨result, row'⟩, s'⟩ := run
  cases result <;> exact after

theorem Leaves.ofRun {x : Run σ α} (fails : ∀ row s, I row s → J s) (h : Leaves x) :
    RowKeeps I J (RowRun.ofRun x) := by
  intro row s kept
  have left := h s
  rw [RowRun.ofRun]
  generalize x s = run at left ⊢
  obtain ⟨result, s'⟩ := run
  subst left
  cases result with
  | error err => exact fails row _ kept
  | ok a => exact kept

end RowKeeps

/-- Reading a row again changes neither the store nor the model of the row. -/
theorem Linking.rowKeeps_reload {I : Row → Engine → Prop} {J : Engine → Prop}
    (fails : ∀ row e, I row e → J e) (model : ∀ row data related e, I row e →
      I { row with data, related } e) (request : Request.Reload) :
    RowKeeps I J (reload request) := by
  rw [reload]
  refine rowKeeps_row.bind fun row => ?_
  refine RowKeeps.bind (x := RowAction.ofAction get) (fun _ _ kept => kept) fun e => ?_
  refine (rowKeeps_lift fails _).bind fun key => ?_
  refine (rowKeeps_lift fails _).bind fun pk => ?_
  split
  · exact rowKeeps_throw fails _
  · refine (rowKeeps_lift fails _).bind fun filed => ?_
    exact rowKeeps_modifyRow fun row e kept => model row _ _ e kept

end RecordGraph
