import RecordGraph.Proofs.Store.Action

/-!
# Works in lockstep

Two works run in lockstep along a relation of states when from related states they
answer the same and leave related states, be the answer a result or an error. Whatever
puts works together keeps them in lockstep, so of an operation only those steps need a
look that touch the state.
-/

namespace RecordGraph

variable {σ ε α β : Type} {R : σ → σ → Prop}

/-- From related states two works answer the same and leave related states. -/
def Lockstep (R : σ → σ → Prop) (x y : ExceptT ε (StateM σ) α) : Prop :=
  ∀ s t, R s t → (x s).1 = (y t).1 ∧ R (x s).2 (y t).2

/-- Two works on a row do so as well, and they leave the same row. -/
def RowLockstep (R : σ → σ → Prop) (x y : ExceptT ε (StateT Row (StateM σ)) α) : Prop :=
  ∀ r s t, R s t → (x r s).1 = (y r t).1 ∧ R (x r s).2 (y r t).2

section Lockstep

variable {x y : ExceptT ε (StateM σ) α} {f g : α → ExceptT ε (StateM σ) β}

theorem lockstep_pure (a : α) : Lockstep R (pure a : ExceptT ε (StateM σ) α) (pure a) :=
  fun _ _ related => ⟨rfl, related⟩

theorem lockstep_lift (x : Except ε α) :
    Lockstep R (liftM x : ExceptT ε (StateM σ) α) (liftM x) :=
  fun _ _ related => ⟨rfl, related⟩

theorem Lockstep.bind (first : Lockstep R x y) (rest : ∀ a, Lockstep R (f a) (g a)) :
    Lockstep R (x >>= f) (y >>= g) := by
  intro s t related
  obtain ⟨same, after⟩ := first s t related
  rw [Action.bind_run, Action.bind_run, ← same]
  cases (x s).1 with
  | error err => exact ⟨rfl, after⟩
  | ok a => exact rest a _ _ after

/-- Work that may be left out, before work that is not. -/
theorem Lockstep.optional_bind {z w : ExceptT ε (StateM σ) β} {c : Prop} [Decidable c]
    (first : Lockstep R x y) (rest : Lockstep R z w) :
    Lockstep R (if c then x >>= fun _ => z else z) (if c then y >>= fun _ => w else w) := by
  split
  · exact first.bind fun _ => rest
  · exact rest

theorem Lockstep.mapM (each : ∀ a, Lockstep R (f a) (g a)) (items : List α) :
    Lockstep R (items.mapM f) (items.mapM g) := by
  induction items with
  | nil => exact lockstep_pure []
  | cons a rest ih =>
      rw [List.mapM_cons, List.mapM_cons]
      exact (each a).bind fun b => ih.bind fun others => lockstep_pure (b :: others)

end Lockstep

section RowLockstep

variable {x y : ExceptT ε (StateT Row (StateM σ)) α}
variable {f g : α → ExceptT ε (StateT Row (StateM σ)) β}

theorem rowLockstep_pure (a : α) :
    RowLockstep R (pure a : ExceptT ε (StateT Row (StateM σ)) α) (pure a) :=
  fun _ _ _ related => ⟨rfl, related⟩

theorem rowLockstep_throw (err : ε) :
    RowLockstep R (throw err : ExceptT ε (StateT Row (StateM σ)) α) (throw err) :=
  fun _ _ _ related => ⟨rfl, related⟩

theorem rowLockstep_lift (x : Except ε α) :
    RowLockstep R (liftM x : ExceptT ε (StateT Row (StateM σ)) α) (liftM x) :=
  fun _ _ _ related => ⟨rfl, related⟩

theorem rowLockstep_row : RowLockstep R (RowAction.row : RowAction σ Row) RowAction.row :=
  fun _ _ _ related => ⟨rfl, related⟩

theorem rowLockstep_modifyRow (change : Row → Row) :
    RowLockstep R (RowAction.modifyRow change : RowAction σ Unit) (RowAction.modifyRow change) :=
  fun _ _ _ related => ⟨rfl, related⟩

theorem Lockstep.ofAction {x y : Action σ α} (h : Lockstep R x y) :
    RowLockstep R (RowAction.ofAction x) (RowAction.ofAction y) := by
  intro r s t related
  obtain ⟨same, after⟩ := h s t related
  exact ⟨congrArg (·, r) same, after⟩

theorem RowLockstep.bind (first : RowLockstep R x y) (rest : ∀ a, RowLockstep R (f a) (g a)) :
    RowLockstep R (x >>= f) (y >>= g) := by
  intro r s t related
  obtain ⟨same, after⟩ := first r s t related
  rw [RowAction.bind_run, RowAction.bind_run, ← same]
  cases (x r s).1.1 with
  | error err => exact ⟨rfl, after⟩
  | ok a => exact rest a _ _ _ after

end RowLockstep

end RecordGraph
