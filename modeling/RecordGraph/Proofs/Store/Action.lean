import RecordGraph.Proofs.Data.Steps
import RecordGraph.Store.Engine

/-!
# Running actions

An action is a function from a state to a result and a state, an action on a row one
from a row as well. The equations here run the steps of a `do` block one by one; what
an operation does is then stated about its run and never about the monads. They do not
depend on what the errors are.
-/

namespace RecordGraph

variable {σ ε α β : Type}

namespace Action

@[simp] theorem pure_run (a : α) (s : σ) : (pure a : Action σ α) s = (.ok a, s) := rfl

@[simp] theorem throw_run (err : StorageError) (s : σ) :
    (throw err : Action σ α) s = (.error err, s) := rfl

@[simp] theorem get_run (s : σ) : (get : Action σ σ) s = (.ok s, s) := rfl

@[simp] theorem lift_run (x : Except StorageError α) (s : σ) :
    (liftM x : Action σ α) s = (x, s) := rfl

theorem bind_run (x : ExceptT ε (StateM σ) α) (f : α → ExceptT ε (StateM σ) β) (s : σ) :
    (x >>= f) s =
      match (x s).1 with
      | .ok a => f a (x s).2
      | .error err => (.error err, (x s).2) := by
  simp only [bind, ExceptT.bind, ExceptT.mk, ExceptT.bindCont, StateT.bind]
  cases x s with
  | mk result s' => cases result <;> rfl

/-- After a step that succeeds the rest runs from the state it leaves. -/
theorem bind_run_ok {x : ExceptT ε (StateM σ) α} {f : α → ExceptT ε (StateM σ) β} {s s' : σ}
    {a : α} (h : x s = (.ok a, s')) : (x >>= f) s = f a s' := by
  rw [bind_run, h]

/-- After a step that fails nothing else happens. -/
theorem bind_run_error {x : ExceptT ε (StateM σ) α} {f : α → ExceptT ε (StateM σ) β}
    {s s' : σ} {err : ε} (h : x s = (.error err, s')) : (x >>= f) s = (.error err, s') := by
  rw [bind_run, h]

/-- A run that has an answer had one in its first step. -/
theorem bind_ok {x : ExceptT ε (StateM σ) α} {f : α → ExceptT ε (StateM σ) β} {s s' : σ} {b : β}
    (h : (x >>= f) s = (.ok b, s')) : ∃ a s₁, x s = (.ok a, s₁) ∧ f a s₁ = (.ok b, s') := by
  rw [bind_run] at h
  generalize x s = first at h ⊢
  obtain ⟨result, s₁⟩ := first
  cases result with
  | error err => cases h
  | ok a => exact ⟨a, s₁, rfl, h⟩

/-- A run fails in its first step, or in the rest after that step has its answer. -/
theorem bind_error {x : ExceptT ε (StateM σ) α} {f : α → ExceptT ε (StateM σ) β} {s : σ} {err : ε}
    (h : ((x >>= f) s).1 = .error err) :
    (x s).1 = .error err ∨ ∃ a s₁, x s = (.ok a, s₁) ∧ (f a s₁).1 = .error err := by
  rw [bind_run] at h
  generalize x s = first at h ⊢
  obtain ⟨result, s₁⟩ := first
  cases result with
  | error other =>
      cases h
      exact .inl rfl
  | ok a => exact .inr ⟨a, s₁, rfl, h⟩

/-- What is computed from the answer of a step is computed from an answer that the step has. -/
theorem bind_pure_ok {x : ExceptT ε (StateM σ) α} {f : α → β} {s : σ} {b : β}
    (h : ((x >>= fun a => pure (f a)) s).1 = .ok b) : ∃ a, (x s).1 = .ok a ∧ b = f a := by
  obtain ⟨a, s', first, rest⟩ := bind_ok (Prod.ext h rfl)
  cases rest
  exact ⟨a, congrArg Prod.fst first, rfl⟩

/-- A later step that leaves the state does not change what the first one leaves. -/
theorem bind_leaves {x : ExceptT ε (StateM σ) α} {f : α → ExceptT ε (StateM σ) β} {s : σ}
    (leaves : ∀ a s, (f a s).2 = s) : ((x >>= f) s).2 = (x s).2 := by
  rw [bind_run]
  cases (x s).1 with
  | error err => rfl
  | ok a => exact leaves a _

theorem mapM_leaves {f : α → ExceptT ε (StateM σ) β} (leaves : ∀ a s, (f a s).2 = s)
    (items : List α) (s : σ) : (items.mapM f s).2 = s := by
  induction items generalizing s with
  | nil => rfl
  | cons a rest ih =>
      rw [List.mapM_cons, bind_run]
      cases (f a s).1 with
      | error err => exact leaves a s
      | ok b =>
          rw [leaves a s]
          exact (bind_leaves fun _ _ => rfl).trans (ih s)

/-- A walk that succeeds has one answer for each item. -/
theorem length_of_mapM_ok {f : α → ExceptT ε (StateM σ) β} {items : List α} {answers : List β}
    {s s' : σ} (done : items.mapM f s = (.ok answers, s')) : answers.length = items.length := by
  induction items generalizing answers s with
  | nil =>
      cases done
      rfl
  | cons a rest ih =>
      rw [List.mapM_cons] at done
      obtain ⟨_, _, -, done⟩ := bind_ok done
      obtain ⟨later, _, walked, done⟩ := bind_ok done
      cases done
      rw [List.length_cons, List.length_cons, ih walked]

end Action

namespace RowAction

variable {r : Row}

@[simp] theorem pure_run (a : α) (s : σ) : (pure a : RowAction σ α) r s = ((.ok a, r), s) := rfl

@[simp] theorem throw_run (err : StorageError) (s : σ) :
    (throw err : RowAction σ α) r s = ((.error err, r), s) := rfl

@[simp] theorem lift_run (x : Except StorageError α) (s : σ) :
    (liftM x : RowAction σ α) r s = ((x, r), s) := rfl

@[simp] theorem row_run (s : σ) : (row : RowAction σ Row) r s = ((.ok r, r), s) := rfl

@[simp] theorem modifyRow_run (f : Row → Row) (s : σ) :
    (modifyRow f : RowAction σ Unit) r s = ((.ok (), f r), s) := rfl

@[simp] theorem ofAction_run (action : Action σ α) (s : σ) :
    ofAction action r s = (((action s).1, r), (action s).2) := rfl

theorem bind_run (x : ExceptT ε (StateT Row (StateM σ)) α)
    (f : α → ExceptT ε (StateT Row (StateM σ)) β) (s : σ) :
    (x >>= f) r s =
      match (x r s).1.1 with
      | .ok a => f a (x r s).1.2 (x r s).2
      | .error err => ((.error err, (x r s).1.2), (x r s).2) := by
  simp only [bind, ExceptT.bind, ExceptT.mk, ExceptT.bindCont, StateT.bind]
  obtain ⟨⟨result, r'⟩, s'⟩ := x r s
  cases result <;> rfl

theorem bind_run_ok {x : ExceptT ε (StateT Row (StateM σ)) α}
    {f : α → ExceptT ε (StateT Row (StateM σ)) β} {s s' : σ} {r' : Row} {a : α}
    (h : x r s = ((.ok a, r'), s')) : (x >>= f) r s = f a r' s' := by
  rw [bind_run, h]

theorem bind_run_error {x : ExceptT ε (StateT Row (StateM σ)) α}
    {f : α → ExceptT ε (StateT Row (StateM σ)) β} {s s' : σ} {r' : Row} {err : ε}
    (h : x r s = ((.error err, r'), s')) :
    (x >>= f) r s = ((.error err, r'), s') := by
  rw [bind_run, h]

theorem bind_ok {x : ExceptT ε (StateT Row (StateM σ)) α}
    {f : α → ExceptT ε (StateT Row (StateM σ)) β} {s s' : σ} {r' : Row} {b : β}
    (h : (x >>= f) r s = ((.ok b, r'), s')) :
    ∃ a row₁ s₁, x r s = ((.ok a, row₁), s₁) ∧ f a row₁ s₁ = ((.ok b, r'), s') := by
  rw [bind_run] at h
  generalize x r s = first at h ⊢
  obtain ⟨⟨result, row₁⟩, s₁⟩ := first
  cases result with
  | error err => cases h
  | ok a => exact ⟨a, row₁, s₁, rfl, h⟩

theorem bind_error {x : ExceptT ε (StateT Row (StateM σ)) α}
    {f : α → ExceptT ε (StateT Row (StateM σ)) β} {s : σ} {err : ε}
    (h : ((x >>= f) r s).1.1 = .error err) :
    (x r s).1.1 = .error err ∨
      ∃ a row₁ s₁, x r s = ((.ok a, row₁), s₁) ∧ (f a row₁ s₁).1.1 = .error err := by
  rw [bind_run] at h
  generalize x r s = first at h ⊢
  obtain ⟨⟨result, row₁⟩, s₁⟩ := first
  cases result with
  | error other =>
      cases h
      exact .inl rfl
  | ok a => exact .inr ⟨a, row₁, s₁, rfl, h⟩

theorem bind_leaves {x : ExceptT ε (StateT Row (StateM σ)) α}
    {f : α → ExceptT ε (StateT Row (StateM σ)) β} {s : σ}
    (leaves : ∀ a r s, (f a r s).2 = s) : ((x >>= f) r s).2 = (x r s).2 := by
  rw [bind_run]
  cases (x r s).1.1 with
  | error err => rfl
  | ok a => exact leaves a _ _

/-- A first step without a state either ends the run or hands its answer on. -/
theorem lift_bind_run (x : Except StorageError α) (f : α → RowAction σ β) (s : σ) :
    (liftM x >>= f) r s =
      match x with
      | .ok a => f a r s
      | .error err => ((.error err, r), s) := by
  cases x <;> rfl

theorem lift_bind_ok_iff {x : Except StorageError α} {f : α → RowAction σ β} {s s' : σ} {r' : Row}
    {b : β} : (liftM x >>= f) r s = ((.ok b, r'), s') ↔
      ∃ a, x = .ok a ∧ f a r s = ((.ok b, r'), s') := by
  rw [lift_bind_run]
  cases x with
  | ok a => simp
  | error err =>
      constructor
      · intro h
        cases h
      · rintro ⟨_, answer, _⟩
        cases answer

theorem lift_bind_error_iff {x : Except StorageError α} {f : α → RowAction σ β} {s s' : σ}
    {r' : Row} {err : StorageError} : (liftM x >>= f) r s = ((.error err, r'), s') ↔
      (x = .error err ∧ r = r' ∧ s = s') ∨
        ∃ a, x = .ok a ∧ f a r s = ((.error err, r'), s') := by
  rw [lift_bind_run]
  cases x with
  | ok a => simp
  | error err =>
      constructor
      · intro h
        cases h
        exact .inl ⟨rfl, rfl, rfl⟩
      · rintro (⟨same, rfl, rfl⟩ | ⟨_, answer, _⟩)
        · cases same
          rfl
        · cases answer

end RowAction

namespace Engine

variable {e e' : Engine} {name : String} {work : Table → Except StorageError (α × Table)} {a : α}

theorem onTable_run_ok {t : Table} (h : work (e.database.openTable name) = .ok (a, t)) :
    onTable name work e = (.ok a, e.setTable name t) := by
  simp [onTable, h]

theorem onTable_run_error {err : StorageError}
    (h : work (e.database.openTable name) = .error err) :
    onTable name work e = (.error err, e.setTable name (e.database.openTable name)) := by
  simp [onTable, h]

/-- Work that answers leaves the table it answers and nothing else. -/
theorem onTable_ok_iff : onTable name work e = (.ok a, e') ↔
    ∃ t, work (e.database.openTable name) = .ok (a, t) ∧ e' = e.setTable name t := by
  constructor
  · intro run
    cases h : work (e.database.openTable name) with
    | error err =>
        rw [onTable_run_error h] at run
        cases run
    | ok done =>
        rw [onTable_run_ok h] at run
        cases run
        exact ⟨done.2, rfl, rfl⟩
  · rintro ⟨t, done, rfl⟩
    exact onTable_run_ok done

/-- Work that fails leaves the table there, as it was. -/
theorem onTable_error {err : StorageError} (h : onTable name work e = (.error err, e')) :
    e' = e.setTable name (e.database.openTable name) := by
  cases result : work (e.database.openTable name) with
  | error other =>
      rw [onTable_run_error result] at h
      cases h
      rfl
  | ok done =>
      rw [onTable_run_ok result] at h
      cases h

theorem onTable_registry : (onTable name work e).2.registry = e.registry := by
  cases h : work (e.database.openTable name) with
  | error err =>
      rw [onTable_run_error h]
      rfl
  | ok done =>
      rw [onTable_run_ok h]
      rfl

theorem handOut_result (m : Model) (data : Record) (e : Engine) : (handOut m data e).1 =
    (Loading.model e.registry m.name).map fun registered => { model := registered, data } := by
  rw [handOut, Action.bind_run_ok (Action.get_run e), Action.bind_run, Action.lift_run]
  cases Loading.model e.registry m.name <;> rfl

theorem handOut_leaves (m : Model) (data : Record) (e : Engine) : (handOut m data e).2 = e := by
  rw [handOut, Action.bind_run_ok (Action.get_run e)]
  exact Action.bind_leaves fun _ _ => rfl

/-- Rows of a registered model can always be handed out. -/
theorem handOut_run {m registered : Model} (h : e.registry.get? m.name = some registered)
    (data : Record) : handOut m data e = (.ok { model := registered, data }, e) := by
  rw [handOut, Action.bind_run_ok (Action.get_run e)]
  simp only [Loading.model, h]
  rfl

/-- Rows are handed out with their records, as rows of the model that is known under the name. -/
theorem handOut_ok {m : Model} {data : Record} {row : Row}
    (done : handOut m data e = (.ok row, e')) :
    e' = e ∧ e.registry.get? m.name = some row.model ∧ row = { model := row.model, data } := by
  have state := handOut_leaves m data e
  have result := handOut_result m data e
  rw [done] at state result
  refine ⟨state, ?_⟩
  cases known : e.registry.get? m.name with
  | none =>
      rw [Loading.model, known] at result
      cases result
  | some registered =>
      rw [Loading.model, known] at result
      cases result
      exact ⟨rfl, rfl⟩

theorem build_ok {m : Model} {data : Record} {isNew : Bool} {row : Row}
    (done : build m data isNew e = (.ok row, e')) :
    e' = e ∧ e.registry.get? m.name = some row.model ∧
      row = { model := row.model, data, isNew } := by
  obtain ⟨made, e₁, handed, last⟩ := Action.bind_ok done
  obtain ⟨rfl, known, whole⟩ := handOut_ok handed
  rw [whole] at last
  cases last
  exact ⟨rfl, known, rfl⟩

end Engine

end RecordGraph
