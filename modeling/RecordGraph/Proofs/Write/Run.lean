import RecordGraph.Proofs.Store.Action
import RecordGraph.Write.Cascade

/-!
# What a run went through

A run that has an answer had one in each of its steps, and a run that fails does so in the first
of them that fails. The lemmas here take runs apart, first step by step, then a walk over includes
into its parts.
-/

namespace RecordGraph

variable {σ ε α β : Type} {s s' : σ} {row row' : Row} {a : α} {b : β}

namespace Run

/-- A run begins with what is at hand already. -/
theorem lift_bind_run (a : α) (f : α → Run σ β) (s : σ) :
    (liftM (.ok a : Except Failure α) >>= f) s = f a s := rfl

theorem lift_bind_error {x : Except Failure α} {f : α → Run σ β} {failure : Failure}
    (h : ((liftM x >>= f) s).1 = .error failure) :
    x = .error failure ∨ ∃ a, x = .ok a ∧ (f a s).1 = .error failure := by
  cases x with
  | ok a => exact .inr ⟨a, rfl, h⟩
  | error err =>
      cases h
      exact .inl rfl

theorem lift_bind_ok {x : Except Failure α} {f : α → Run σ β}
    (h : (liftM x >>= f) s = (.ok b, s')) : ∃ a, x = .ok a ∧ f a s = (.ok b, s') := by
  cases x with
  | ok a => exact ⟨a, rfl, h⟩
  | error err => cases h

theorem ofAction_ok_iff {failure : StorageError → Failure} {action : Action σ α} :
    ofAction failure action s = (.ok a, s') ↔ action s = (.ok a, s') := by
  rw [ofAction]
  generalize action s = run
  obtain ⟨result, s₁⟩ := run
  cases result with
  | error err => exact ⟨nofun, nofun⟩
  | ok _ => exact ⟨fun | rfl => rfl, fun | rfl => rfl⟩

theorem onRow_ok_iff {run : RowRun σ Unit} :
    onRow row run s = (.ok row', s') ↔ run row s = ((.ok (), row'), s') := by
  rw [onRow]
  generalize run row s = left
  obtain ⟨⟨result, row₁⟩, s₁⟩ := left
  cases result with
  | error err => exact ⟨nofun, nofun⟩
  | ok _ => exact ⟨fun | rfl => rfl, fun | rfl => rfl⟩

theorem onRow_error_iff {run : RowRun σ Unit} {failure : Failure} :
    (onRow row run s).1 = .error failure ↔ (run row s).1.1 = .error failure := by
  rw [onRow]
  generalize run row s = left
  obtain ⟨⟨result, row₁⟩, s₁⟩ := left
  cases result with
  | error err => exact ⟨fun | rfl => rfl, fun | rfl => rfl⟩
  | ok _ => exact ⟨nofun, nofun⟩

end Run

namespace RowRun

theorem ofRun_ok_iff {run : Run σ α} :
    ofRun run row s = ((.ok a, row'), s') ↔ row = row' ∧ run s = (.ok a, s') := by
  rw [ofRun]
  generalize run s = left
  obtain ⟨result, s₁⟩ := left
  constructor
  · rintro ⟨⟩
    exact ⟨rfl, rfl⟩
  · rintro ⟨rfl, ⟨⟩⟩
    rfl

theorem ofRun_error_iff {run : Run σ α} {failure : Failure} :
    (ofRun run row s).1.1 = .error failure ↔ (run s).1 = .error failure := Iff.rfl

theorem ofAction_ok_iff {failure : StorageError → Failure} {action : RowAction σ α} :
    ofAction failure action row s = ((.ok a, row'), s') ↔ action row s = ((.ok a, row'), s') := by
  rw [ofAction]
  generalize action row s = run
  obtain ⟨⟨result, row₁⟩, s₁⟩ := run
  cases result with
  | error err => exact ⟨nofun, nofun⟩
  | ok _ => exact ⟨fun | rfl => rfl, fun | rfl => rfl⟩

theorem mapFailure_ok_iff {change : Failure → Failure} {run : RowRun σ α} :
    mapFailure change run row s = ((.ok a, row'), s') ↔ run row s = ((.ok a, row'), s') := by
  rw [mapFailure]
  generalize run row s = left
  obtain ⟨⟨result, row₁⟩, s₁⟩ := left
  cases result with
  | error err => exact ⟨nofun, nofun⟩
  | ok _ => exact ⟨fun | rfl => rfl, fun | rfl => rfl⟩

theorem lift_bind_error {x : Except Failure α} {f : α → RowRun σ β} {failure : Failure}
    (h : ((liftM x >>= f) row s).1.1 = .error failure) :
    x = .error failure ∨ ∃ a, x = .ok a ∧ (f a row s).1.1 = .error failure := by
  cases x with
  | ok a => exact .inr ⟨a, rfl, h⟩
  | error err =>
      cases h
      exact .inl rfl

theorem lift_bind_ok_iff {x : Except Failure α} {f : α → RowRun σ β} :
    (liftM x >>= f) row s = ((.ok b, row'), s') ↔
      ∃ a, x = .ok a ∧ f a row s = ((.ok b, row'), s') := by
  cases x with
  | ok a =>
      constructor
      · exact fun h => ⟨a, rfl, h⟩
      · rintro ⟨_, ⟨⟩, h⟩
        exact h
  | error err =>
      constructor
      · nofun
      · rintro ⟨_, ⟨⟩, _⟩

end RowRun

namespace Cascade

variable [Backend σ] {options : PersistOptions} {m : Model} {includes : List Include}
variable {walk : String → RowRun σ Unit}

/-- Where there is something to walk, a walk that succeeds ends with reading the row again. -/
theorem enclose_ok (some_includes : includes ≠ [])
    (walked : enclose options m includes walk row s = ((.ok (), row'), s')) :
    ∃ pk row₁ s₁, primaryKey m = .ok pk ∧ walk pk row s = ((.ok (), row₁), s₁) ∧
      Backend.reload (.ofIncludes (Include.toRequests includes) options.transaction) row₁ s₁ =
        ((.ok (), row'), s') := by
  rw [enclose, if_neg (by simpa using some_includes)] at walked
  obtain ⟨pk, keyed, walked⟩ := RowRun.lift_bind_ok_iff.mp walked
  obtain ⟨_, row₁, s₁, done, reread⟩ := RowAction.bind_ok walked
  exact ⟨pk, row₁, s₁, keyed, done, RowRun.ofAction_ok_iff.mp reread⟩

end Cascade

end RecordGraph
