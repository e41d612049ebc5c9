import RecordGraph.Proofs.Store.Action
import RecordGraph.Store.Linking
import RecordGraph.Write.Cascade

/-!
# Whom a validation error blames

A write that fails because a row is refused says which row that is: the model of the error
is the model of the refused row, and in front of every key stand the labels that lead to it
through the includes of the query, from the outside in. Nothing stands there when the row
of the query itself is refused.

To make a row is not to store it: the backend must not refuse it there, since the label of
its include would be missing.
-/

namespace RecordGraph

namespace ValidationError

/-- What stands in front of the keys below a path of labels: every label with a dot behind
it, the outermost first. -/
def pathPrefix : List String → String
  | [] => ""
  | label :: rest => label ++ "." ++ pathPrefix rest

/-- Put a path of labels in front of every key. -/
def prefixed (labels : List String) (e : ValidationError) : ValidationError :=
  { e with
    attributes := List.map (fun entry => (pathPrefix labels ++ entry.1, entry.2)) e.attributes
    constraints := List.map (fun entry => (pathPrefix labels ++ entry.1, entry.2)) e.constraints }

theorem prefixed_nil (e : ValidationError) : e.prefixed [] = e := by
  simp [prefixed, pathPrefix]

/-- One more label goes in front of the others. -/
theorem under_prefixed (label : String) (labels : List String) (e : ValidationError) :
    (e.prefixed labels).under label = e.prefixed (label :: labels) := by
  simp [prefixed, under, below, pathPrefix, String.append_assoc]

end ValidationError

/-- A path of labels leads from a model down a tree of includes to a model. -/
inductive Include.Leads (r : Registry) : Model → List Include → List String → Model → Prop where
  | here {m : Model} {includes : List Include} : Leads r m includes [] m
  | down {m target last : Model} {includes : List Include} {i : Include} {a : Association}
      {path : List String} (asked : i ∈ includes)
      (association : m.association? i.label = some a) (registered : r.get? a.target = some target)
      (rest : Leads r target i.children path last) : Leads r m includes (i.label :: path) last

namespace Failure

variable {m : Model} {error : StorageError} {err : ValidationError}

/-- Of the errors of a store only a refusal is made into a validation error. -/
theorem ofStorage_eq_validation (made : ofStorage m error = .validation err) :
    ∃ refusal, error = .validation refusal ∧ .ofRefusal m refusal = err := by
  cases error with
  | validation refusal =>
      cases made
      exact ⟨refusal, rfl, rfl⟩
  | _ => cases made

theorem ofStorageUnder_eq_validation {label : String}
    (made : ofStorageUnder label m error = .validation err) :
    ∃ refusal, error = .validation refusal ∧
      (ValidationError.ofRefusal m refusal).under label = err := by
  cases error with
  | validation refusal =>
      cases made
      exact ⟨refusal, rfl, rfl⟩
  | _ => cases made

end Failure

namespace Backend

variable {σ : Type} [Backend σ]

/-- Making a row is never refused for what the row holds. -/
def BuildsFreely (σ : Type) [Backend σ] : Prop :=
  ∀ m data isNew (s : σ) refusal, (Backend.build m data isNew s).1 ≠ .error (.validation refusal)

end Backend

namespace Cascade

variable {σ : Type} [Backend σ] {m target : Model} {err : ValidationError}

theorem primaryKey_ne_validation : primaryKey m ≠ .error (.validation err) := by
  intro failed
  obtain ⟨_, _, made⟩ := mapError_eq_error_iff.mp failed
  cases made

/-- So making a row of what is supplied does not fail with a validation error. -/
theorem supply_ne_validation (freely : Backend.BuildsFreely σ) (pk : String) (depth : Nat)
    (stamp : Stamp) (item : Item) (s : σ) :
    (supply target pk depth stamp item s).1 ≠ .error (.validation err) := by
  have builds (data : Record) (isNew : Bool) {f : Row → Run σ (Row × Record)}
      (answers : ∀ row s, ∃ made, (f row s).1 = .ok made) :
      ((Run.ofAction (Failure.ofStorage target) (Backend.build target data isNew) >>= f) s).1 ≠
        .error (.validation err) := by
    intro failed
    rcases Action.bind_error failed with unmade | ⟨row, s', _, failed⟩
    · obtain ⟨error, refused, made⟩ := mapError_eq_error_iff.mp unmade
      obtain ⟨refusal, rfl, rfl⟩ := Failure.ofStorage_eq_validation made
      exact freely _ _ _ s refusal refused
    · obtain ⟨_, answered⟩ := answers row s'
      cases answered.symm.trans failed
  cases item with
  | row row => nofun
  | record fields => exact builds _ _ fun _ _ => ⟨_, rfl⟩
  | key key => exact builds _ _ fun _ _ => ⟨_, rfl⟩

end Cascade

/-- The engine makes every row of a model that it knows. -/
theorem Engine.buildsFreely : Backend.BuildsFreely Engine := by
  intro m data isNew e refusal refused
  change (Engine.build m data isNew e).1 = _ at refused
  rw [Engine.build, Action.bind_run, Engine.handOut_result, Loading.model] at refused
  cases known : e.registry.get? m.name with
  | none =>
      rw [known] at refused
      cases refused
  | some registered =>
      rw [known] at refused
      cases refused

end RecordGraph
