import RecordGraph.Proofs.Store.Required
import RecordGraph.Proofs.Write.Blame

/-!
# What a validation error says of a key

The violations of a refusal are filed one by one, each under its path, whether the model
declares it or not. So what an error says of a key are the violations of that path, and labels
in front of all keys move what it says without changing it.
-/

namespace RecordGraph

namespace ValidationError

variable {m : Model} {e : ValidationError} {key path : String} {item : ErrorItem}
variable {violations : List Violation} {refusal : Refusal}

/-- The errors that the violations of a path make, in their order. -/
def itemsAt (violations : List Violation) (path : String) : List ErrorItem :=
  (violations.filter (·.path = path)).map fun v => ⟨v.kind.code, v.message⟩

theorem itemsAt_concat (violations : List Violation) (v : Violation) (path : String) :
    itemsAt (violations ++ [v]) path =
      if v.path = path then itemsAt violations path ++ [⟨v.kind.code, v.message⟩]
      else itemsAt violations path := by
  rw [itemsAt, List.filter_append, List.map_append]
  by_cases here : v.path = path
  · simp [itemsAt, here]
  · simp [itemsAt, here]

theorem mem_itemsAt_iff : item ∈ itemsAt violations path ↔
    ∃ v ∈ violations, v.path = path ∧ item = ⟨v.kind.code, v.message⟩ := by
  simp [itemsAt, and_assoc, eq_comm]

theorem itemsAt_eq_nil_iff : itemsAt violations path = [] ↔ ∀ v ∈ violations, v.path ≠ path := by
  simp [itemsAt]

/-- An error holds the violations of a refusal by their paths: those of a path that the model
declares with the attributes, where no declared path is missing, and those of any other path with
the constraints, where only paths with violations are. -/
structure Files (m : Model) (violations : List Violation) (e : ValidationError) : Prop where
  attributes (path : String) : e.attributes.get? path =
    if path ∈ m.declaredKeys then some (itemsAt violations path) else none
  constraints (path : String) : e.constraints.get? path =
    if path ∈ m.declaredKeys ∨ itemsAt violations path = [] then none
    else some (itemsAt violations path)
  attributesOrdered : e.attributes.Ascending
  constraintsOrdered : e.constraints.Ascending

theorem files_blank (m : Model) (message : String) : Files m [] (blank m message) where
  attributes path := by
    rw [blank, Dict.ofList, Dict.get?_extend_const]
    rfl
  constraints path := (if_pos (.inr rfl)).symm
  attributesOrdered := Dict.ascending_ofList _
  constraintsOrdered := Dict.ascending_nil

/-- Filing a violation adds it to what is wrong with its path, and nothing elsewhere. -/
theorem Files.record (files : Files m violations e) (v : Violation) :
    Files m (violations ++ [v]) (ValidationError.record m e v) := by
  by_cases declared : v.path ∈ m.declaredKeys
  · rw [ValidationError.record, if_pos declared]
    refine ⟨fun path => ?_, fun path => ?_, Dict.ascending_insert _ _ files.attributesOrdered,
      files.constraintsOrdered⟩
    · rw [append, Dict.get?_insert, files.attributes, files.attributes, itemsAt_concat]
      by_cases here : v.path = path
      · subst here
        simp [declared]
      · simp [here, Ne.symm here]
    · rw [files.constraints, itemsAt_concat]
      by_cases here : v.path = path
      · subst here
        simp [declared]
      · simp [here]
  · rw [ValidationError.record, if_neg declared]
    refine ⟨fun path => ?_, fun path => ?_, files.attributesOrdered,
      Dict.ascending_insert _ _ files.constraintsOrdered⟩
    · rw [files.attributes, itemsAt_concat]
      by_cases here : v.path = path
      · subst here
        simp [declared]
      · simp [here]
    · rw [append, Dict.get?_insert, files.constraints, files.constraints, itemsAt_concat]
      by_cases here : v.path = path
      · subst here
        by_cases first : itemsAt violations v.path = []
        · simp [declared, first]
        · simp [declared, first]
      · simp [here, Ne.symm here]

/-- The violations of a refusal are filed one after the other. -/
theorem files_ofRefusal (m : Model) (refusal : Refusal) :
    Files m refusal.violations (ofRefusal m refusal) := by
  suffices filed : ∀ (rest seen : List Violation) (e : ValidationError), Files m seen e →
      Files m (seen ++ rest) (rest.foldl (ValidationError.record m) e) by
    exact filed _ [] _ (files_blank m refusal.message)
  intro rest
  induction rest with
  | nil =>
      intro seen e files
      rwa [List.append_nil]
  | cons v rest ih =>
      intro seen e files
      rw [List.append_cons]
      exact ih _ _ (files.record v)

theorem Files.errorsFor (files : Files m violations e) :
    e.errorsFor path = itemsAt violations path := by
  rw [ValidationError.errorsFor, files.attributes, files.constraints]
  by_cases declared : path ∈ m.declaredKeys
  · simp [declared]
  · by_cases none : itemsAt violations path = []
    · simp [declared, none]
    · simp [declared, none]

theorem get?_map_prefix {β : Type} (front : String) (d : Dict β) (key : String) :
    Dict.get? (List.map (fun entry => (front ++ entry.1, entry.2)) d) (front ++ key) =
      d.get? key := by
  induction d with
  | nil => rfl
  | cons entry rest ih =>
      obtain ⟨k, v⟩ := entry
      simp only [List.map_cons, Dict.get?_cons, String.append_right_inj, ih]

/-- Labels in front of all keys change nothing else. -/
theorem errorsFor_prefixed (path : List String) (e : ValidationError) (key : String) :
    (e.prefixed path).errorsFor (pathPrefix path ++ key) = e.errorsFor key := by
  simp only [errorsFor, prefixed, get?_map_prefix]

/-- A key is reported as required only if the refusal misses it. -/
theorem misses_of_errorsFor {path : List String}
    (listed : item ∈ ((ofRefusal m refusal).prefixed path).errorsFor (pathPrefix path ++ key))
    (required : item.kind = ViolationKind.notNull.code) : refusal.Misses key := by
  rw [errorsFor_prefixed] at listed
  rw [(files_ofRefusal m refusal).errorsFor] at listed
  obtain ⟨v, among, named, rfl⟩ := mem_itemsAt_iff.mp listed
  exact ⟨v, among, named, required⟩

end ValidationError

end RecordGraph
