import Mathlib.Data.List.Nodup
import Mathlib.Data.String.Basic
import RecordGraph.Proofs.Text.Dotted
import RecordGraph.Proofs.Write.ErrorKeys

/-!
# Violations by path and by label

The violations of a refused row are filed by path, and the labels that lead to the row are put in
front of all paths, one after the other. Nothing is lost on the way and nothing made up: under
the labels and a path, joined by dots, stands what the refusal has on that path, where it is
declared or not as before, and no other keys are there but those of declared paths. That paths
and labels may have dots of their own does no harm, since the same text stands in front of all
of them.
-/

namespace RecordGraph

theorem Dict.ascending_map_prefix {β : Type} {d : Dict β} (front : String) (h : d.Ascending) :
    Ascending (List.map (fun entry => (front ++ entry.1, entry.2)) d) := by
  apply List.pairwise_map.mpr
  apply List.Pairwise.imp _ h
  intro entry later less
  rw [String.lt_iff_toList_lt, String.toList_append, String.toList_append]
  exact List.append_left_lt (String.lt_iff_toList_lt.mp less)

theorem Dict.Ascending.nodup_keys {β : Type} {d : Dict β} (h : d.Ascending) : d.keys.Nodup := by
  apply List.pairwise_map.mpr
  apply List.Pairwise.imp _ h
  intro entry later less same
  exact String.lt_irrefl _ (same ▸ less)

namespace ValidationError

variable {m : Model} {e : ValidationError} {key path : String} {labels : List String}
variable {violations : List Violation}

/-! ### Labels in front of the keys -/

theorem pathPrefix_append (labels : List String) (path : String) :
    pathPrefix labels ++ path = Text.dotted (labels ++ [path]) := by
  induction labels with
  | nil => simp [pathPrefix]
  | cons label rest ih =>
      rw [pathPrefix, List.cons_append, Text.dotted_cons (by simp), ← ih, String.append_assoc]

/-- Of labels that are put in front one after the other the last one stands first. -/
theorem foldl_under (labels : List String) (e : ValidationError) :
    labels.foldl (fun e label => e.under label) e = e.prefixed labels.reverse := by
  rw [← List.foldr_reverse]
  induction labels.reverse with
  | nil => exact (prefixed_nil e).symm
  | cons label rest ih => rw [List.foldr_cons, ih, under_prefixed]

theorem failingKeys_prefixed (labels : List String) (e : ValidationError) :
    (e.prefixed labels).failingKeys = e.failingKeys.map (pathPrefix labels ++ ·) := by
  simp only [failingKeys, prefixed, ← List.map_append, List.filter_map, List.map_map]
  rfl

/-! ### The keys of an error -/

theorem Files.mem_keys_attributes_iff (files : Files m violations e) :
    key ∈ e.attributes.keys ↔ key ∈ m.declaredKeys := by
  rw [Dict.mem_keys_iff, files.attributes]
  by_cases declared : key ∈ m.declaredKeys
  · simp [declared]
  · simp [declared]

theorem Files.not_mem_declaredKeys (files : Files m violations e)
    (there : key ∈ e.constraints.keys) : key ∉ m.declaredKeys := by
  intro declared
  rw [Dict.mem_keys_iff, files.constraints, if_pos (.inl declared)] at there
  cases there

/-- A key fails exactly if it is the path of a violation. -/
theorem Files.mem_failingKeys_iff (files : Files m violations e) :
    key ∈ e.failingKeys ↔ ∃ v ∈ violations, v.path = key := by
  have filed {items : List ErrorItem} : (key, items) ∈ e.attributes ++ e.constraints ↔
      e.attributes.get? key = some items ∨ e.constraints.get? key = some items := by
    rw [List.mem_append, Dict.get?_eq_some_iff_mem files.attributesOrdered,
      Dict.get?_eq_some_iff_mem files.constraintsOrdered]
  have listed : key ∈ e.failingKeys ↔
      ∃ items, (key, items) ∈ e.attributes ++ e.constraints ∧ items ≠ [] := by
    simp only [failingKeys, List.mem_map, List.mem_filter]
    simp
  have occurs : (∃ v ∈ violations, v.path = key) ↔ itemsAt violations key ≠ [] := by
    simp [itemsAt_eq_nil_iff]
  simp only [listed, filed, files.attributes, files.constraints, occurs]
  by_cases declared : key ∈ m.declaredKeys
  · simp [declared]
  · by_cases none : itemsAt violations key = []
    · simp [declared, none]
    · simp [declared, none]

/-- No key fails twice: one that is declared fails as an attribute only. -/
theorem Files.nodup_failingKeys (files : Files m violations e) : e.failingKeys.Nodup := by
  have keys : (e.attributes ++ e.constraints).keys.Nodup := by
    rw [Dict.keys, List.map_append]
    apply List.nodup_append.mpr
    refine ⟨files.attributesOrdered.nodup_keys, files.constraintsOrdered.nodup_keys, ?_⟩
    rintro key declared _ other rfl
    exact files.not_mem_declaredKeys other (files.mem_keys_attributes_iff.mp declared)
  exact keys.sublist (List.filter_sublist.map _)

/-! ### What is filed where -/

/-- An error holds some violations by their paths below labels, of which the last one stands
first. -/
structure Regroups (m : Model) (violations : List Violation) (labels : List String)
    (e : ValidationError) : Prop where
  /-- What is wrong with a path are its violations, in their order. -/
  errors (path : String) :
    e.errorsFor (Text.dotted (labels.reverse ++ [path])) = itemsAt violations path
  /-- The violations of a declared path are filed with the attributes. -/
  declared : ∀ v ∈ violations, v.path ∈ m.declaredKeys →
    e.attributes.get? (Text.dotted (labels.reverse ++ [v.path])) =
      some (itemsAt violations v.path) ∧
    e.constraints.get? (Text.dotted (labels.reverse ++ [v.path])) = none
  /-- The violations of any other path are filed with the constraints. -/
  others : ∀ v ∈ violations, v.path ∉ m.declaredKeys →
    e.attributes.get? (Text.dotted (labels.reverse ++ [v.path])) = none ∧
    e.constraints.get? (Text.dotted (labels.reverse ++ [v.path])) =
      some (itemsAt violations v.path)
  /-- The attributes have the declared keys and no others. -/
  attributes (key : String) : key ∈ e.attributes.keys ↔
    ∃ path ∈ m.declaredKeys, Text.dotted (labels.reverse ++ [path]) = key
  /-- The keys that fail are the paths of violations. -/
  failing (key : String) : key ∈ e.failingKeys ↔
    ∃ v ∈ violations, Text.dotted (labels.reverse ++ [v.path]) = key
  failingOnce : e.failingKeys.Nodup
  attributesOrdered : e.attributes.Ascending
  constraintsOrdered : e.constraints.Ascending

/-- What is filed by path stays so below labels. -/
theorem Files.regroups (files : Files m violations e) (labels : List String) :
    Regroups m violations labels (labels.foldl (fun e label => e.under label) e) := by
  rw [foldl_under]
  constructor
  case errors =>
    intro path
    rw [← pathPrefix_append, errorsFor_prefixed, files.errorsFor]
  case declared =>
    intro v member declared
    simp only [← pathPrefix_append, prefixed, get?_map_prefix, files.attributes, files.constraints]
    exact ⟨if_pos declared, if_pos (.inl declared)⟩
  case others =>
    intro v member other
    have some : itemsAt violations v.path ≠ [] := fun none =>
      itemsAt_eq_nil_iff.mp none v member rfl
    simp only [← pathPrefix_append, prefixed, get?_map_prefix, files.attributes, files.constraints]
    exact ⟨if_neg other, if_neg (not_or.mpr ⟨other, some⟩)⟩
  case attributes =>
    intro key
    have keys : (e.prefixed labels.reverse).attributes.keys =
        e.attributes.keys.map (pathPrefix labels.reverse ++ ·) := by
      simp [Dict.keys, prefixed]
    simp only [keys, List.mem_map, files.mem_keys_attributes_iff, pathPrefix_append]
  case failing =>
    intro key
    rw [failingKeys_prefixed, List.mem_map]
    simp only [files.mem_failingKeys_iff, pathPrefix_append]
    grind
  case failingOnce =>
    rw [failingKeys_prefixed]
    apply files.nodup_failingKeys.map
    intro path other same
    exact (String.append_right_inj _).mp same
  case attributesOrdered => exact Dict.ascending_map_prefix _ files.attributesOrdered
  case constraintsOrdered => exact Dict.ascending_map_prefix _ files.constraintsOrdered

end ValidationError

namespace Failure

/-- The failure that a refusal is made into, with labels put in front of all keys: perhaps one
that is given with the refusal, and then others, one after the other. -/
def ofRefusal (m : Model) (refusal : Refusal) (given : Option String) (later : List String) :
    Failure :=
  later.foldl (fun failure label => failure.under label) <|
    match given with
    | some label => ofStorageUnder label m (.validation refusal)
    | none => ofStorage m (.validation refusal)

theorem foldl_under_validation (labels : List String) (err : ValidationError) :
    labels.foldl (fun failure label => failure.under label) (validation err) =
      validation (labels.foldl (fun e label => e.under label) err) := by
  induction labels generalizing err with
  | nil => rfl
  | cons label rest ih => exact ih (err.under label)

/-- Making a refusal into an error loses no violation and makes up none, and neither do the
labels, whether the first one is given with the refusal or all are put in front later. -/
theorem regroups_ofRefusal (m : Model) (refusal : Refusal) (given : Option String)
    (later : List String) :
    let labels := given.toList ++ later
    let err := labels.foldl (fun e label => e.under label) (.ofRefusal m refusal)
    ofRefusal m refusal given later = .validation err ∧
      ValidationError.Regroups m refusal.violations labels err := by
  intro labels err
  refine ⟨?_, (ValidationError.files_ofRefusal m refusal).regroups labels⟩
  cases given with
  | none => exact foldl_under_validation later (.ofRefusal m refusal)
  | some label => exact foldl_under_validation later (.under label (.ofRefusal m refusal))

end Failure

end RecordGraph
