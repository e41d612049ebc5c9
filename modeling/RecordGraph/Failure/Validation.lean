import RecordGraph.Failure.Storage
import RecordGraph.Schema.Model

/-!
# Validation errors by key

A refusal is a flat list of violations. A validation error files them under the keys
of the model: every declared key is there, with an empty list if nothing is wrong
with it, and violations on any other path are kept apart as constraints. Within one
key the order of the refusal stays. Putting a label in front of every key tells from
which related row an error comes.
-/

namespace RecordGraph

/-- One thing that is wrong with one key. -/
structure ErrorItem where
  kind : String
  message : String
deriving DecidableEq, Repr

/-- Everything that is wrong with a row of a model. -/
structure ValidationError where
  model : String
  message : String
  /-- Errors of the declared keys, all of which are there. -/
  attributes : Dict (List ErrorItem)
  /-- Errors of other paths. -/
  constraints : Dict (List ErrorItem)
deriving Repr

/-- The code of a violation in a validation error. -/
def ViolationKind.code : ViolationKind → String
  | .notNull => "attribute.required"
  | .unique => "attribute.unique"
  | .stringType => "attribute.string"
  | .other code => code

namespace ValidationError

/-- An error in which no key has anything wrong yet. -/
def blank (model : Model) (message : String) : ValidationError where
  model := model.name
  message := message
  attributes := Dict.ofList (model.declaredKeys.map fun key => (key, []))
  constraints := []

/-- Append an item to the list under a key. -/
def append (items : Dict (List ErrorItem)) (key : String) (item : ErrorItem) :
    Dict (List ErrorItem) :=
  items.insert key ((items.get? key).getD [] ++ [item])

/-- File one violation. -/
def record (model : Model) (e : ValidationError) (v : Violation) : ValidationError :=
  let item : ErrorItem := ⟨v.kind.code, v.message⟩
  if v.path ∈ model.declaredKeys then { e with attributes := append e.attributes v.path item }
  else { e with constraints := append e.constraints v.path item }

/-- File all violations of a refusal. -/
def ofRefusal (model : Model) (refusal : Refusal) : ValidationError :=
  refusal.violations.foldl (record model) (blank model refusal.message)

/-- A key below a label. -/
def below (label key : String) : String :=
  label ++ "." ++ key

/-- Put every key below a label. -/
def under (label : String) (e : ValidationError) : ValidationError :=
  { e with
    attributes := List.map (fun entry => (below label entry.1, entry.2)) e.attributes
    constraints := List.map (fun entry => (below label entry.1, entry.2)) e.constraints }

/-- What is wrong with a key. -/
def errorsFor (e : ValidationError) (key : String) : List ErrorItem :=
  match e.attributes.get? key with
  | some items => items
  | none => (e.constraints.get? key).getD []

/-- The keys with something wrong: declared ones first. -/
def failingKeys (e : ValidationError) : List String :=
  ((e.attributes ++ e.constraints).filter fun entry => !entry.2.isEmpty).map Prod.fst

/-- The text of a validation error. -/
def text (e : ValidationError) : String :=
  "validation failed for " ++ e.model ++ ": " ++ e.message

@[simp] theorem under_model (label : String) (e : ValidationError) :
    (e.under label).model = e.model := rfl

end ValidationError

end RecordGraph
