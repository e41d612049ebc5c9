import RecordGraph.Schema.Registry
import RecordGraph.Select.Operator
import RecordGraph.Text.Dotted

/-!
# Association names in filters

A filter may reach an attribute of a related model under the key `$a.b.name$`, where
each step names an association by key or by alias. Renaming puts the alias in every
step, walking from model to model. It stops at a step that names no association, or
past one whose target is not known; what is left is for the store to refuse. Filters
inside conjunctions and disjunctions are renamed too.
-/

namespace RecordGraph.Renaming

/-- Rename the steps of a path from a model on; the last segment is an attribute. -/
def path (r : Registry) (model : Model) : List String → List String
  | [] => []
  | [name] => [name]
  | step :: next :: rest =>
    match model.association? step with
    | none => step :: next :: rest
    | some a =>
      match r.get? a.target with
      | some target => a.canonicalAlias :: path r target (next :: rest)
      | none => a.canonicalAlias :: next :: rest

/-- Rename the steps of a key that is a path between dollar signs. -/
def key (r : Registry) (model : Model) (k : String) : String :=
  match Text.betweenDollars? k with
  | some inner =>
    if Text.hasDot inner then "$" ++ Text.dotted (path r model (Text.segments inner)) ++ "$" else k
  | none => k

/-- Whether what stands under a key is made of further filters. -/
def isJunction (k : String) : Bool :=
  k == Filter.andKey || k == Filter.orKey

mutual

/-- Rename the entries of a filter. -/
def entries (r : Registry) (model : Model) : List (String × Value) → List (String × Value)
  | [] => []
  | (k, v) :: rest =>
    (if isJunction k then (k, junction r model v) else (key r model k, v)) :: entries r model rest

/-- Rename what stands under the key of a conjunction or disjunction. -/
def junction (r : Registry) (model : Model) : Value → Value
  | .arr items => .arr (clauses r model items)
  | .obj fields => .obj (Dict.ofList (entries r model fields))
  | v => v

/-- Rename one member of a conjunction or disjunction. -/
def clause (r : Registry) (model : Model) : Value → Value
  | .obj fields => .obj (Dict.ofList (entries r model fields))
  | v => v

/-- Rename the members of a conjunction or disjunction. -/
def clauses (r : Registry) (model : Model) : List Value → List Value
  | [] => []
  | v :: rest => clause r model v :: clauses r model rest

end

/-- Rename a filter. Of two entries whose keys become equal the later one stays. -/
def filter (r : Registry) (model : Model) (fields : Record) : Record :=
  Dict.ofList (entries r model fields)

end RecordGraph.Renaming
