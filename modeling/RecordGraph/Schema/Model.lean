import RecordGraph.Schema.Association
import RecordGraph.Schema.Attribute
import RecordGraph.Schema.Error

/-!
# Models

A model names its columns and its connections, both in the order of declaration.
The names that a model declares are its attribute names followed by the aliases of
its associations; `validate` asks for a primary key and for names without repeats.
-/

namespace RecordGraph

/-- The shape of the rows of one table. -/
structure Model where
  name : String
  attributes : List Attribute := []
  associations : List Association := []
  /-- Destroying a row only hides it. -/
  paranoid : Bool := false
deriving Repr

namespace Model

instance : Inhabited Model := ⟨{ name := "" }⟩

/-- The attribute of a name. -/
def attribute? (m : Model) (name : String) : Option Attribute :=
  m.attributes.find? (·.name == name)

/-- The first association that answers to a name. -/
def association? (m : Model) (name : String) : Option Association :=
  m.associations.find? (·.answersTo name)

/-- The first association that answers to a name, or what is wrong with the name. -/
def association (m : Model) (name : String) : Except AssociationError Association :=
  match m.association? name with
  | some a => .ok a
  | none => .error (.unknownAssociation m.name name)

/-- The first attribute marked as primary key. -/
def primaryKey (m : Model) : Except SchemaError String :=
  match m.attributes.find? (·.primaryKey) with
  | some a => .ok a.name
  | none => .error (.missingPrimaryKey m.name)

/-- The names a model declares: attributes, then association aliases. -/
def declaredKeys (m : Model) : List String :=
  m.attributes.map (·.name) ++ m.associations.map (·.canonicalAlias)

/-- The first element that an earlier one equals. -/
def firstRepeat? (seen : List String) : List String → Option String
  | [] => none
  | key :: rest => if key ∈ seen then some key else firstRepeat? (key :: seen) rest

/-- Accept a model with a primary key and no repeated name. -/
def validate (m : Model) : Except SchemaError Unit := do
  let _ ← m.primaryKey
  match firstRepeat? [] m.declaredKeys with
  | some key => .error (.duplicateKey m.name key)
  | none => .ok ()

theorem firstRepeat?_eq_none_iff {seen keys : List String} :
    firstRepeat? seen keys = none ↔ keys.Nodup ∧ ∀ key ∈ keys, key ∉ seen := by
  induction keys generalizing seen with
  | nil => simp [firstRepeat?]
  | cons key rest ih =>
    by_cases h : key ∈ seen
    · simp [firstRepeat?, h]
    · simp only [firstRepeat?, h, if_false, ih, List.nodup_cons, List.mem_cons, not_or,
        forall_eq_or_imp, not_false_eq_true, true_and]
      constructor
      · rintro ⟨nodup, fresh⟩
        exact ⟨⟨fun mem => (fresh key mem).1 rfl, nodup⟩, fun k mem => (fresh k mem).2⟩
      · rintro ⟨⟨absent, nodup⟩, fresh⟩
        exact ⟨nodup, fun k mem => ⟨fun same => absent (same ▸ mem), fresh k mem⟩⟩

end Model

end RecordGraph
