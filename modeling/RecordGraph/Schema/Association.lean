/-!
# Associations

An association leads from the model that declares it to a target model, named and
looked up when needed. It is known by its key and by its alias; rows loaded through
it are filed under the alias.
-/

namespace RecordGraph

/-- How source and target rows are connected. -/
inductive AssociationKind where
  /-- The source holds the key of one target. -/
  | belongsTo
  /-- One target holds the key of the source. -/
  | hasOne
  /-- The targets hold the key of the source. -/
  | hasMany
  /-- A join table holds pairs of keys. -/
  | belongsToMany
deriving DecidableEq, Repr

namespace AssociationKind

/-- Every kind of association. -/
def all : List AssociationKind :=
  [.belongsTo, .hasOne, .hasMany, .belongsToMany]

/-- The word for a kind of association. -/
def word : AssociationKind → String
  | .belongsTo => "belongs_to"
  | .hasOne => "has_one"
  | .hasMany => "has_many"
  | .belongsToMany => "belongs_to_many"

/-- The kind of association of a word. -/
def ofWord? (s : String) : Option AssociationKind :=
  all.find? (·.word == s)

@[simp] theorem ofWord?_word (k : AssociationKind) : ofWord? k.word = some k := by
  cases k <;> decide

/-- Whether a row is connected to a list of targets. -/
def isToMany : AssociationKind → Bool
  | .hasMany | .belongsToMany => true
  | .belongsTo | .hasOne => false

/-- Whether the connecting column lies on the target. -/
def isOwnedByTarget : AssociationKind → Bool
  | .hasOne | .hasMany => true
  | .belongsTo | .belongsToMany => false

end AssociationKind

/-- A connection declared on a model. -/
structure Association where
  key : String
  kind : AssociationKind
  /-- Name of the target model. -/
  target : String
  /-- The connecting column, where it is not the usual one. -/
  foreignKey : Option String := none
  /-- The join table's column for the target, where it is not the usual one. -/
  otherKey : Option String := none
  /-- Name of the join table. -/
  through : Option String := none
  /-- The name that rows are filed under, where it is not the key. -/
  declaredAlias : Option String := none
deriving DecidableEq, Repr

namespace Association

/-- The name that rows are filed under. -/
def canonicalAlias (a : Association) : String :=
  a.declaredAlias.getD a.key

/-- Whether a name refers to the association. -/
def answersTo (a : Association) (name : String) : Bool :=
  a.key == name || a.canonicalAlias == name

/-- The join table's column for the target. -/
def joinTargetColumn (a : Association) : String :=
  a.otherKey.getD (a.target ++ "Id")

theorem answersTo_iff {a : Association} {name : String} :
    a.answersTo name = true ↔ a.key = name ∨ a.canonicalAlias = name := by
  simp [answersTo]

@[simp] theorem answersTo_key (a : Association) : a.answersTo a.key = true := by
  simp [answersTo]

@[simp] theorem answersTo_canonicalAlias (a : Association) :
    a.answersTo a.canonicalAlias = true := by
  simp [answersTo]

end Association

end RecordGraph
