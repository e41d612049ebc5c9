import RecordGraph.Schema.Association
import RecordGraph.Schema.Attribute

/-!
# Written forms of the schema

Attributes and associations as documents, with what follows from a declaration
beside what is declared: whether an attribute is required, the name that rows are
filed under.
-/

namespace RecordGraph

/-- A text, or null where there is none. -/
def Value.ofText? (s : Option String) : Value :=
  (s.map Value.str).getD .null

@[simp] theorem Value.text?_ofText? (s : Option String) : (Value.ofText? s).text? = s := by
  cases s <;> rfl

/-- The written form of an attribute. -/
def Attribute.toValue (a : Attribute) : Value :=
  .obj [("auto", .bool a.autoIncrement), ("default", a.default.getD .null),
    ("has_default", .bool a.default.isSome), ("name", .str a.name),
    ("null", .bool a.allowNull), ("pk", .bool a.primaryKey), ("required", .bool a.isRequired),
    ("type", .str a.dataType.word), ("unique", .bool a.unique)]

/-- The written form of an association. -/
def Association.toValue (a : Association) : Value :=
  .obj [("alias", .str a.canonicalAlias), ("fk", .ofText? a.foreignKey), ("key", .str a.key),
    ("kind", .str a.kind.word), ("other_key", .ofText? a.otherKey),
    ("owned_by_target", .bool a.kind.isOwnedByTarget), ("target", .str a.target),
    ("through", .ofText? a.through), ("to_many", .bool a.kind.isToMany)]

end RecordGraph
