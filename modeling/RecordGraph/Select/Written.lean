import RecordGraph.Select.Descriptor

/-!
# The written form of descriptors

Descriptors are written as documents that show every part of them, so that two
descriptors with the same document ask for the same.
-/

namespace RecordGraph

namespace Expr

mutual

/-- The written form of an expression. -/
def toValue : Expr → Value
  | .attribute path name => .obj [("attr", .str name), ("path", .arr (path.map .str))]
  | .column name => .obj [("col", .str name)]
  | .call function args => .obj [("args", .arr (toValues args)), ("fn", .str function)]
  | .constant v => .obj [("const", v)]
  | .named name inner => .obj [("alias", .str name), ("of", toValue inner)]
  | .association key => .obj [("assoc", .str key)]

/-- The written forms of the arguments of a call. -/
def toValues : List Expr → List Value
  | [] => []
  | e :: rest => toValue e :: toValues rest

end

end Expr

/-- The written form of a sort key. -/
def OrderTerm.toValue (t : OrderTerm) : Value :=
  .arr [t.expr.toValue, .str t.direction.word]

/-- The written form of a selection with the written forms of its includes. -/
def Selection.toValue (s : Selection) (includes : List Value) : Value :=
  .obj <| Dict.ofList
    [("model", .str s.model), ("wheres", .arr (s.conditions.map fun c => .obj c.fields)),
      ("attrs", .arr (s.attributes.map Expr.toValue)), ("includes", .arr includes),
      ("orderings", .arr (s.orderings.map OrderTerm.toValue)),
      ("group_bys", .arr (s.groupings.map Expr.toValue)),
      ("skipped", Request.natValue s.skipped), ("taken", Request.natValue s.taken)]

/-- The written form of an edge with that of the query below it. -/
def Edge.toValue (e : Edge) (nested : Value) : Value :=
  .obj <| Dict.ofList
    [("target", .str e.target), ("alias", .str e.label), ("required", .bool e.required),
      ("associate_only", .bool e.associateOnly), ("nested", nested)]

namespace Include

mutual

/-- The written form of an include. -/
def toValue : Include → Value
  | .plain edge => edge.toValue .null
  | .nested edge selection children => edge.toValue (selection.toValue (toValues children))

/-- The written forms of a list of includes. -/
def toValues : List Include → List Value
  | [] => []
  | i :: rest => toValue i :: toValues rest

end

end Include

/-- The written form of a descriptor. -/
def Descriptor.toValue (d : Descriptor) : Value :=
  d.selection.toValue (Include.toValues d.includes)

end RecordGraph
