import RecordGraph.Proofs.Filter.Folding
import RecordGraph.Proofs.Data.Steps
import RecordGraph.Proofs.Text.Dotted

/-!
# References to columns

In a document, an object with the reserved key for a column is a reference to one. The
documents of a request have references inside operands, in projections and in groups, and
all of them come from the expressions and conditions that the request was made from: writing
an expression as a document refers to the columns that occur in the expression, and folding
conditions together keeps what they refer to.
-/

namespace RecordGraph

open RecordGraph.Filter

/-- A reference to a column stands in a document, at any depth. -/
inductive Value.Refers (column : String) : Value → Prop where
  | here {fields : Record} (entry : fields.get? columnKey = some (.str column)) :
      Refers column (.obj fields)
  | field {fields : Record} {key : String} {v : Value} (entry : fields.get? key = some v)
      (inner : Refers column v) : Refers column (.obj fields)
  | item {items : List Value} {v : Value} (member : v ∈ items) (inner : Refers column v) :
      Refers column (.arr items)

/-- An entry of an object makes it a reference to a column, or has one in it. -/
def Value.RefersUnder (column key : String) (v : Value) : Prop :=
  key = columnKey ∧ v = .str column ∨ v.Refers column

/-- A column occurs in an expression. An attribute is the column of its dotted path, as far as
the expression goes. -/
inductive Expr.Refers (column : String) : Expr → Prop where
  | attribute {path : List String} {name : String} (written : Expr.dottedName path name = column) :
      Refers column (.attribute path name)
  | column : Refers column (.column column)
  | association : Refers column (.association column)
  | argument {function : String} {args : List Expr} {e : Expr} (member : e ∈ args)
      (inner : Refers column e) : Refers column (.call function args)
  | constant {v : Value} (inner : v.Refers column) : Refers column (.constant v)
  | named {name : String} {e : Expr} (inner : Refers column e) : Refers column (.named name e)

namespace Value

variable {column key : String} {fields : Record} {items : List Value} {v w : Value}

theorem refers_obj : (obj fields).Refers column ↔ fields.Any (RefersUnder column) := by
  constructor
  · rintro (entry | ⟨entry, inner⟩)
    · exact ⟨_, _, entry, .inl ⟨rfl, rfl⟩⟩
    · exact ⟨_, _, entry, .inr inner⟩
  · rintro ⟨key, v, entry, ⟨rfl, rfl⟩ | inner⟩
    · exact .here entry
    · exact .field entry inner

theorem refers_arr : (arr items).Refers column ↔ ∃ v ∈ items, v.Refers column := by
  constructor
  · rintro ⟨⟩
    exact ⟨_, ‹_›, ‹_›⟩
  · rintro ⟨v, member, inner⟩
    exact .item member inner

theorem not_refers_str {s : String} : ¬ (str s).Refers column := nofun

/-- What a document refers to does not depend on how its numbers are written. -/
theorem Refers.of_normal (h : v.Refers column) :
    ∀ w : Value, w.normal = v.normal → w.Refers column := by
  induction h with
  | here entry =>
      intro w same
      obtain ⟨others, rfl, alike⟩ := obj_of_normal same
      obtain ⟨v, there, normal⟩ := Dict.get?_of_mapValues_eq alike entry
      exact .here (str_of_normal normal ▸ there)
  | field entry inner ih =>
      intro w same
      obtain ⟨others, rfl, alike⟩ := obj_of_normal same
      obtain ⟨v, there, normal⟩ := Dict.get?_of_mapValues_eq alike entry
      exact .field there (ih v normal)
  | item member inner ih =>
      intro w same
      obtain ⟨others, rfl, alike⟩ := arr_of_normal same
      obtain ⟨v, there, normal⟩ := List.mem_map.mp (alike ▸ List.mem_map_of_mem member)
      exact .item there (ih v normal)

/-- Referring to a column is a matter of the parts of a document. -/
theorem ofParts_refersUnder : Condition.OfParts (RefersUnder column) (Refers column) where
  congr := by
    rintro key v w same (⟨reserved, rfl⟩ | inner)
    · exact .inl ⟨reserved, str_of_normal (beq_iff.mp same)⟩
    · exact .inr (inner.of_normal _ (beq_iff.mp same))
  conjunction := by
    have other : andKey ≠ columnKey := by decide
    intro items
    simp [RefersUnder, other, refers_arr]
  alone := by
    have other : andKey ≠ columnKey := by decide
    intro v _
    simp [RefersUnder, other]
  clause := refers_obj
  object := by
    refine fun key => .inr (.inr fun fields => ?_)
    simp [RefersUnder, refers_obj]

end Value

/-! ### Expressions -/

namespace Expr

variable {column : String} {e : Expr}

theorem operands_eq_map (args : List Expr) : operands args = args.map operand := by
  induction args with
  | nil => rfl
  | cons e rest ih => rw [operands, ih, List.map_cons]

theorem refers_reference {name : String} : (reference name).Refers column ↔ name = column := by
  simp only [reference, Value.refers_obj, Dict.any_single, Value.RefersUnder, Value.str.injEq,
    Value.not_refers_str, or_false, true_and]

theorem refers_call {function : String} {args : List Expr} :
    (operand (.call function args)).Refers column ↔ ∃ e ∈ args, e.operand.Refers column := by
  have notCall : callKey ≠ columnKey := by decide
  have notArguments : argumentsKey ≠ columnKey := by decide
  have ascending : Dict.Ascending
      [(callKey, Value.str function), (argumentsKey, .arr (operands args))] := by
    simp only [Dict.Ascending, List.pairwise_pair]
    decide
  rw [operand, Value.refers_obj, Dict.any_iff_exists_mem ascending]
  simp [Value.RefersUnder, notCall, notArguments, Value.not_refers_str, Value.refers_arr,
    operands_eq_map]

/-- The document of an expression refers to the columns that occur in it. -/
theorem refers_operand_iff : ∀ e : Expr, e.operand.Refers column ↔ e.Refers column
  | .attribute path name => by
      rw [operand, refers_reference]
      exact ⟨.attribute, fun | .attribute written => written⟩
  | .column name => by
      rw [operand, refers_reference]
      exact ⟨fun same => same ▸ .column, fun | .column => rfl⟩
  | .association key => by
      rw [operand, refers_reference]
      exact ⟨fun same => same ▸ .association, fun | .association => rfl⟩
  | .call function args => by
      rw [refers_call]
      constructor
      · rintro ⟨e, member, inner⟩
        exact .argument member ((refers_operand_iff e).mp inner)
      · rintro (_ | _ | _ | ⟨member, inner⟩)
        exact ⟨_, member, (refers_operand_iff _).mpr inner⟩
  | .constant v => ⟨.constant, fun | .constant inner => inner⟩
  | .named name e => by
      rw [operand, refers_operand_iff e]
      exact ⟨.named, fun | .named inner => inner⟩

end Expr

/-! ### Conditions -/

namespace Condition

variable {column key : String} {a b c : Condition}

/-- A condition refers to a column. -/
def Refers (column : String) (c : Condition) : Prop :=
  (Value.obj c.fields).Refers column

theorem refers_iff : c.Refers column ↔ c.fields.Any (Value.RefersUnder column) :=
  Value.refers_obj

theorem refers_and (ha : a.Ordered) (hb : b.Ordered) :
    (a.and b).Refers column ↔ a.Refers column ∨ b.Refers column := by
  simp only [refers_iff]
  exact Value.ofParts_refersUnder.any_and ha.all hb

theorem refers_or : (a.or b).Refers column ↔ a.Refers column ∨ b.Refers column := by
  have other : orKey ≠ columnKey := by decide
  rw [refers_iff, Condition.or, Dict.any_single]
  simp [Value.RefersUnder, other, Value.refers_arr, Refers]

theorem refers_build {op : Operator} {right : Value} (ne : key ≠ columnKey) :
    (build key op right).Refers column ↔ right.Refers column := by
  have other : op.key ≠ columnKey := by cases op <;> decide
  rw [refers_iff, build, Dict.any_single]
  split
  · simp [Value.RefersUnder, ne]
  · simp [Value.RefersUnder, ne, other, Value.refers_obj, Dict.any_single]

end Condition

/-- A right side refers to a column. -/
def Operand.Refers (column : String) : Operand → Prop
  | .value v => v.Refers column
  | .expr e => e.Refers column

theorem Operand.refers_toValue_iff {column : String} (right : Operand) :
    right.toValue.Refers column ↔ right.Refers column := by
  cases right with
  | value v => rfl
  | expr e => exact Expr.refers_operand_iff e

namespace Condition

/-- A condition that is put together from comparisons with some right sides. -/
inductive Compares : Condition → List Operand → Prop where
  | one {left : Expr} {op : Operator} {right : Operand} {c : Condition}
      (free : left.leftKey? ≠ some columnKey) (inOrder : InOrder right.toValue)
      (done : compare left op right = .ok c) : Compares c [right]
  | list {left : Expr} {op : Operator} {rights : List Operand} {c : Condition}
      (free : left.leftKey? ≠ some columnKey) (done : compareList left op rights = .ok c) :
      Compares c rights
  | both {a b : Condition} {xs ys : List Operand} (left : Compares a xs) (right : Compares b ys) :
      Compares (a.and b) (xs ++ ys)
  | either {a b : Condition} {xs ys : List Operand} (left : Compares a xs)
      (right : Compares b ys) : Compares (a.or b) (xs ++ ys)

variable {column : String} {left : Expr} {c : Condition} {rights : List Operand}

theorem leftKey_ok {key : String} (done : left.leftKey = .ok key) : left.leftKey? = some key := by
  rw [Expr.leftKey] at done
  split at done
  · cases done
    assumption
  · cases done

theorem ordered_build {key : String} {op : Operator} {right : Value} (inOrder : InOrder right) :
    (build key op right).Ordered := by
  refine ⟨Dict.ascending_single _ _, List.forall_mem_singleton.mpr ?_⟩
  dsimp only
  split
  · exact inOrder
  · exact Dict.ascending_single _ _

theorem Compares.ordered (h : Compares c rights) : c.Ordered := by
  induction h with
  | one _ inOrder done =>
      obtain ⟨key, -, done⟩ := bind_eq_ok_iff.mp done
      cases done
      exact ordered_build inOrder
  | list _ done =>
      obtain ⟨key, -, done⟩ := bind_eq_ok_iff.mp done
      cases done
      exact ordered_build trivial
  | both _ _ ha hb => exact ha.and hb
  | either => exact ⟨Dict.ascending_single _ _, List.forall_mem_singleton.mpr trivial⟩

/-- What is put together from comparisons refers to the columns of their right sides. -/
theorem Compares.refers_iff (h : Compares c rights) :
    c.Refers column ↔ ∃ right ∈ rights, right.Refers column := by
  induction h with
  | one free _ done =>
      obtain ⟨key, found, done⟩ := bind_eq_ok_iff.mp done
      cases done
      have other : key ≠ columnKey := fun same => free (same ▸ leftKey_ok found)
      simp [refers_build other, Operand.refers_toValue_iff]
  | list free done =>
      obtain ⟨key, found, done⟩ := bind_eq_ok_iff.mp done
      cases done
      have other : key ≠ columnKey := fun same => free (same ▸ leftKey_ok found)
      simp [refers_build other, Value.refers_arr, Operand.refers_toValue_iff]
  | both left right ha hb =>
      simp only [refers_and left.ordered right.ordered, ha, hb, List.mem_append, or_and_right,
        exists_or]
  | either _ _ ha hb =>
      simp only [refers_or, ha, hb, List.mem_append, or_and_right, exists_or]

end Condition

/-! ### Selections -/

/-- An item of a projection refers to a column, by name or inside an expression. -/
def Request.Projection.Refers (column : String) : Request.Projection → Prop
  | .name n => n = column
  | .aliased v _ | .expr v => v.Refers column

/-- A group refers to a column, by name or inside an expression. -/
def Value.Groups (column : String) (v : Value) : Prop :=
  v = .str column ∨ v.Refers column

namespace Expr

variable {column : String}

theorem refers_projection_iff (e : Expr) : e.projection.Refers column ↔ e.Refers column := by
  rw [← refers_operand_iff]
  match e with
  | .attribute [] name =>
      rw [operand, refers_reference, dottedName, List.nil_append, Text.dotted_singleton]
      rfl
  | .attribute (_ :: _) _ | .column _ | .association _ | .call .. | .constant _ => rfl
  | .named .. => rw [operand]; rfl

/-- A text among the groups is a column, however it came about. -/
theorem groups_grouping_iff (e : Expr) :
    e.grouping.Groups column ↔ e.Refers column ∨ e.operand = .str column := by
  rw [← refers_operand_iff, or_comm]
  match e with
  | .attribute path name =>
      rw [operand, refers_reference]
      simp [grouping, Value.Groups, reference, Value.not_refers_str]
  | .column _ | .association _ | .call .. | .constant _ | .named .. => rfl

end Expr

namespace Selection

variable {column : String} {s : Selection}

/-- A selection refers to a column, in a condition or among its attributes. -/
def Refers (column : String) (s : Selection) : Prop :=
  (∃ c ∈ s.conditions, c.Refers column) ∨ ∃ e ∈ s.attributes, e.Refers column

/-- The filter of a selection refers to the columns that its conditions refer to. -/
theorem refers_filter_iff (ordered : ∀ c ∈ s.conditions, c.Ordered) :
    (Value.obj s.filter).Refers column ↔ ∃ c ∈ s.conditions, c.Refers column := by
  simp only [Value.refers_obj, Condition.refers_iff]
  exact Value.ofParts_refersUnder.any_filter_iff ordered

theorem refers_projection?_iff :
    (∃ item ∈ s.projection?.getD [], item.Refers column) ↔
      ∃ e ∈ s.attributes, e.Refers column := by
  simp [projection?, Expr.refers_projection_iff]

theorem groups_groups?_iff :
    (∃ v ∈ s.groups?.getD [], v.Groups column) ↔
      ∃ e ∈ s.groupings, e.Refers column ∨ e.operand = .str column := by
  simp [groups?, Expr.groups_grouping_iff]

end Selection

/-! ### Requests -/

/-- An include of a list, or one below it. -/
inductive Request.Include.Among (i : Request.Include) : List Request.Include → Prop where
  | here {includes : List Request.Include} (member : i ∈ includes) : Among i includes
  | under {includes : List Request.Include} {j : Request.Include} (member : j ∈ includes)
      (inner : Among i j.children) : Among i includes

/-- An include of a list, or one below it. -/
inductive Include.Among (i : Include) : List Include → Prop where
  | here {includes : List Include} (member : i ∈ includes) : Among i includes
  | under {includes : List Include} {j : Include} (member : j ∈ includes)
      (inner : Among i j.children) : Among i includes

/-- An include refers to a column, in its filter or its projection. -/
def Request.IncludeHead.Refers (column : String) (h : Request.IncludeHead) : Prop :=
  (Value.obj (h.filter.getD [])).Refers column ∨
    ∃ item ∈ h.attributes.getD [], item.Refers column

/-- A request refers to a column elsewhere than in a key of a filter or among the sort keys: in
an operand or the projection, of the model itself or of an include, or in a group. -/
def Request.Find.Refers (column : String) (f : Request.Find) : Prop :=
  (Value.obj f.filter).Refers column ∨
  (∃ item ∈ f.attributes.getD [], item.Refers column) ∨
  (∃ i : Request.Include, i.Among f.includeList ∧ i.head.Refers column) ∨
  ∃ v ∈ f.group.getD [], v.Groups column

/-- The conditions on the rows of an include stand in key order. -/
def Include.Ordered (i : Include) : Prop :=
  ∀ d, i.descriptor? = some d → ∀ c ∈ d.selection.conditions, c.Ordered

/-- An include refers to a column. -/
def Include.Refers (column : String) (i : Include) : Prop :=
  ∃ d, i.descriptor? = some d ∧ d.selection.Refers column

namespace Include

variable {column : String} {includes : List Include}

theorem toRequests_eq_map (includes : List Include) :
    toRequests includes = includes.map toRequest := by
  induction includes with
  | nil => rfl
  | cons i rest ih => rw [toRequests, ih, List.map_cons]

theorem children_toRequest (i : Include) : (toRequest i).children = toRequests i.children := by
  cases i with
  | plain edge => rfl
  | nested edge s children => cases children <;> rfl

theorem head_toRequest (i : Include) :
    (toRequest i).head = head i.edge (i.descriptor?.map (·.selection)) := by
  cases i with
  | plain edge => rfl
  | nested edge s children => cases children <;> rfl

/-- The includes of a request are those that it was made from, level by level. -/
theorem among_toRequests_iff {j : Request.Include} :
    j.Among (toRequests includes) ↔ ∃ i, i.Among includes ∧ toRequest i = j := by
  constructor
  · intro among
    generalize made : toRequests includes = requests at among
    induction among generalizing includes with
    | here member =>
        subst made
        rw [toRequests_eq_map, List.mem_map] at member
        obtain ⟨i, there, same⟩ := member
        exact ⟨i, .here there, same⟩
    | under member inner ih =>
        subst made
        rw [toRequests_eq_map, List.mem_map] at member
        obtain ⟨i, there, rfl⟩ := member
        obtain ⟨k, among, same⟩ := ih (children_toRequest i).symm
        exact ⟨k, .under there among, same⟩
  · rintro ⟨i, among, rfl⟩
    induction among with
    | here member =>
        rw [toRequests_eq_map]
        exact .here (List.mem_map_of_mem member)
    | under member inner ih =>
        rw [toRequests_eq_map]
        exact .under (List.mem_map_of_mem member) (children_toRequest _ ▸ ih)

theorem refers_head_iff {i : Include} (ordered : i.Ordered) :
    (toRequest i).head.Refers column ↔ i.Refers column := by
  rw [head_toRequest, Include.Refers]
  cases found : i.descriptor? with
  | none =>
      simp [head, Request.IncludeHead.Refers, Value.refers_obj, Dict.any_nil]
  | some d =>
      simp only [head, Option.map_some, Request.IncludeHead.Refers, Selection.getD_nonEmpty?,
        Selection.refers_filter_iff (ordered d found), Selection.refers_projection?_iff]
      simp [Selection.Refers]

end Include

namespace Descriptor

variable {column : String} {d : Descriptor}

/-- The conditions of a descriptor and of all its includes stand in key order. -/
structure Ordered (d : Descriptor) : Prop where
  own : ∀ c ∈ d.selection.conditions, c.Ordered
  includes : ∀ i : Include, i.Among d.includes → i.Ordered

/-- A descriptor refers to a column: its selection does or that of an include, or the column
occurs in a grouping, of which one by a text is one by the column of that name. -/
def Refers (column : String) (d : Descriptor) : Prop :=
  d.selection.Refers column ∨ (∃ i : Include, i.Among d.includes ∧ i.Refers column) ∨
  ∃ e ∈ d.selection.groupings, e.Refers column ∨ e.operand = .str column

/-- A request refers to the columns that the descriptor refers to, each under the name that it
has there. -/
theorem refers_toFind_iff {r : Registry} {request : Request.Find} (ordered : d.Ordered)
    (done : d.toFind r = .ok request) : request.Refers column ↔ d.Refers column := by
  obtain ⟨order, -, done⟩ := bind_eq_ok_iff.mp done
  cases done
  have below : (∃ i : Request.Include, i.Among (Include.toRequests d.includes) ∧
      i.head.Refers column) ↔ ∃ i : Include, i.Among d.includes ∧ i.Refers column := by
    constructor
    · rintro ⟨j, among, refers⟩
      obtain ⟨i, there, rfl⟩ := Include.among_toRequests_iff.mp among
      exact ⟨i, there, (Include.refers_head_iff (ordered.includes i there)).mp refers⟩
    · rintro ⟨i, there, refers⟩
      exact ⟨i.toRequest, Include.among_toRequests_iff.mpr ⟨i, there, rfl⟩,
        (Include.refers_head_iff (ordered.includes i there)).mpr refers⟩
  simp only [Request.Find.Refers, Request.Find.includeList, Selection.getD_nonEmpty?,
    Selection.refers_filter_iff ordered.own, Selection.refers_projection?_iff,
    Selection.groups_groups?_iff, below, Refers, Selection.Refers, or_assoc]

end Descriptor

end RecordGraph
