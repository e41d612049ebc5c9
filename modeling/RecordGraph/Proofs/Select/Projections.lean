import RecordGraph.Proofs.Select.Equality
import RecordGraph.Proofs.Select.References
import RecordGraph.Select.Compiled
import RecordGraph.Store.Result

/-!
# Written forms of projections

The items of a projection are of three kinds: the name of an attribute, an expression with a
name, and a bare expression. Their written forms do not say which. A name is written as a text
and a named expression as a pair that ends in one; a bare expression is the document that it
is. Columns and calls are objects, so they are taken for neither. A constant can be any
document: the only items that differ and are written alike are a constant text and the
attribute of that name, and a constant pair and the named expression that it spells out.
-/

namespace RecordGraph

namespace Request.Projection

variable {p q : Projection}

/-- The item with every floating-point zero in it made positive. -/
def normal : Projection → Projection
  | .name n => .name n
  | .aliased v n => .aliased v.normal n
  | .expr v => .expr v.normal

theorem toValue_normal (p : Projection) : p.normal.toValue = p.toValue.normal := by
  cases p <;> rfl

/-- An item is what is read from its written form, or bare. -/
theorem eq_ofValue_or_expr (p : Projection) : p = ofValue p.toValue ∨ p = .expr p.toValue := by
  cases p with
  | name n => exact .inl rfl
  | aliased v n => exact .inl rfl
  | expr v => exact .inr rfl

/-- Two items are written alike if they are the same, or one of them is bare and is what is
written for the other. -/
theorem toValue_eq_iff :
    p.toValue = q.toValue ↔ p = q ∨ p = .expr q.toValue ∨ q = .expr p.toValue := by
  constructor
  · intro same
    rcases eq_ofValue_or_expr p with read | bare
    · rcases eq_ofValue_or_expr q with other | bare
      · exact .inl (read.trans (same ▸ other.symm))
      · exact .inr (.inr (same ▸ bare))
    · exact .inr (.inl (same ▸ bare))
  · rintro (rfl | bare | bare)
    · rfl
    · rw [bare, toValue]
    · rw [bare, toValue]

end Request.Projection

namespace Expr

variable {a b e : Expr} {name : String} {v : Value}

/-- A constant is written like an item of another kind: a text like an attribute, a pair like
a named expression. -/
inductive Feigns : Expr → Expr → Prop where
  | name (name : String) : Feigns (.constant (.str name)) (.attribute [] name)
  | named (name : String) (inner : Expr) :
      Feigns (.constant (.arr [inner.operand, .str name])) (.named name inner)

/-! ### What an item comes from -/

theorem eq_attribute_of_projection (named : e.projection = .name name) :
    e = .attribute [] name := by
  unfold projection at named
  split at named
  · cases named
    rfl
  · cases named
  · cases named

theorem exists_named_of_projection (paired : e.projection = .aliased v name) :
    ∃ inner, e = .named name inner ∧ inner.operand = v := by
  unfold projection at paired
  split at paired
  · cases paired
  · cases paired
    exact ⟨_, rfl, rfl⟩
  · cases paired

/-- The document of an expression is an object, unless it comes from a constant. -/
theorem eq_constant_of_projection (bare : e.projection = .expr v)
    (plain : ∀ fields, v ≠ .obj fields) : e = .constant v := by
  unfold projection at bare
  split at bare
  · cases bare
  · cases bare
  · next unnamed =>
      have written : e.operand = v := Request.Projection.expr.inj bare
      cases e with
      | constant value => exact congrArg constant written
      | named name inner => exact absurd rfl (unnamed name inner)
      | _ => exact absurd written.symm (plain _)

/-! ### Items that are written alike -/

/-- A constant that feigns an item is bare, and is what is written for the item. -/
theorem Feigns.projection_eq (feigns : a.Feigns b) :
    a.projection = .expr b.projection.toValue := by
  cases feigns <;> rfl

/-- A bare item that is what is written for another one is the same item, or feigns it. -/
theorem feigns_of_projection (bare : a.projection = .expr b.projection.toValue) :
    a.projection = b.projection ∨ a.Feigns b := by
  cases other : b.projection with
  | name n =>
      rw [other] at bare
      rw [eq_constant_of_projection bare nofun, eq_attribute_of_projection other]
      exact .inr (.name n)
  | aliased v n =>
      rw [other] at bare
      obtain ⟨inner, rfl, rfl⟩ := exists_named_of_projection other
      rw [eq_constant_of_projection bare nofun]
      exact .inr (.named n inner)
  | expr v =>
      rw [other] at bare
      exact .inl bare

theorem toValue_projection_eq_iff : a.projection.toValue = b.projection.toValue ↔
    a.projection = b.projection ∨ a.Feigns b ∨ b.Feigns a := by
  rw [Request.Projection.toValue_eq_iff]
  constructor
  · rintro (same | bare | bare)
    · exact .inl same
    · exact (feigns_of_projection bare).imp_right .inl
    · exact (feigns_of_projection bare).imp Eq.symm .inr
  · rintro (same | feigns | feigns)
    · exact .inl same
    · exact .inr (.inl feigns.projection_eq)
    · exact .inr (.inr feigns.projection_eq)

/-! ### Equal documents -/

mutual

theorem operand_normal (e : Expr) : e.normal.operand = e.operand.normal := by
  cases e with
  | named name inner => exact operand_normal inner
  | call function args =>
      simp only [normal, operand, operands_normal args]
      rfl
  | _ => rfl

theorem operands_normal (args : List Expr) :
    operands (normalAll args) = Value.normalItems (operands args) := by
  cases args with
  | nil => rfl
  | cons e rest =>
      simp only [normalAll, operands, operand_normal e, operands_normal rest]
      rfl

end

theorem projection_normal (e : Expr) : e.normal.projection = e.projection.normal := by
  cases e with
  | named name inner =>
      exact congrArg (Request.Projection.aliased · name) (operand_normal inner)
  | call function args =>
      exact congrArg Request.Projection.expr (operand_normal (.call function args))
  | column | constant | association => rfl
  | _ path name => cases path <;> rfl

/-- The written forms of two items are the same document exactly if the items are the same or
one of them is a constant that feigns the other, and they are equal documents exactly if this
holds up to the signs of zeros. So items without a constant text or pair among them are told
apart by what is written for them. -/
theorem projection_forms_eq_iff (a b : Expr) :
    (a.projection.toValue = b.projection.toValue ↔
      a.projection = b.projection ∨ a.Feigns b ∨ b.Feigns a) ∧
    ((a.projection.toValue == b.projection.toValue) = true ↔
      a.projection.normal = b.projection.normal ∨
        a.normal.Feigns b.normal ∨ b.normal.Feigns a.normal) := by
  refine ⟨toValue_projection_eq_iff, ?_⟩
  rw [Value.beq_iff, ← Request.Projection.toValue_normal, ← Request.Projection.toValue_normal,
    ← projection_normal, ← projection_normal]
  exact toValue_projection_eq_iff

/-- The constant text is written like the attribute, which is in the record and can be read as
a projection where the constant cannot; the constant pair is written like the number one with
a name. -/
theorem constants_feign_items :
    (Expr.constant (.str "age")).projection ≠ (Expr.attribute [] "age").projection ∧
    (Expr.constant (.str "age")).projection.toValue =
      (Expr.attribute [] "age").projection.toValue ∧
    Result.project [("age", .ofInt 30)] (some [(Expr.attribute [] "age").projection]) =
      .ok [("age", .ofInt 30)] ∧
    Result.project [("age", .ofInt 30)] (some [(Expr.constant (.str "age")).projection]) =
      .error (.unsupported .projection) ∧
    (Expr.constant (.arr [.ofInt 1, .str "total"])).projection ≠
      (Expr.named "total" (.constant (.ofInt 1))).projection ∧
    (Expr.constant (.arr [.ofInt 1, .str "total"])).projection.toValue =
      (Expr.named "total" (.constant (.ofInt 1))).projection.toValue :=
  ⟨nofun, rfl, rfl, rfl, nofun, rfl⟩

end Expr

end RecordGraph
