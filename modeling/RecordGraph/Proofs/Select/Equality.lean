import RecordGraph.Proofs.Data.Equality
import RecordGraph.Select.Selection

/-!
# Equality of expressions, conditions and sort keys

What a query is made of is compared as documents are: the signs of zeros among its
constants do not count, and everything else does. So equal expressions are those with one
normal form, and equality of expressions, of conditions and of sort keys is an equivalence.
-/

namespace RecordGraph

namespace Expr

mutual

/-- The expression with every floating-point zero among its constants made positive. -/
def normal : Expr → Expr
  | .attribute path name => .attribute path name
  | .column name => .column name
  | .call function args => .call function (normalAll args)
  | .constant v => .constant v.normal
  | .named name inner => .named name (normal inner)
  | .association key => .association key

/-- Arguments with every floating-point zero among their constants made positive. -/
def normalAll : List Expr → List Expr
  | [] => []
  | e :: rest => normal e :: normalAll rest

end

mutual

private theorem beq_normal : ∀ x y : Expr, beq x y = true ↔ x.normal = y.normal
  | .attribute _ _, y | .column _, y | .association _, y => by cases y <;> simp [beq, normal]
  | .constant v, y => by
      cases y with
      | constant w => simpa [beq, normal] using Value.beq_iff
      | _ => simp [beq, normal]
  | .named n x, y => by
      cases y with
      | named m y => simp [beq, normal, beq_normal x y]
      | _ => simp [beq, normal]
  | .call f xs, y => by
      cases y with
      | call g ys => simp [beq, normal, beqAll_normal xs ys]
      | _ => simp [beq, normal]

private theorem beqAll_normal :
    ∀ xs ys : List Expr, beqAll xs ys = true ↔ normalAll xs = normalAll ys
  | [], ys => by cases ys <;> simp [beqAll, normalAll]
  | x :: xs, ys => by
      cases ys with
      | nil => simp [beqAll, normalAll]
      | cons y ys => simp [beqAll, normalAll, beq_normal x y, beqAll_normal xs ys]

end

/-- Expressions are equal exactly when they differ in the signs of zeros only. -/
theorem beq_iff {x y : Expr} : (x == y) = true ↔ x.normal = y.normal :=
  beq_normal x y

instance : EquivBEq Expr where
  rfl := beq_iff.mpr rfl
  symm h := beq_iff.mpr (beq_iff.mp h).symm
  trans h k := beq_iff.mpr ((beq_iff.mp h).trans (beq_iff.mp k))

end Expr

namespace Condition

/-- Conditions are equal exactly when their maps are equal documents. -/
theorem beq_iff {a b : Condition} :
    (a == b) = true ↔ (Value.obj a.fields == Value.obj b.fields) = true :=
  Iff.rfl

instance : EquivBEq Condition where
  rfl := beq_iff.mpr BEq.rfl
  symm h := beq_iff.mpr (BEq.symm (beq_iff.mp h))
  trans h k := beq_iff.mpr (BEq.trans (beq_iff.mp h) (beq_iff.mp k))

end Condition

namespace OrderTerm

theorem beq_iff {s t : OrderTerm} :
    (s == t) = true ↔ (s.expr == t.expr) = true ∧ s.direction = t.direction := by
  change (s.expr == t.expr && s.direction == t.direction) = true ↔ _
  simp

instance : EquivBEq OrderTerm where
  rfl := beq_iff.mpr ⟨BEq.rfl, rfl⟩
  symm h := beq_iff.mpr ⟨BEq.symm (beq_iff.mp h).1, (beq_iff.mp h).2.symm⟩
  trans h k := beq_iff.mpr
    ⟨BEq.trans (beq_iff.mp h).1 (beq_iff.mp k).1, (beq_iff.mp h).2.trans (beq_iff.mp k).2⟩

end OrderTerm

end RecordGraph
