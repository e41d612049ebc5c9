import RecordGraph.Proofs.Filter.Conjunction

/-!
# Trees of comparisons

A predicate is a tree of comparisons put together with `and`, `or` and `all`; its value
on a record is the Boolean value of the tree, given that of each comparison. Compiling
a tree merges the maps of its parts into one, and `accepts_compile` says that nothing
is lost or refused on the way: the compiled map evaluates to the value of the tree.

The comparisons are those the engine can evaluate: a column of the record on the left,
scalars or further columns of the record on the right.
-/

namespace RecordGraph

/-- Whether the engine evaluates the comparison; the others need arrays or ranges. -/
def Operator.isEvaluable : Operator → Bool
  | .overlap | .contains | .contained | .any | .adjacent | .strictLeft | .strictRight
  | .noExtendRight | .noExtendLeft => false
  | _ => true

/-- The engine evaluates a comparison exactly when it never refuses it. -/
theorem Operator.isEvaluable_iff {op : Operator} :
    op.isEvaluable = true ↔ ∀ actual operand, ∃ b, op.test actual operand = .ok b := by
  constructor
  · intro h actual operand
    cases op with
    | overlap | contains | contained | any | adjacent | strictLeft | strictRight
    | noExtendRight | noExtendLeft => simp [isEvaluable] at h
    | isIn | notIn =>
        simp only [test, test?]
        cases Value.present? actual <;> cases operand <;> exact ⟨_, rfl⟩
    | _ => exact ⟨_, rfl⟩
  · intro h
    obtain ⟨b, answer⟩ := h none .null
    cases op <;> simp_all [isEvaluable, test, test?]

/-- A scalar, or a column of the record that is looked at. -/
inductive Atom where
  | null
  | bool (value : Bool)
  | num (value : Number)
  | str (value : String)
  | column (name : String) (undotted : Text.hasDot name = false)

/-- The right side that an atom stands for. -/
def Atom.operand : Atom → Operand
  | .null => .value .null
  | .bool b => .value (.bool b)
  | .num n => .value (.num n)
  | .str s => .value (.str s)
  | .column name _ => .expr (.column name)

/-- The right side of a comparison: one atom, or a list of them. -/
inductive Comparand where
  | one (atom : Atom)
  | list (atoms : List Atom)

/-- The document of a right side. -/
def Comparand.toValue : Comparand → Value
  | .one atom => atom.operand.toValue
  | .list atoms => .arr (atoms.map fun atom => atom.operand.toValue)

/-- A comparison of a column that the engine evaluates. -/
structure Comparison where
  column : String
  free : Filter.isReserved column = false
  op : Operator
  evaluable : op.isEvaluable = true
  right : Comparand

/-- The condition of a comparison. -/
def Comparison.compile (c : Comparison) : Except QueryError Condition :=
  match c.right with
  | .one atom => Condition.compare (.attribute [] c.column) c.op atom.operand
  | .list atoms =>
    Condition.compareList (.attribute [] c.column) c.op (atoms.map Atom.operand)

/-- A tree of comparisons. -/
inductive Predicate where
  | always
  | comparison (c : Comparison)
  | and (left right : Predicate)
  | or (left right : Predicate)
  | all (predicates : List Predicate)

namespace Predicate

mutual

/-- The condition of a tree. -/
def compile : Predicate → Except QueryError Condition
  | .always => .ok .always
  | .comparison c => c.compile
  | .and left right => do
    let a ← left.compile
    let b ← right.compile
    pure (a.and b)
  | .or left right => do
    let a ← left.compile
    let b ← right.compile
    pure (a.or b)
  | .all predicates => do
    let conditions ← compileAll predicates
    pure (.all conditions)

/-- The conditions of a list of trees. -/
def compileAll : List Predicate → Except QueryError (List Condition)
  | [] => .ok []
  | p :: rest => do
    let condition ← p.compile
    let conditions ← compileAll rest
    pure (condition :: conditions)

end

mutual

/-- The Boolean value of a tree, given that of its comparisons. -/
def value (leaf : Comparison → Bool) : Predicate → Bool
  | .always => true
  | .comparison c => leaf c
  | .and left right => left.value leaf && right.value leaf
  | .or left right => left.value leaf || right.value leaf
  | .all predicates => valueAll leaf predicates

/-- Whether all trees of a list are true. -/
def valueAll (leaf : Comparison → Bool) : List Predicate → Bool
  | [] => true
  | p :: rest => p.value leaf && valueAll leaf rest

end

end Predicate

open RecordGraph.Filter Condition

variable {row : Record}

theorem Atom.resolve_ok (atom : Atom) (row : Record) :
    ∃ v, resolve row atom.operand.toValue = .ok v := by
  cases atom with
  | column name undotted =>
      refine ⟨(row.get? name).getD .null, ?_⟩
      simp [operand, Operand.toValue, Expr.operand, Expr.reference, resolve, isReference,
        dereference, Dict.contains, callKey, columnKey, Value.text?, undotted]
  | _ => exact ⟨_, rfl⟩

theorem Comparand.resolve_ok (right : Comparand) (row : Record) :
    ∃ v, resolve row right.toValue = .ok v := by
  cases right with
  | one atom => exact atom.resolve_ok row
  | list atoms =>
      have all : ∃ vs, resolveAll row (atoms.map fun atom => atom.operand.toValue) = .ok vs := by
        induction atoms with
        | nil => exact ⟨[], rfl⟩
        | cons atom rest ih =>
            obtain ⟨v, hv⟩ := atom.resolve_ok row
            obtain ⟨vs, hvs⟩ := ih
            exact ⟨v :: vs, by simp [resolveAll, hv, hvs]⟩
      obtain ⟨vs, hvs⟩ := all
      exact ⟨.arr vs, by simp [toValue, resolve, hvs]⟩

/-- A right side is a literal or a reference, never an operator map. -/
theorem Comparand.comparisons?_eq_none (right : Comparand) : comparisons? right.toValue = none := by
  cases right with
  | one atom =>
      cases atom with
      | column name _ =>
          simp [toValue, Atom.operand, Operand.toValue, Expr.operand, Expr.reference, comparisons?,
            isReference, Dict.contains]
      | _ => rfl
  | list atoms => rfl

/-- Standing bare under a column, a right side is evaluated as an equality. -/
theorem Comparand.matchesColumn_ok (right : Comparand) {key : String}
    (free : isReserved key = false) : ∃ b, matchesColumn row key right.toValue = .ok b := by
  cases right with
  | one atom =>
      cases atom with
      | column name undotted =>
          obtain ⟨v, resolved⟩ := (Atom.column name undotted).resolve_ok row
          refine ⟨Operator.isEqual (row.get? key) v, ?_⟩
          have reference : isReference [(columnKey, .str name)] = true := by
            simp [isReference, Dict.contains]
          simp only [Atom.operand, Operand.toValue, Expr.operand, Expr.reference, resolve,
            reference, if_true] at resolved
          simp [toValue, Atom.operand, Operand.toValue, Expr.operand, Expr.reference, matchesColumn,
            free, reference, resolved]
      | _ => simp [toValue, Atom.operand, Operand.toValue, matchesColumn, free]
  | list atoms => simp [toValue, matchesColumn, free]

theorem Operator.key_reserved (op : Operator) :
    isReserved op.key = true ∧ op.key ≠ columnKey ∧ op.key ≠ callKey := by
  cases op <;> decide

theorem Comparison.compile_eq (c : Comparison) :
    c.compile = .ok (build c.column c.op c.right.toValue) := by
  unfold compile
  cases c.right <;>
    simp [Condition.compare, Condition.compareList, Expr.leftKey, Expr.leftKey?, Expr.attributeKey,
      Comparand.toValue, Function.comp_def]

/-- The map of one comparison is settled on every record. -/
theorem Comparison.settled (c : Comparison) (row : Record) :
    Settled row (build c.column c.op c.right.toValue).fields := by
  have ne : c.column ≠ andKey := fun same => by
    have free := c.free
    simp [same, isReserved_andKey] at free
  refine ⟨Dict.ascending_single _ _, Dict.all_single.mpr ?_⟩
  split
  · -- equality: the right side stands bare, as a literal or a reference
    refine (settledEntry_of_ne ne).mpr ⟨?_, by simp [Comparand.comparisons?_eq_none]⟩
    rw [matchesEntry_of_free c.free]
    exact c.right.matchesColumn_ok c.free
  · obtain ⟨v, resolved⟩ := c.right.resolve_ok row
    obtain ⟨b, answer⟩ := Operator.isEvaluable_iff.mp c.evaluable (row.get? c.column) v
    refine settledEntry_comparisons c.free ?_ (Dict.ascending_single _ _) (Dict.all_single.mpr ?_)
    · exact comparisons?_of_keys List.mem_cons_self (by simpa [Dict.keys] using c.op.key_reserved)
    · have parsed : (Except.ok c.op).mapError StorageError.protocol = .ok c.op := rfl
      exact ⟨b, by simp [matchesOperator, resolved, parsed, answer]⟩

/-- A condition that is compiled, settled on a record, and true exactly when a truth
value is. -/
def Answers (row : Record) (compiled : Except QueryError Condition) (v : Bool) : Prop :=
  ∃ condition, compiled = .ok condition ∧ Settled row condition.fields ∧
    (matchesAll row condition.fields = .ok true ↔ v = true)

theorem Answers.accepts {compiled : Except QueryError Condition} {v : Bool}
    (h : Answers row compiled v) :
    ∃ condition, compiled = .ok condition ∧ Filter.accepts condition.fields row = .ok v := by
  obtain ⟨condition, hc, settled, holds⟩ := h
  refine ⟨condition, hc, ?_⟩
  obtain ⟨b, answer⟩ := settled.answer
  rw [Filter.accepts, answer]
  rw [answer, Except.ok.injEq] at holds
  rw [Bool.eq_iff_iff.mpr holds]

/-- One condition or the other, of settled conditions. -/
theorem Condition.Settled.or {a b : Condition} {p q : Bool} (ha : Settled row a.fields)
    (hb : Settled row b.fields) (holdsA : matchesAll row a.fields = .ok true ↔ p = true)
    (holdsB : matchesAll row b.fields = .ok true ↔ q = true) :
    Settled row (a.or b).fields ∧
      (matchesAll row (a.or b).fields = .ok true ↔ (p || q) = true) := by
  obtain ⟨x, hx⟩ := ha.answer
  obtain ⟨y, hy⟩ := hb.answer
  have answer : matchesEntry row orKey (.arr [.obj a.fields, .obj b.fields]) = .ok (x || y) := by
    simp only [matchesEntry, andKey_ne_orKey.symm, if_false, if_true, matchesAnyClause_eq_anyOf]
    exact anyOf_pair hx hy
  constructor
  · refine ⟨Dict.ascending_single _ _, Dict.all_single.mpr ?_⟩
    exact (settledEntry_of_ne andKey_ne_orKey.symm).mpr ⟨⟨_, answer⟩, by simp [comparisons?]⟩
  · rw [hx, Except.ok.injEq] at holdsA
    rw [hy, Except.ok.injEq] at holdsB
    rw [Condition.or, matchesAll_single, answer, Except.ok.injEq, Bool.or_eq_true, holdsA, holdsB,
      Bool.or_eq_true]

/-- All conditions of a list, of settled conditions. -/
theorem Condition.Settled.foldl_and {conditions : List Condition} :
    ∀ {first : Condition}, Settled row first.fields →
      (∀ c ∈ conditions, Settled row c.fields) →
      Settled row (conditions.foldl Condition.and first).fields ∧
        (matchesAll row (conditions.foldl Condition.and first).fields = .ok true ↔
          matchesAll row first.fields = .ok true ∧
            ∀ c ∈ conditions, matchesAll row c.fields = .ok true) := by
  induction conditions with
  | nil =>
      intro first h _
      simpa using h
  | cons c rest ih =>
      intro first h settled
      rw [List.forall_mem_cons] at settled
      obtain ⟨both, holdsBoth⟩ := h.and settled.1
      obtain ⟨later, holdsLater⟩ := ih both settled.2
      rw [List.foldl_cons, holdsLater, holdsBoth, List.forall_mem_cons]
      exact ⟨later, and_assoc⟩

namespace Predicate

variable {leaf : Comparison → Bool}

mutual

private theorem answers (leaves : ∀ c : Comparison, Answers row c.compile (leaf c)) :
    ∀ p : Predicate, Answers row p.compile (p.value leaf)
  | .always => ⟨.always, rfl, settled_always, by simp [value, Condition.always, matchesAll]⟩
  | .comparison c => leaves c
  | .and left right => by
      obtain ⟨a, ha, settledA, holdsA⟩ := answers leaves left
      obtain ⟨b, hb, settledB, holdsB⟩ := answers leaves right
      obtain ⟨settled, holds⟩ := settledA.and settledB
      refine ⟨a.and b, by simp [compile, ha, hb], settled, ?_⟩
      rw [holds, holdsA, holdsB, value, Bool.and_eq_true]
  | .or left right => by
      obtain ⟨a, ha, settledA, holdsA⟩ := answers leaves left
      obtain ⟨b, hb, settledB, holdsB⟩ := answers leaves right
      obtain ⟨settled, holds⟩ := settledA.or settledB holdsA holdsB
      exact ⟨a.or b, by simp [compile, ha, hb], settled, holds⟩
  | .all predicates => by
      obtain ⟨conditions, hc, settled, holds⟩ := answersAll leaves predicates
      have start : Settled row Condition.always.fields := settled_always
      obtain ⟨all, holdsAll⟩ := start.foldl_and settled
      refine ⟨.all conditions, by simp [compile, hc], all, ?_⟩
      rw [Condition.all, holdsAll, holds, value]
      simp [Condition.always, matchesAll]

private theorem answersAll (leaves : ∀ c : Comparison, Answers row c.compile (leaf c)) :
    ∀ predicates : List Predicate, ∃ conditions, compileAll predicates = .ok conditions ∧
      (∀ c ∈ conditions, Settled row c.fields) ∧
      ((∀ c ∈ conditions, matchesAll row c.fields = .ok true) ↔ valueAll leaf predicates = true)
  | [] => ⟨[], rfl, by simp, by simp [valueAll]⟩
  | p :: rest => by
      obtain ⟨c, hc, settled, holds⟩ := answers leaves p
      obtain ⟨conditions, hcs, settledRest, holdsRest⟩ := answersAll leaves rest
      refine ⟨c :: conditions, by simp [compileAll, hc, hcs],
        List.forall_mem_cons.mpr ⟨settled, settledRest⟩, ?_⟩
      rw [List.forall_mem_cons, holds, holdsRest, valueAll, Bool.and_eq_true]

end

/-- Compiling a tree of comparisons and evaluating the map never fails, and answers the
Boolean value of the tree, where each comparison has the value that it has alone. -/
theorem accepts_compile (row : Record) :
    ∃ leaf : Comparison → Bool,
      (∀ c : Comparison, ∃ condition, c.compile = .ok condition ∧
        Filter.accepts condition.fields row = .ok (leaf c)) ∧
      ∀ p : Predicate, ∃ condition, p.compile = .ok condition ∧
        Filter.accepts condition.fields row = .ok (p.value leaf) := by
  have alone (c : Comparison) : ∃ b, Answers row c.compile b := by
    obtain ⟨b, answer⟩ := (c.settled row).answer
    exact ⟨b, _, c.compile_eq, c.settled row, by rw [answer, Except.ok.injEq]⟩
  obtain ⟨leaf, leaves⟩ := Classical.skolem.mp alone
  exact ⟨leaf, fun c => (leaves c).accepts, fun p => (answers leaves p).accepts⟩

end Predicate

end RecordGraph
