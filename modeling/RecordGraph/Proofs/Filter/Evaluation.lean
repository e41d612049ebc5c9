import RecordGraph.Proofs.Data.Entries
import RecordGraph.Proofs.Data.Equality
import RecordGraph.Proofs.Data.Steps
import RecordGraph.Store.Filter

/-!
# What a filter evaluates to

Entries, clauses and operators are all evaluated in the same way: in turn, up to the
first that decides. These walks are `allOf` and `anyOf`.

A filter cannot tell equal documents apart, so a condition may leave out an entry that
is there already: `matchesEntry_congr` carries the answer of the one over to the other.
-/

namespace RecordGraph

namespace Operator

variable {actual : Option Value}

@[simp] theorem isEqual_normal (actual : Option Value) (expected : Value) :
    isEqual actual expected.normal = isEqual actual expected := by
  cases h : Value.present? actual <;> simp [isEqual, h]

@[simp] theorem isOrdered_normal (operand : Value) (accept : Ordering → Bool) :
    isOrdered actual operand.normal accept = isOrdered actual operand accept := by
  simp [isOrdered]

@[simp] theorem isMember_normal (v : Value) (set : List Value) :
    isMember v (Value.normalItems set) = isMember v set := by
  simp [isMember, Value.normalItems_eq_map, Function.comp_def]

@[simp] theorem isInside_normal (operand : Value) :
    isInside actual operand.normal = isInside actual operand := by
  cases operand with
  | arr items =>
      match items with
      | [] | [_] | _ :: _ :: _ :: _ => rfl
      | [low, high] => simp [Value.normal, Value.normalItems, isInside]
  | _ => rfl

@[simp] theorem matchesPattern?_normal (fold : String → String) (operand : Value) :
    matchesPattern? fold actual operand.normal = matchesPattern? fold actual operand := by
  cases operand with
  | str _ => rfl
  | _ =>
      cases actual with
      | none => rfl
      | some v => cases v <;> rfl

/-- No comparison can tell equal operands apart. -/
@[simp] theorem test?_normal (operand : Value) (op : Operator) :
    test? actual operand.normal op = test? actual operand op := by
  cases op with
  | isIn | notIn =>
      cases h : Value.present? actual <;> cases operand <;> simp [test?, h, Value.normal]
  | _ => simp [test?]

theorem test_congr {v w : Value} (h : v.normal = w.normal) (op : Operator) :
    op.test actual v = op.test actual w := by
  unfold test
  rw [← test?_normal v, h, test?_normal]

end Operator

namespace Filter

variable {row : Record} {actual : Option Value} {key : String}

@[simp] theorem isReference_mapValues (f : Value → Value) (fields : Record) :
    isReference (Dict.mapValues f fields) = isReference fields := by
  simp [isReference]

@[simp] theorem allReserved_mapValues (f : Value → Value) (fields : Record) :
    allReserved (Dict.mapValues f fields) = allReserved fields := by
  cases fields <;> simp [allReserved, Dict.mapValues, Function.comp_def]

@[simp] theorem dereference_normal (fields : Record) :
    dereference row (Dict.mapValues Value.normal fields) = dereference row fields := by
  have text (o : Option Value) : (o.map Value.normal).bind Value.text? = o.bind Value.text? := by
    cases o <;> simp
  simp [dereference, Dict.get?_mapValues, text]

mutual

private theorem resolve_normal_of (row : Record) : ∀ v : Value,
    (resolve row v.normal).map Value.normal = (resolve row v).map Value.normal
  | .null | .bool _ | .str _ => rfl
  | .num n => by simp [resolve, Value.normal, Except.map]
  | .arr items => by
      have ih := resolveAll_normal_of row items
      simp only [Value.normal, resolve]
      cases h : resolveAll row items <;> cases h' : resolveAll row (Value.normalItems items) <;>
        simp_all [Except.map, Value.normal]
  | .obj fields => by
      simp only [Value.normal, resolve, Value.normalFields_eq_mapValues, isReference_mapValues,
        dereference_normal]
      split
      · rfl
      · simpa [Except.map, Value.normal, Value.normalFields_eq_mapValues] using
          Value.normal_normal (.obj fields)

private theorem resolveAll_normal_of (row : Record) : ∀ items : List Value,
    (resolveAll row (Value.normalItems items)).map Value.normalItems =
      (resolveAll row items).map Value.normalItems
  | [] => rfl
  | v :: rest => by
      have ih := resolve_normal_of row v
      have ihs := resolveAll_normal_of row rest
      simp only [Value.normalItems, resolveAll]
      cases h : resolve row v <;> cases h' : resolve row v.normal <;>
        cases k : resolveAll row rest <;> cases k' : resolveAll row (Value.normalItems rest) <;>
        simp_all [Except.map, Value.normalItems]

end

/-- Evaluate one operator of an operator map. -/
def matchesOperator (row : Record) (actual : Option Value) (entry : String × Value) :
    Except StorageError Bool := do
  let operand ← resolve row entry.2
  let op ← (Operator.parse entry.1).mapError StorageError.protocol
  op.test actual operand

theorem matchesOperators_eq_allOf (entries : List (String × Value)) :
    matchesOperators row actual entries = allOf (matchesOperator row actual) entries := by
  induction entries with
  | nil => rfl
  | cons entry rest ih =>
      simp only [matchesOperators, allOf, matchesOperator, ih, bind_assoc]

theorem matchesAll_eq_allOf (entries : List (String × Value)) :
    matchesAll row entries = allOf (fun entry => matchesEntry row entry.1 entry.2) entries := by
  induction entries with
  | nil => rfl
  | cons entry rest ih => simp only [matchesAll, allOf, ih]

theorem matchesClauses_eq_allOf (clauses : List Value) :
    matchesClauses row clauses = allOf (matchesClause row) clauses := by
  induction clauses with
  | nil => rfl
  | cons clause rest ih => simp only [matchesClauses, allOf, ih]

theorem matchesAnyClause_eq_anyOf (clauses : List Value) :
    matchesAnyClause row clauses = anyOf (matchesClause row) clauses := by
  induction clauses with
  | nil => rfl
  | cons clause rest ih => simp only [matchesAnyClause, anyOf, ih]

@[simp] theorem matchesOperator_normal (op : String) (operand : Value) :
    matchesOperator row actual (op, operand.normal) = matchesOperator row actual (op, operand) := by
  have h := resolve_normal_of row operand
  simp only [matchesOperator]
  cases hv : resolve row operand <;> cases hn : resolve row operand.normal <;>
    simp only [hv, hn, Except.map, reduceCtorEq, Except.ok.injEq, Except.error.injEq] at h ⊢
  · rw [h]
  · simp only [ok_bind, Operator.test_congr h]

/-- What a filter says about a column does not depend on the signs of zeros. -/
@[simp] theorem matchesColumn_normal (row : Record) (key : String) (v : Value) :
    matchesColumn row key v.normal = matchesColumn row key v := by
  unfold matchesColumn
  split
  · rfl
  · cases v with
    | obj fields =>
        simp only [Value.normal, Value.normalFields_eq_mapValues, isReference_mapValues,
          dereference_normal, allReserved_mapValues]
        split
        · rfl
        · split
          · rw [matchesOperators_eq_allOf, matchesOperators_eq_allOf, Dict.mapValues, allOf_map]
            exact allOf_congr fun entry _ => matchesOperator_normal entry.1 entry.2
          · simpa [Value.normal, Value.normalFields_eq_mapValues] using
              Operator.isEqual_normal (row.get? key) (.obj fields)
    | null | bool _ | str _ => rfl
    | num n => simpa [Value.normal] using Operator.isEqual_normal (row.get? key) (.num n)
    | arr items =>
        simpa [Value.normal] using Operator.isEqual_normal (row.get? key) (.arr items)

private theorem toOption_bind_congr {ε α β : Type} {x y : Except ε α} {f g : α → Except ε β}
    (h : x.toOption = y.toOption) (k : ∀ a, (f a).toOption = (g a).toOption) :
    (x >>= f).toOption = (y >>= g).toOption := by
  cases x <;> cases y <;> simp_all [Except.toOption]

-- Errors quote the clause they refuse, so only answers agree, not errors.
mutual

private theorem matchesEntry_normal_of (key : String) : ∀ v : Value,
    (matchesEntry row key v.normal).toOption = (matchesEntry row key v).toOption
  | .null | .bool _ | .str _ => rfl
  | .num n => by
      have column := matchesColumn_normal row key (.num n)
      simp only [Value.normal] at column
      simp only [Value.normal, matchesEntry, column]
      split
      · rfl
      · split <;> rfl
  | .arr items => by
      have column := matchesColumn_normal row key (.arr items)
      simp only [Value.normal] at column
      simp only [Value.normal, matchesEntry, column]
      split
      · exact matchesClauses_normal_of items
      · split
        · exact matchesAnyClause_normal_of items
        · rfl
  | .obj fields => by
      have column := matchesColumn_normal row key (.obj fields)
      simp only [Value.normal] at column
      simp only [Value.normal, matchesEntry, column]
      split
      · exact matchesAll_normal_of fields
      · split
        · exact matchesAny_normal_of fields
        · rfl

private theorem matchesClause_normal_of : ∀ v : Value,
    (matchesClause row v.normal).toOption = (matchesClause row v).toOption
  | .null | .bool _ | .str _ | .num _ | .arr _ => rfl
  | .obj fields => matchesAll_normal_of fields

private theorem matchesAll_normal_of : ∀ fields : List (String × Value),
    (matchesAll row (Value.normalFields fields)).toOption = (matchesAll row fields).toOption
  | [] => rfl
  | (key, v) :: rest => by
      refine toOption_bind_congr (matchesEntry_normal_of key v) fun b => ?_
      cases b
      · rfl
      · exact matchesAll_normal_of rest

private theorem matchesAny_normal_of : ∀ fields : List (String × Value),
    (matchesAny row (Value.normalFields fields)).toOption = (matchesAny row fields).toOption
  | [] => rfl
  | (key, v) :: rest => by
      refine toOption_bind_congr (matchesEntry_normal_of key v) fun b => ?_
      cases b
      · exact matchesAny_normal_of rest
      · rfl

private theorem matchesClauses_normal_of : ∀ clauses : List Value,
    (matchesClauses row (Value.normalItems clauses)).toOption =
      (matchesClauses row clauses).toOption
  | [] => rfl
  | v :: rest => by
      refine toOption_bind_congr (matchesClause_normal_of v) fun b => ?_
      cases b
      · rfl
      · exact matchesClauses_normal_of rest

private theorem matchesAnyClause_normal_of : ∀ clauses : List Value,
    (matchesAnyClause row (Value.normalItems clauses)).toOption =
      (matchesAnyClause row clauses).toOption
  | [] => rfl
  | v :: rest => by
      refine toOption_bind_congr (matchesClause_normal_of v) fun b => ?_
      cases b
      · exact matchesAnyClause_normal_of rest
      · rfl

end

/-- Equal documents under a key have the same answer. -/
theorem matchesEntry_congr {v w : Value} (h : (v == w) = true) {b : Bool} :
    matchesEntry row key v = .ok b ↔ matchesEntry row key w = .ok b := by
  have answers : (matchesEntry row key v).toOption = (matchesEntry row key w).toOption := by
    rw [← matchesEntry_normal_of key v, Value.beq_iff.mp h, matchesEntry_normal_of]
  cases hv : matchesEntry row key v <;> cases hw : matchesEntry row key w <;>
    simp_all [Except.toOption]

theorem matchesOperator_congr {v w : Value} (h : (v == w) = true) (op : String) :
    matchesOperator row actual (op, v) = matchesOperator row actual (op, w) := by
  rw [← matchesOperator_normal op v, Value.beq_iff.mp h, matchesOperator_normal]

end Filter

end RecordGraph
