import RecordGraph.Data.Compare

/-!
# Equality of documents and of stored values

Documents are equal exactly when they agree once every negative zero is made positive.
So equality of documents is an equivalence, and a function that does not look at the
sign of zero cannot tell equal documents apart; `same`, `compare?` and the tests for
null and text are such functions.

`Value.same` is reflexive and symmetric but not transitive: two large integers may
both be the same as one floating-point number. Through a middle value that is a
signed 64-bit integer or a text it is transitive, which makes such values safe keys.
-/

namespace RecordGraph

namespace Binary64

/-- The number, with zero made positive. -/
def normal (x : Binary64) : Binary64 :=
  if x.rank = 0 then zero else x

@[simp] theorem rank_normal (x : Binary64) : x.normal.rank = x.rank := by
  by_cases h : x.rank = 0
  · simp [normal, h]
  · simp [normal, h]

@[simp] theorem normal_normal (x : Binary64) : x.normal.normal = x.normal := by
  by_cases h : x.rank = 0 <;> simp [normal, h]

/-- Away from zero the rank is the number. -/
theorem eq_of_rank_eq {x y : Binary64} (h : x.rank = y.rank) (nonzero : x.rank ≠ 0) : x = y := by
  obtain ⟨⟨⟨a⟩⟩⟩ := x
  obtain ⟨⟨⟨b⟩⟩⟩ := y
  have ha := a.isLt
  have hb := b.isLt
  simp only [rank, magnitude, isNegative, UInt64.toNat, BitVec.toNat, decide_eq_true_eq]
    at h nonzero
  congr 3
  apply Fin.ext
  split at h <;> split at h <;> omega

theorem normal_eq_iff {x y : Binary64} : x.normal = y.normal ↔ x.rank = y.rank := by
  constructor
  · intro h
    rw [← rank_normal x, h, rank_normal]
  · intro h
    by_cases zero : x.rank = 0
    · simp [normal, zero, ← h]
    · rw [eq_of_rank_eq h zero]

end Binary64

namespace Number

/-- The number, with a floating-point zero made positive. -/
def normal : Number → Number
  | .int i => .int i
  | .float x => .float x.normal

@[simp] theorem normal_normal (a : Number) : a.normal.normal = a.normal := by
  cases a <;> simp [normal]

theorem beq_iff {a b : Number} : (a == b) = true ↔ a.normal = b.normal := by
  change beq a b = true ↔ _
  cases a <;> cases b <;> simp [beq, normal, Binary64.normal_eq_iff]

@[simp] theorem signed?_normal (a : Number) : a.normal.signed? = a.signed? := by
  cases a <;> rfl

@[simp] theorem rank_toBinary64_normal (a : Number) :
    a.normal.toBinary64.rank = a.toBinary64.rank := by
  cases a <;> simp [normal, toBinary64]

@[simp] theorem compare_normal (a b : Number) : a.compare b.normal = a.compare b := by
  simp [compare]

@[simp] theorem compare_self (a : Number) : a.compare a = .eq := by
  unfold compare
  split <;> simp_all

theorem compare_eq_comm {a b : Number} : a.compare b = .eq ↔ b.compare a = .eq := by
  cases ha : a.signed? <;> cases hb : b.signed? <;>
    simp only [compare, ha, hb, Std.compare_eq_iff_eq] <;> exact eq_comm

theorem compare_swap (a b : Number) : b.compare a = (a.compare b).swap := by
  have integers (i j : Int) : Ord.compare j i = (Ord.compare i j).swap := Std.OrientedCmp.eq_swap
  unfold compare
  cases b.signed? <;> cases a.signed? <;> exact integers _ _

/-- A number that fits a signed 64-bit word is that integer. -/
theorem eq_of_signed? {a : Number} {i : Int} (h : a.signed? = some i) : a = .int i := by
  cases a with
  | int j =>
      simp only [signed?, Option.ite_none_right_eq_some, Option.some.injEq] at h
      rw [h.2]
  | float x => simp [signed?] at h

/-- Comparing equal to a signed 64-bit integer is being it, or having its rank. -/
theorem compare_signed_eq_iff {a : Number} {i : Int} (h : (int i).signed? = some i) :
    a.compare (.int i) = .eq ↔
      a = .int i ∨ a.signed? = none ∧ a.toBinary64.rank = (int i).toBinary64.rank := by
  cases ha : a.signed? with
  | none =>
      have ne : a ≠ .int i := fun same => by simp [same, h] at ha
      simp [compare, ha, ne]
  | some j =>
      obtain rfl := eq_of_signed? ha
      simp [compare, ha, h]

end Number

namespace Value

mutual

/-- The document with every floating-point zero made positive. -/
def normal : Value → Value
  | .null => .null
  | .bool b => .bool b
  | .num n => .num n.normal
  | .str s => .str s
  | .arr items => .arr (normalItems items)
  | .obj fields => .obj (normalFields fields)

/-- A list of documents with every floating-point zero made positive. -/
def normalItems : List Value → List Value
  | [] => []
  | v :: rest => normal v :: normalItems rest

/-- A field list with every floating-point zero made positive. -/
def normalFields : List (String × Value) → List (String × Value)
  | [] => []
  | (key, v) :: rest => (key, normal v) :: normalFields rest

end

theorem normalItems_eq_map (items : List Value) : normalItems items = items.map normal := by
  induction items with
  | nil => rfl
  | cons v rest ih => simp [normalItems, ih]

theorem normalFields_eq_mapValues (fields : Record) :
    normalFields fields = Dict.mapValues normal fields := by
  induction fields with
  | nil => rfl
  | cons entry rest ih => simpa [normalFields, Dict.mapValues] using ih

mutual

private theorem beq_normal : ∀ v w : Value, beq v w = true ↔ v.normal = w.normal
  | .null, w | .bool _, w | .str _, w => by cases w <;> simp [beq, normal]
  | .num a, w => by
      cases w with
      | num b => simpa [beq, normal] using Number.beq_iff
      | _ => simp [beq, normal]
  | .arr items, w => by
      cases w with
      | arr others => simpa [beq, normal] using beqItems_normal items others
      | _ => simp [beq, normal]
  | .obj fields, w => by
      cases w with
      | obj others => simpa [beq, normal] using beqFields_normal fields others
      | _ => simp [beq, normal]

private theorem beqItems_normal :
    ∀ xs ys : List Value, beqItems xs ys = true ↔ normalItems xs = normalItems ys
  | [], ys => by cases ys <;> simp [beqItems, normalItems]
  | x :: xs, ys => by
      cases ys with
      | nil => simp [beqItems, normalItems]
      | cons y ys => simp [beqItems, normalItems, beq_normal x y, beqItems_normal xs ys]

private theorem beqFields_normal :
    ∀ xs ys : List (String × Value), beqFields xs ys = true ↔ normalFields xs = normalFields ys
  | [], ys => by cases ys <;> simp [beqFields, normalFields]
  | (k, x) :: xs, ys => by
      cases ys with
      | nil => simp [beqFields, normalFields]
      | cons entry ys =>
          simp [beqFields, normalFields, beq_normal x entry.2, beqFields_normal xs ys, and_assoc]

end

/-- Documents are equal exactly when they differ in the signs of zeros only. -/
theorem beq_iff {v w : Value} : (v == w) = true ↔ v.normal = w.normal :=
  beq_normal v w

/-- Equality of documents is an equivalence. -/
instance : EquivBEq Value where
  rfl := beq_iff.mpr rfl
  symm h := beq_iff.mpr (beq_iff.mp h).symm
  trans h k := beq_iff.mpr ((beq_iff.mp h).trans (beq_iff.mp k))

mutual

@[simp] theorem normal_normal : ∀ v : Value, v.normal.normal = v.normal
  | .null | .bool _ | .str _ => rfl
  | .num n => by simp [normal]
  | .arr items => by simpa [normal] using normalItems_normalItems items
  | .obj fields => by simpa [normal] using normalFields_normalFields fields

private theorem normalItems_normalItems :
    ∀ items : List Value, normalItems (normalItems items) = normalItems items
  | [] => rfl
  | v :: rest => by simp [normalItems, normal_normal v, normalItems_normalItems rest]

private theorem normalFields_normalFields :
    ∀ fields : List (String × Value), normalFields (normalFields fields) = normalFields fields
  | [] => rfl
  | (_, v) :: rest => by simp [normalFields, normal_normal v, normalFields_normalFields rest]

end

theorem str_of_normal {w : Value} {s : String} (same : w.normal = normal (.str s)) : w = .str s := by
  cases w <;> simp_all [normal]

theorem arr_of_normal {w : Value} {items : List Value} (same : w.normal = normal (.arr items)) :
    ∃ others, w = .arr others ∧ others.map normal = items.map normal := by
  cases w <;> simp_all [normal, normalItems_eq_map]

theorem obj_of_normal {w : Value} {fields : Record} (same : w.normal = normal (.obj fields)) :
    ∃ others : Record, w = .obj others ∧
      others.mapValues normal = fields.mapValues normal := by
  cases w <;> simp_all [normal, normalFields_eq_mapValues]

theorem normal_beq_self (v : Value) : (v.normal == v) = true :=
  beq_iff.mpr (normal_normal v)

@[simp] theorem isNull_normal (v : Value) : v.normal.isNull = v.isNull := by
  cases v <;> rfl

@[simp] theorem text?_normal (v : Value) : v.normal.text? = v.text? := by
  cases v <;> rfl

@[simp] theorem compare?_normal (v w : Value) : v.compare? w.normal = v.compare? w := by
  cases v <;> cases w <;> simp [compare?, normal]

/-- Two values compare in both directions or in none. -/
theorem compare?_swap (v w : Value) : w.compare? v = (v.compare? w).map Ordering.swap := by
  cases v <;> cases w
  case num.num a b => exact congrArg some (Number.compare_swap a b)
  case str.str => exact congrArg some Std.OrientedCmp.eq_swap
  case bool.bool => exact congrArg some Std.OrientedCmp.eq_swap
  all_goals rfl

/-- Off the numbers, being the same is being equal as documents. -/
theorem same_eq_beq {v w : Value} (h : v.binary64? = none ∨ w.binary64? = none) :
    v.same w = (v == w) := by
  cases v <;> cases w <;> simp_all [same, binary64?]

@[simp] theorem same_normal (v w : Value) : v.same w.normal = v.same w := by
  cases hw : w.binary64? with
  | none =>
      have hn : w.normal.binary64? = none := by cases w <;> simp_all [binary64?, normal]
      rw [same_eq_beq (.inr hn), same_eq_beq (.inr hw)]
      exact BEq.congr_right (normal_beq_self w)
  | some x =>
      cases w with
      | num n =>
          cases v with
          | num m => simp [same, normal]
          | _ => rfl
      | _ => simp [binary64?] at hw

@[simp] theorem same_self (v : Value) : v.same v = true := by
  cases v with
  | num n => simp
  | _ => exact BEq.rfl

theorem same_comm (v w : Value) : v.same w = w.same v := by
  cases hv : v.binary64? with
  | none => rw [same_eq_beq (.inl hv), same_eq_beq (.inr hv), BEq.comm]
  | some x =>
      cases hw : w.binary64? with
      | none => rw [same_eq_beq (.inr hw), same_eq_beq (.inl hw), BEq.comm]
      | some y =>
          cases v <;> cases w <;> simp [binary64?] at hv hw
          rw [Bool.eq_iff_iff]
          simpa using Number.compare_eq_comm

@[simp] theorem same_null_left (v : Value) : same .null v = v.isNull := by
  cases v <;> rfl

@[simp] theorem same_null_right (v : Value) : same v .null = v.isNull := by
  rw [same_comm, same_null_left]

theorem exists_num_of_same {v : Value} {n : Number} (h : v.same (.num n) = true) :
    ∃ m, v = .num m := by
  cases v with
  | num m => exact ⟨m, rfl⟩
  | _ => simp [same, BEq.beq, beq] at h

theorem eq_of_same_text {v : Value} {s : String} (h : v.same (.str s) = true) : v = .str s := by
  cases v <;> simp_all [same, BEq.beq, beq]

/-- A signed 64-bit integer or a text: what is meant to identify rows. -/
def IsKey (v : Value) : Prop :=
  v.signed?.isSome ∨ v.isText

/-- Off the floating-point numbers, keys that are the same are equal. -/
theorem eq_of_same_keys {v w : Value} (hv : v.IsKey) (hw : w.IsKey)
    (same : v.same w = true) : v = w := by
  cases w with
  | num n =>
      obtain ⟨i, hi⟩ : ∃ i, n.signed? = some i := by
        simpa [IsKey, signed?, isText, Option.isSome_iff_exists] using hw
      obtain rfl := Number.eq_of_signed? hi
      obtain ⟨m, rfl⟩ := exists_num_of_same same
      rw [same_num, beq_iff_eq] at same
      rcases (Number.compare_signed_eq_iff hi).mp same with rfl | ⟨large, _⟩
      · rfl
      · simp [IsKey, signed?, isText, large] at hv
  | str s => exact eq_of_same_text same
  | _ => simp [IsKey, signed?, isText] at hw

end Value

end RecordGraph
