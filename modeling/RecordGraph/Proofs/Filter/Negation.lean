import RecordGraph.Proofs.Filter.Predicate

/-!
# Comparisons and their negations

Five comparisons have a negation of their own. Where a record has a value in the column, exactly
one of the two holds, whatever the operand: a pattern that is no text or a set that is no list
only makes the negation hold. Where there is no value the comparison never holds. Its negation
does not hold either if it is made for equality or a range, but it does for patterns and sets, so
a filter with one of these takes in the records without a value.
-/

namespace RecordGraph

namespace Operator

variable {op negation : Operator} {actual : Option Value} {operand v : Value}

/-- The comparisons with a negation, and their negations. -/
inductive Negates : Operator → Operator → Prop where
  | ne : Negates .eq .ne
  | notLike : Negates .like .notLike
  | notILike : Negates .iLike .notILike
  | notIn : Negates .isIn .notIn
  | notBetween : Negates .between .notBetween

/-- Whether a negation holds of a record that has no value in the column. -/
def takesNull : Operator → Bool
  | .notLike | .notILike | .notIn => true
  | _ => false

/-- Null is no text, so it matches no pattern. -/
theorem matchesPattern?_of_absent (fold : String → String)
    (absent : Value.present? actual = none) : matchesPattern? fold actual operand = none := by
  cases actual with
  | none => rfl
  | some w => cases w <;> first | rfl | cases absent

/-- Of a value exactly one of a comparison and its negation holds. -/
theorem test?_of_present (negates : Negates op negation)
    (present : Value.present? actual = some v) (asks : op = .eq → operand ≠ .null) :
    ∃ holds, test? actual operand op = some holds ∧
      test? actual operand negation = some !holds := by
  cases negates with
  | ne =>
      have nonnull : operand.isNull = false :=
        Bool.eq_false_iff.mpr (mt Value.isNull_eq_true_iff.mp (asks rfl))
      exact ⟨v.same operand, by simp [test?, isEqual, present],
        by simp [test?, present, nonnull]⟩
  | notLike => exact ⟨_, rfl, rfl⟩
  | notILike => exact ⟨_, rfl, rfl⟩
  | notIn =>
      cases operand with
      | arr set => exact ⟨isMember v set, by simp [test?, present], by simp [test?, present]⟩
      | _ => exact ⟨false, by simp [test?, present], by simp [test?, present]⟩
  | notBetween => exact ⟨isInside actual operand, rfl, by simp [test?, present]⟩

theorem isInside_of_absent (absent : Value.present? actual = none) :
    isInside actual operand = false := by
  unfold isInside
  split
  · simp [isOrdered, absent]
  · rfl

/-- Of nothing no comparison holds, and of the negations those of patterns and sets. -/
theorem test?_of_absent (negates : Negates op negation)
    (absent : Value.present? actual = none) (asks : op = .eq → operand ≠ .null) :
    test? actual operand op = some false ∧
      test? actual operand negation = some negation.takesNull := by
  cases negates with
  | ne =>
      have nonnull : operand.isNull = false :=
        Bool.eq_false_iff.mpr (mt Value.isNull_eq_true_iff.mp (asks rfl))
      simp [test?, isEqual, absent, nonnull, takesNull]
  | notLike => simp [test?, matchesPattern?_of_absent _ absent, takesNull]
  | notILike => simp [test?, matchesPattern?_of_absent _ absent, takesNull]
  | notIn => simp [test?, absent, takesNull]
  | notBetween => simp [test?, isInside_of_absent absent, absent, takesNull]

end Operator

namespace Filter

open Operator (Negates)

variable {row : Record} {key : String} {op negation : Operator} {operand v : Value}

/-- A filter that makes one comparison with one column. -/
def comparing (key : String) (op : Operator) (operand : Value) : Record :=
  [(key, .obj [(op.key, operand)])]

/-- The comparison is made with what the operand stands for in the record. -/
theorem accepts_comparing (free : isReserved key = false) (resolved : resolve row operand = .ok v) :
    accepts (comparing key op operand) row = op.test (row.get? key) v := by
  have operators : Condition.comparisons? (.obj [(op.key, operand)]) = some [(op.key, operand)] :=
    Condition.comparisons?_of_keys List.mem_cons_self
      (by simpa [Dict.keys] using Operator.key_reserved op)
  have parsed : (Operator.parse op.key).mapError StorageError.protocol = .ok op := by
    rw [Operator.parse_key]
    rfl
  rw [accepts, comparing, matchesAll_single, Condition.matchesEntry_comparisons free operators]
  simp only [allOf, matchesOperator, resolved, parsed, ok_bind]
  cases op.test (row.get? key) v with
  | error err => rfl
  | ok holds => cases holds <;> rfl

theorem accepts_of_test? {holds : Bool} (free : isReserved key = false)
    (resolved : resolve row operand = .ok v)
    (tested : Operator.test? (row.get? key) v op = some holds) :
    accepts (comparing key op operand) row = .ok holds := by
  rw [accepts_comparing free resolved, Operator.test, tested]

/-- A comparison and its negation always have an answer. They differ on a record with a value in
the column. On one without, the comparison does not hold, and its negation does exactly if it is
one of patterns or sets. -/
theorem negation_divides (free : isReserved key = false) (negates : Negates op negation)
    (resolved : resolve row operand = .ok v) (asks : op = .eq → v ≠ .null) :
    ∃ holds fails, accepts (comparing key op operand) row = .ok holds ∧
      accepts (comparing key negation operand) row = .ok fails ∧
      (∀ w, row.get? key = some w → w ≠ .null → fails = !holds) ∧
      (Value.present? (row.get? key) = none → holds = false ∧ fails = negation.takesNull) := by
  cases here : Value.present? (row.get? key) with
  | some w =>
      obtain ⟨holds, tested, negated⟩ := Operator.test?_of_present negates here asks
      exact ⟨holds, !holds, accepts_of_test? free resolved tested,
        accepts_of_test? free resolved negated, fun _ _ _ => rfl, nofun⟩
  | none =>
      obtain ⟨tested, negated⟩ := Operator.test?_of_absent negates here asks
      refine ⟨false, negation.takesNull, accepts_of_test? free resolved tested,
        accepts_of_test? free resolved negated, fun w there nonnull => ?_, fun _ => ⟨rfl, rfl⟩⟩
      rw [Value.present?_eq_some_iff.mpr ⟨there, nonnull⟩] at here
      cases here

section Unnamed

/-- A user without a name, and with a nickname. -/
def unnamed : Record :=
  [("id", .ofInt 1), ("name", .null), ("nickname", .str "ada")]

/-- The nickname is told from the text in another column or is the same, but not both. -/
theorem negation_divides_nickname :
    ∃ holds fails,
      accepts (comparing "nickname" .like (.obj [("$col", .str "name")])) unnamed = .ok holds ∧
      accepts (comparing "nickname" .notLike (.obj [("$col", .str "name")])) unnamed = .ok fails ∧
      fails = !holds := by
  have free : isReserved "nickname" = false := rfl
  have resolved : resolve unnamed (.obj [("$col", .str "name")]) = .ok .null := rfl
  obtain ⟨holds, fails, compared, negated, differ, -⟩ :=
    negation_divides free .notLike resolved nofun
  exact ⟨holds, fails, compared, negated, differ _ rfl (by simp)⟩

/-- A user without a name is no member of a set, fits no pattern, is unequal to no name and
outside of no range: of the five negations three hold all the same. -/
theorem negation_takes_unnamed :
    Value.present? (unnamed.get? "name") = none ∧
      accepts (comparing "name" .notIn (.arr [.str "ada"])) unnamed = .ok true ∧
      accepts (comparing "name" .notLike (.str "a%")) unnamed = .ok true ∧
      accepts (comparing "name" .notILike (.str "a%")) unnamed = .ok true ∧
      accepts (comparing "name" .ne (.str "ada")) unnamed = .ok false ∧
      accepts (comparing "name" .notBetween (.arr [.str "a", .str "b"])) unnamed = .ok false :=
  ⟨rfl, rfl, rfl, rfl, rfl, rfl⟩

end Unnamed

end Filter

end RecordGraph
