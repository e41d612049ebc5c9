import RecordGraph.Proofs.Filter.Conjunction

/-!
# What a filter takes for a literal

Under a column of its own a filter has a literal, a reference or an operator map. Only a literal
is compared as it stands: a reference is first read from the record, an operator map is carried
out. An object that is neither, for its keys, is a literal like any other document.
-/

namespace RecordGraph.Filter

variable {record : Record} {key : String} {v : Value}

/-- Whether a value is a column reference or a function call by the form of its keys. -/
def isReferenceValue : Value → Bool
  | .obj fields => isReference fields
  | _ => false

/-- Whether a value is neither a reference nor an operator map. -/
def isLiteral (v : Value) : Bool :=
  !isReferenceValue v && !isOperatorMap v

/-- An entry of a filter asks for the very value under its key, null for a missing one. -/
def ComparesLiteral (key : String) (v : Value) : Prop :=
  ∀ record, matchesEntry record key v = .ok (Operator.isEqual (record.get? key) v)

theorem isLiteral_iff :
    isLiteral v = true ↔ isReferenceValue v = false ∧ isOperatorMap v = false := by
  simp [isLiteral]

/-- A literal under a free column is compared with what the record has there. -/
theorem comparesLiteral_of_isLiteral (free : isReserved key = false)
    (literal : isLiteral v = true) : ComparesLiteral key v := by
  intro record
  obtain ⟨notReference, notOperators⟩ := isLiteral_iff.mp literal
  rw [matchesEntry_of_free free]
  cases v with
  | obj fields =>
      have notReference : isReference fields = false := notReference
      have notOperators : allReserved fields = false := notOperators
      simp [matchesColumn, free, notReference, notOperators]
  | _ => simp [matchesColumn, free]

/-- A reference is not compared as it stands: a record without any value equals what it reads
there, if it can be read at all, and never an object. -/
theorem not_comparesLiteral_of_reference (free : isReserved key = false)
    (reference : isReferenceValue v = true) : ¬ ComparesLiteral key v := by
  intro compares
  cases v with
  | obj fields =>
      have reference : isReference fields = true := reference
      have answer := compares []
      simp only [matchesEntry_of_free free, matchesColumn, free, reference, if_true,
        Bool.false_eq_true, if_false] at answer
      obtain ⟨read, dereferenced, answer⟩ := bind_eq_ok_iff.mp answer
      unfold dereference at dereferenced
      split at dereferenced
      · cases dereferenced
      · dsimp only at dereferenced
        split at dereferenced
        · cases dereferenced
        · cases dereferenced
          cases answer
  | _ => cases reference

/-- Where no operator map is, a literal is what is no reference. -/
theorem comparesLiteral_iff (free : isReserved key = false)
    (notOperators : isOperatorMap v = false) :
    ComparesLiteral key v ↔ isReferenceValue v = false := by
  constructor
  · intro compares
    rw [Bool.eq_false_iff]
    exact fun reference => not_comparesLiteral_of_reference free reference compares
  · intro notReference
    exact comparesLiteral_of_isLiteral free (isLiteral_iff.mpr ⟨notReference, notOperators⟩)

/-- A record that has a value under a key is equal to it there. -/
theorem isEqual_of_get? (found : record.get? key = some v) :
    Operator.isEqual (record.get? key) v = true := by
  rw [found, Operator.isEqual]
  cases v <;> simp [Value.present?, Value.isNull]

/-- Whether a record equals a value under a key, where nothing counts as null. -/
theorem isEqual_eq_same (actual : Option Value) (v : Value) :
    Operator.isEqual actual v = (actual.getD .null).same v := by
  rw [Operator.isEqual]
  cases actual with
  | none => simp [Value.present?]
  | some w => cases w <;> simp [Value.present?]

end RecordGraph.Filter
