import RecordGraph.Proofs.Filter.Clauses

/-!
# What a filter looks at

A filter looks at a record through the columns that it mentions: those that its clauses have
an entry under, and those that the operands of these entries refer to. Whatever else the
record holds makes no difference, so a filter cannot tell records apart that agree on the
mentioned columns. It answers the same on them, errors included.
-/

namespace RecordGraph.Filter

open Renaming (isJunction)

/-- The column that a reference names. A name that is no text stands for the empty one. -/
def columnOf (fields : Record) : String :=
  ((fields.get? columnKey).bind Value.text?).getD ""

/-- An operand refers to a column, in lists at any depth. -/
inductive OperandMentions (name : String) : Value → Prop where
  | reference {fields : Record} (refers : isReference fields = true)
      (column : columnOf fields = name) : OperandMentions name (.obj fields)
  | item {items : List Value} {v : Value} (member : v ∈ items) (inner : OperandMentions name v) :
      OperandMentions name (.arr items)

/-- An entry is about a column, or compares one with it. A literal refers to nothing. -/
inductive ColumnMentions (name : String) : String → Value → Prop where
  | key {v : Value} : ColumnMentions name name v
  | reference {key : String} {fields : Record} (refers : isReference fields = true)
      (column : columnOf fields = name) : ColumnMentions name key (.obj fields)
  | operand {key : String} {fields : Record} {entry : String × Value}
      (operators : allReserved fields = true) (member : entry ∈ fields)
      (inner : OperandMentions name entry.2) : ColumnMentions name key (.obj fields)

/-- A filter mentions a column in an entry of one of its clauses. -/
inductive Mentions (name : String) : Record → Prop where
  | column {fields : Record} {key : String} {v : Value} (member : (key, v) ∈ fields)
      (single : isJunction key = false) (mentions : ColumnMentions name key v) :
      Mentions name fields
  | clause {fields clause : Record} {joint : String} {v : Value} (member : (joint, v) ∈ fields)
      (joins : isJunction joint = true) (inside : clause ∈ clausesUnder v)
      (inner : Mentions name clause) : Mentions name fields

/-- Two records hold the same under every name with a property. -/
def AgreeOn (P : String → Prop) (row row' : Record) : Prop :=
  ∀ name, P name → row.get? name = row'.get? name

variable {row row' : Record} {P Q : String → Prop} {key name : String} {fields others : Record}
variable {v : Value} {items : List Value}

theorem AgreeOn.mono (agree : AgreeOn P row row') (sub : ∀ name, Q name → P name) :
    AgreeOn Q row row' :=
  fun name holds => agree name (sub name holds)

theorem Mentions.mono (mentions : Mentions name fields) (sub : fields ⊆ others) :
    Mentions name others := by
  cases mentions with
  | column member single mentions => exact .column (sub member) single mentions
  | clause member joins inside inner => exact .clause (sub member) joins inside inner

/-! ### Operands -/

theorem dereference_congr
    (agree : row.get? (columnOf fields) = row'.get? (columnOf fields)) :
    dereference row fields = dereference row' fields := by
  unfold columnOf at agree
  simp only [dereference, agree]

mutual

theorem resolve_congr : ∀ v : Value, AgreeOn (OperandMentions · v) row row' →
    resolve row v = resolve row' v
  | .obj fields, agree => by
      rw [resolve, resolve]
      split
      · next refers => exact dereference_congr (agree _ (.reference refers rfl))
      · rfl
  | .arr items, agree => by
      rw [resolve, resolve, resolveAll_congr items fun v member =>
        agree.mono fun _ inner => .item member inner]
  | .null, _ | .bool _, _ | .num _, _ | .str _, _ => rfl

theorem resolveAll_congr : ∀ items : List Value,
    (∀ v ∈ items, AgreeOn (OperandMentions · v) row row') →
      resolveAll row items = resolveAll row' items
  | [], _ => rfl
  | v :: rest, agree => by
      obtain ⟨first, others⟩ := List.forall_mem_cons.mp agree
      rw [resolveAll, resolveAll, resolve_congr v first, resolveAll_congr rest others]

end

/-- What a filter says about a column does not depend on columns that are not mentioned. -/
theorem matchesColumn_congr (agree : AgreeOn (ColumnMentions · key v) row row') :
    matchesColumn row key v = matchesColumn row' key v := by
  have actual : row.get? key = row'.get? key := agree key .key
  unfold matchesColumn
  rw [actual]
  split
  · rfl
  · cases v with
    | obj fields =>
        dsimp only
        split
        · next refers => rw [dereference_congr (agree _ (.reference refers rfl))]
        · split
          · next operators =>
              rw [matchesOperators_eq_allOf, matchesOperators_eq_allOf]
              refine allOf_congr fun entry member => ?_
              rw [matchesOperator, matchesOperator, resolve_congr entry.2 <|
                agree.mono fun _ inner => .operand operators member inner]
          · rfl
    | _ => rfl

/-! ### Clauses -/

/-- What joins clauses is evaluated on what the clauses mention. -/
theorem AgreeOn.clauses (joins : isJunction key = true)
    (agree : AgreeOn (Mentions · [(key, v)]) row row') :
    ∀ clause ∈ clausesUnder v, AgreeOn (Mentions · clause) row row' :=
  fun _ inside => agree.mono fun _ inner => .clause (List.mem_singleton_self _) joins inside inner

theorem AgreeOn.column (single : isJunction key = false)
    (agree : AgreeOn (Mentions · [(key, v)]) row row') :
    AgreeOn (ColumnMentions · key v) row row' :=
  agree.mono fun _ mentions => .column (List.mem_singleton_self _) single mentions

-- The recursion is that of the evaluation: over the entries of a map, the clauses in a list.
mutual

theorem matchesAll_congr : ∀ fields : List (String × Value),
    AgreeOn (Mentions · fields) row row' → matchesAll row fields = matchesAll row' fields
  | [], _ => rfl
  | (key, v) :: rest, agree => by
      have first := matchesEntry_congr_of key v <| agree.mono fun _ inner => inner.mono (by simp)
      have later := matchesAll_congr rest <| agree.mono fun _ inner => inner.mono (by simp)
      rw [matchesAll, matchesAll, first, later]

theorem matchesAny_congr : ∀ fields : List (String × Value),
    AgreeOn (Mentions · fields) row row' → matchesAny row fields = matchesAny row' fields
  | [], _ => rfl
  | (key, v) :: rest, agree => by
      have first := matchesEntry_congr_of key v <| agree.mono fun _ inner => inner.mono (by simp)
      have later := matchesAny_congr rest <| agree.mono fun _ inner => inner.mono (by simp)
      rw [matchesAny, matchesAny, first, later]

theorem matchesEntry_congr_of (key : String) : ∀ v : Value,
    AgreeOn (Mentions · [(key, v)]) row row' → matchesEntry row key v = matchesEntry row' key v
  | .arr items, agree => by
      rw [matchesEntry, matchesEntry]
      by_cases conjunction : key = andKey
      · subst conjunction
        rw [if_pos rfl, if_pos rfl, matchesClauses_congr items (agree.clauses rfl)]
      rw [if_neg conjunction, if_neg conjunction]
      by_cases disjunction : key = orKey
      · subst disjunction
        rw [if_pos rfl, if_pos rfl, matchesAnyClause_congr items (agree.clauses rfl)]
      rw [if_neg disjunction, if_neg disjunction]
      exact matchesColumn_congr (agree.column (by simp [isJunction, conjunction, disjunction]))
  | .obj fields, agree => by
      have own : fields ∈ clausesUnder (.obj fields) := by simp [clausesUnder, Value.fields?]
      rw [matchesEntry, matchesEntry]
      by_cases conjunction : key = andKey
      · subst conjunction
        rw [if_pos rfl, if_pos rfl, matchesAll_congr fields (agree.clauses rfl fields own)]
      rw [if_neg conjunction, if_neg conjunction]
      by_cases disjunction : key = orKey
      · subst disjunction
        rw [if_pos rfl, if_pos rfl, matchesAny_congr fields (agree.clauses rfl fields own)]
      rw [if_neg disjunction, if_neg disjunction]
      exact matchesColumn_congr (agree.column (by simp [isJunction, conjunction, disjunction]))
  | .null, agree | .bool _, agree | .num _, agree | .str _, agree => by
      simp only [matchesEntry]
      split
      · rfl
      · next conjunction =>
        split
        · rfl
        · next disjunction =>
          exact matchesColumn_congr
            (agree.column (by simp [isJunction, conjunction, disjunction]))

theorem matchesClause_congr : ∀ v : Value,
    (∀ clause, v.fields? = some clause → AgreeOn (Mentions · clause) row row') →
      matchesClause row v = matchesClause row' v
  | .obj fields, agree => by
      rw [matchesClause, matchesClause, matchesAll_congr fields (agree fields rfl)]
  | .null, _ | .bool _, _ | .num _, _ | .str _, _ | .arr _, _ => rfl

theorem matchesClauses_congr : ∀ items : List Value,
    (∀ clause ∈ clausesUnder (.arr items), AgreeOn (Mentions · clause) row row') →
      matchesClauses row items = matchesClauses row' items
  | [], _ => rfl
  | v :: rest, agree => by
      have first := matchesClause_congr v fun clause object =>
        agree clause (List.mem_filterMap.mpr ⟨v, List.mem_cons_self, object⟩)
      have later := matchesClauses_congr rest fun clause inside => by
        obtain ⟨item, member, object⟩ := List.mem_filterMap.mp inside
        exact agree clause (List.mem_filterMap.mpr ⟨item, List.mem_cons_of_mem v member, object⟩)
      rw [matchesClauses, matchesClauses, first, later]

theorem matchesAnyClause_congr : ∀ items : List Value,
    (∀ clause ∈ clausesUnder (.arr items), AgreeOn (Mentions · clause) row row') →
      matchesAnyClause row items = matchesAnyClause row' items
  | [], _ => rfl
  | v :: rest, agree => by
      have first := matchesClause_congr v fun clause object =>
        agree clause (List.mem_filterMap.mpr ⟨v, List.mem_cons_self, object⟩)
      have later := matchesAnyClause_congr rest fun clause inside => by
        obtain ⟨item, member, object⟩ := List.mem_filterMap.mp inside
        exact agree clause (List.mem_filterMap.mpr ⟨item, List.mem_cons_of_mem v member, object⟩)
      rw [matchesAnyClause, matchesAnyClause, first, later]

end

/-- A filter answers the same on records that agree on the columns it mentions. -/
theorem accepts_congr {filter : Record} (agree : AgreeOn (Mentions · filter) row row') :
    accepts filter row = accepts filter row' :=
  matchesAll_congr filter agree

/-- The operand of a comparison is mentioned, the values of a literal are not. -/
example : Mentions "limit" [("$or", .arr [.obj [("age", .obj [("$lt", Expr.reference "limit")])]])] ∧
    ¬ OperandMentions "limit" (.obj [("price", Expr.reference "limit")]) := by
  refine ⟨.clause (.head _) rfl (.head _) <| .column (.head _) rfl <|
    .operand rfl (.head _) (.reference rfl rfl), ?_⟩
  rintro ⟨refers, -⟩
  cases refers

end RecordGraph.Filter
