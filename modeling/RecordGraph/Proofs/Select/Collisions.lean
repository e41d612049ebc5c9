import RecordGraph.Proofs.Select.Aliases

/-!
# Keys that become equal

Renaming the associations in the keys of a filter may make two keys equal, since an
association goes by its key as well as by its alias. The entries are collected by their new
keys, so of two such entries with different values only one stays. This is the only way to
lose an entry: where entries of a clause come to one key with one value only, all of them are
kept, in every clause at any depth, and what is kept has its part in the filter of the query.
-/

namespace RecordGraph

open RecordGraph.Filter

namespace Renaming

variable {r : Registry} {m : Model} {fields : Record}

/-- Every entry of every clause stands under its new key in the renamed clause, which is in
the place of the clause. -/
def KeepsEntries (r : Registry) (m : Model) (fields : Record) : Prop :=
  ∀ way clause, ClauseAt fields way clause → ∃ renamed,
    ClauseAt (filter r m fields) way renamed ∧
      ∀ e ∈ clause, renamed.get? (entry r m e).1 = some (entry r m e).2

/-- Entries of one clause get the same key only if they have the same value under it. -/
def Consistent (r : Registry) (m : Model) (fields : Record) : Prop :=
  ∀ way clause, ClauseAt fields way clause → ∀ e ∈ clause, ∀ f ∈ clause,
    (entry r m e).1 = (entry r m f).1 → (entry r m e).2 = (entry r m f).2

/-- An entry of a clause is kept if no other value comes under its new key. -/
theorem get?_filter_of_agree {clause : Record} {e : String × Value} (member : e ∈ clause)
    (agree : ∀ f ∈ clause, (entry r m f).1 = (entry r m e).1 → (entry r m f).2 = (entry r m e).2) :
    (filter r m clause).get? (entry r m e).1 = some (entry r m e).2 := by
  rw [filter, entries_eq_map, Dict.ofList]
  refine Dict.get?_extend_of_unique (.inl (List.mem_map_of_mem member)) fun w renamed => ?_
  obtain ⟨f, there, same⟩ := List.mem_map.mp renamed
  obtain ⟨key, value⟩ := Prod.ext_iff.mp same
  exact value.symm.trans (agree f there key)

/-- Renaming keeps all entries exactly if none of them is in the way of another. -/
theorem keepsEntries_iff
    (ascending : ∀ {way clause}, ClauseAt fields way clause → clause.Ascending) :
    KeepsEntries r m fields ↔ Consistent r m fields := by
  constructor
  · intro keeps way clause found e he f hf same
    obtain ⟨renamed, -, kept⟩ := keeps way clause found
    have there := kept e he
    rw [same, kept f hf] at there
    exact (Option.some.inj there).symm
  · intro consistent way clause found
    refine ⟨_, clauseAt_filter ascending found, fun e member => ?_⟩
    exact get?_filter_of_agree member fun f there same =>
      consistent way clause found f there e member same

end Renaming

namespace Query

variable {q : Query} {c : Condition}

/-- Filtering by a condition renames the keys in all its clauses. All entries are kept under
their new keys exactly if no two entries of a clause get the same key and different values.
The renamed condition becomes part of the filter of the query: the filter names its keys
besides those that it named already, and where no operator maps meet under a disjunction it
holds of the records that it held of before and that the renamed condition holds of. -/
theorem filter_keeps_entries_iff (ordered : ∀ old ∈ q.descriptor.selection.conditions, old.Ordered)
    (clauses : c.ClausesOrdered) :
    let before := q.descriptor.selection
    let after := (q.filter c).descriptor.selection
    let renamed : Condition := ⟨Renaming.filter q.registry q.model c.fields⟩
    (Renaming.KeepsEntries q.registry q.model c.fields ↔
      Renaming.Consistent q.registry q.model c.fields) ∧
    (∀ key, key ≠ andKey →
      (Names key after.filter ↔ Names key before.filter ∨ Names key renamed.fields)) ∧
    (Condition.DisjunctionsApart (Condition.all before.conditions) renamed → ∀ row,
      (accepts after.filter row = .ok true ↔
        accepts before.filter row = .ok true ∧ accepts renamed.fields row = .ok true)) := by
  intro before after renamed
  have inOrder : renamed.Ordered := Renaming.ordered_filter clauses.toOrdered
  have conditions : after.conditions = before.conditions ++ [renamed] := rfl
  have all : ∀ c ∈ after.conditions, c.Ordered := by
    rw [conditions, List.forall_mem_append]
    exact ⟨ordered, List.forall_mem_singleton.mpr inOrder⟩
  refine ⟨Renaming.keepsEntries_iff clauses.clauses, fun key ne => ?_, fun apart row => ?_⟩
  · rw [Condition.names_filter_iff ne all, Condition.names_filter_iff ne ordered, conditions]
    simp only [List.mem_append, List.mem_singleton, or_and_right, exists_or, exists_eq_left]
    rfl
  · exact Condition.accepts_all_concat_iff ordered inOrder apart row

section Titles

/-- Writings by title, by either name for the association, or some writings. -/
def either : Condition :=
  ⟨[("$or", .arr [.obj [("$articles.title$", .str "x")], .obj [("name", .str "ada")]]),
    ("$writings.title$", .obj [("$ne", .str "y")])]⟩

theorem clauseAt_either {way : List (String × Nat)} {clause : Record}
    (found : ClauseAt either.fields way clause) :
    clause = either.fields ∨ clause = [("$articles.title$", .str "x")] ∨
      clause = [("name", .str "ada")] := by
  induction found with
  | top => exact .inl rfl
  | under _ joins there member ih =>
      rcases ih with rfl | rfl | rfl
      · have under := Dict.mem_of_get? there
        simp only [either, List.mem_cons, Prod.mk.injEq, List.not_mem_nil, or_false] at under
        obtain ⟨rfl, rfl⟩ | ⟨rfl, -⟩ := under
        · have inside := List.mem_of_getElem? member
          simp only [clausesUnder, List.filterMap, Value.fields?, List.mem_cons,
            List.not_mem_nil, or_false] at inside
          exact .inr inside
        · exact absurd joins (by decide)
      · obtain ⟨rfl, -⟩ : "$articles.title$" = _ ∧ Value.str "x" = _ := by simpa using there
        exact absurd joins (by decide)
      · obtain ⟨rfl, -⟩ : "name" = _ ∧ Value.str "ada" = _ := by simpa using there
        exact absurd joins (by decide)

/-- An association goes by its key in one clause and by its alias in another. -/
theorem filter_keeps_entries_apart :
    Renaming.KeepsEntries writers.registry writer either.fields ∧
      Names "$writings.title$" (writers.filter either).descriptor.selection.filter := by
  have clauses : either.ClausesOrdered := by
    refine ⟨⟨by decide, by decide⟩, fun found => ?_⟩
    rcases clauseAt_either found with rfl | rfl | rfl <;> decide
  obtain ⟨keeps, names, -⟩ := filter_keeps_entries_iff (q := writers) (c := either) nofun clauses
  refine ⟨keeps.mpr fun way clause found => ?_, (names _ (by decide)).mpr (.inr (.here rfl))⟩
  rcases clauseAt_either found with rfl | rfl | rfl
  · intro e he f hf same
    simp only [either, List.mem_cons, List.not_mem_nil, or_false] at he hf
    obtain rfl | rfl := he <;> obtain rfl | rfl := hf
    · rfl
    · exact absurd same (by decide)
    · exact absurd same (by decide)
    · rfl
  all_goals
    intro e he f hf _
    rw [List.mem_singleton.mp he, List.mem_singleton.mp hf]

/-- The titles of the articles of a writer, once by the key of the association and once by its
alias. -/
def titles : Condition :=
  ⟨[("$articles.title$", .str "x"), ("$writings.title$", .obj [("$ne", .str "y")])]⟩

/-- In one clause they come to one key, and the first constraint is lost. Filtering by one
after the other keeps both. -/
theorem filter_drops_article_title :
    (writers.filter titles).descriptor.selection.filter =
      [("$writings.title$", .obj [("$ne", .str "y")])] ∧
    ((writers.filter ⟨[("$articles.title$", .str "x")]⟩).filter
        ⟨[("$writings.title$", .obj [("$ne", .str "y")])]⟩).descriptor.selection.filter =
      [("$and", .arr [.obj [("$writings.title$", .obj [("$ne", .str "y")])]]),
        ("$writings.title$", .str "x")] ∧
    ¬ Renaming.KeepsEntries writers.registry writer titles.fields := by
  refine ⟨rfl, rfl, fun keeps => ?_⟩
  obtain ⟨renamed, place, kept⟩ := keeps [] _ .top
  obtain rfl : renamed = Renaming.filter writers.registry writer titles.fields := by
    generalize Renaming.filter writers.registry writer titles.fields = fields at place
    generalize way : [] = top at place
    cases place with
    | top => rfl
    | under => simp at way
  cases kept ("$articles.title$", .str "x") (.head _)

end Titles

end Query

end RecordGraph
