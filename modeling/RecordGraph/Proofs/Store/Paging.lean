import Mathlib.Data.List.Permutation
import RecordGraph.Proofs.Store.Ordering
import RecordGraph.Proofs.Store.Rewriting

/-!
# Ordered results and their pages

A request without includes filters the live records in the order of insertion, sorts what is left
and cuts out a page. The list that the pages are cut out of is the same whatever their number,
which is why pages put one after the other are the whole result.
-/

namespace RecordGraph

namespace Loading

variable {r : Registry} {d : Database} {m : Model} {filter : Record} {keys : List Result.SortKey}

/-- A request without includes has an answer wherever its filter has one. -/
theorem matching_of_answers {request : Request.Find} {records : List Record}
    (plain : request.includes = none)
    (answers : ∀ record ∈ records, ∃ b, Filter.accepts request.filter record = .ok b) :
    matching r d m request records =
      .ok ((records.filter (Filter.holds request.filter)).map fun record => (record, [])) := by
  suffices done : ∃ found, matching r d m request records = .ok found by
    obtain ⟨found, done⟩ := done
    rw [done, matching_plain plain done]
  have nothing (record : Record) :
      related r d true m record [] request.includeList = .ok (some []) := by
    rw [Request.Find.includeList, plain]
    rfl
  induction records with
  | nil => exact ⟨[], rfl⟩
  | cons record rest ih =>
      obtain ⟨⟨accepted, answer⟩, later⟩ := List.forall_mem_cons.mp answers
      obtain ⟨found, done⟩ := ih later
      rw [matching, answer, ok_bind]
      cases accepted with
      | false => exact ⟨found, done⟩
      | true => exact ⟨(record, []) :: found, by simp only [if_true, nothing, ok_bind, done]; rfl⟩

/-- A request that is ordered by columns selects a page of the sorted live records that its
filter holds of. -/
theorem select_ordered (offset limit : Option Nat)
    (answers : ∀ record ∈ (d.openTable m.name).liveRecords,
      ∃ b, Filter.accepts filter record = .ok b) :
    select r d m { filter, order := some (Result.columnTerms keys), offset, limit } =
      .ok ((Result.page offset limit (Result.sort id keys
        ((d.openTable m.name).liveRecords.filter (Filter.holds filter)))).map
          fun data => { model := m, data }) := by
  unfold Database.openTable at answers ⊢
  cases table : d.get? m.name with
  | none =>
      simp only [select, Database.table?, table]
      cases limit <;> simp [Result.page, Result.sort, Table.liveRecords, Table.live]
  | some t =>
      rw [table, Option.getD_some] at answers
      simp only [select, Database.table?, table, Option.isSome_none, Bool.false_eq_true, if_false,
        Option.getD_some]
      rw [show t.live.map (·.data) = t.liveRecords from rfl, matching_of_answers rfl answers,
        ok_bind, Result.sortKeys_columnTerms, ok_bind, Result.sort_map, Result.page_map,
        List.mapM_map]
      exact List.mapM_pure

end Loading

namespace Engine

variable {m : Model} {e : Engine}

/-- A request that is ordered by columns of one kind each has a result exactly if its filter has
an answer on all live records. The result is then a stable arrangement, by the columns one after
the other and each in its direction, of the live records that the filter holds of; and its pages
of one size, put one after the other, are the result. -/
theorem findAll_arranged_paged (registered : e.registry.get? m.name = some m) (filter : Record)
    (keys : List Result.SortKey)
    (uniform : ∀ key ∈ keys, Result.Uniform key.1 (e.database.openTable m.name).liveRecords) :
    let live := (e.database.openTable m.name).liveRecords
    let ordered : Request.Find := { filter, order := some (Result.columnTerms keys) }
    ((∃ rows, findAll m ordered e = (.ok rows, e)) ↔
      ∀ record ∈ live, ∃ b, Filter.accepts filter record = .ok b) ∧
    ∀ rows, findAll m ordered e = (.ok rows, e) →
      (∃ sorted, Sorting.Arranged (Result.Precedes keys) (Result.Ties keys)
          (live.filter (Filter.holds filter)) sorted ∧
        rows = sorted.map fun data => { model := m, data }) ∧
      ∀ size, 0 < size → ∃ page : Nat → List Row,
        (∀ k, findAll m { ordered with offset := some (k * size), limit := some size } e =
          (.ok (page k), e)) ∧
        ∀ count, rows.length ≤ count → (List.range count).flatMap page = rows := by
  intro live ordered
  have answered {rows : List Row} (done : findAll m ordered e = (.ok rows, e)) :
      ∀ record ∈ live, ∃ b, Filter.accepts filter record = .ok b :=
    Loading.answers_of_select (findAll_ok registered done).2
  have shown (answers : ∀ record ∈ live, ∃ b, Filter.accepts filter record = .ok b)
      (offset limit : Option Nat) : findAll m { ordered with offset, limit } e =
        (.ok ((Result.page offset limit (Result.sort id keys
          (live.filter (Filter.holds filter)))).map fun data => { model := m, data }), e) := by
    rw [findAll_run, Loading.model, registered, ok_bind]
    exact congrArg (·, e) (Loading.select_ordered offset limit answers)
  constructor
  · constructor
    · rintro ⟨rows, done⟩
      exact answered done
    · exact fun answers => ⟨_, shown answers none none⟩
  intro rows done
  have answers := answered done
  have whole := (shown answers none none).symm.trans done
  obtain rfl : (Result.sort id keys (live.filter (Filter.holds filter))).map
      (fun data => ({ model := m, data } : Row)) = rows := Except.ok.inj (congrArg Prod.fst whole)
  refine ⟨⟨_, Result.arranged_sort fun key member => (uniform key member).sublist
    List.filter_sublist, rfl⟩, fun size positive => ?_⟩
  refine ⟨_, fun k => shown answers (some (k * size)) (some size), fun count enough => ?_⟩
  rw [← List.map_flatMap, Result.flatMap_page, List.take_of_length_le]
  rw [List.length_map] at enough
  have := Nat.le_mul_of_pos_right count positive
  omega

section Pupils

/-- A pupil, with a club and an age that may be missing. Pupils that are destroyed are only
hidden. -/
def pupil : Model :=
  { name := "Pupil"
    attributes :=
      [.identity "id", { name := "club", allowNull := true },
        { name := "age", dataType := .integer, allowNull := true }]
    paranoid := true }

/-- The record of a pupil. -/
def pupilRecord (id : Int) (club age : Value) : Record :=
  [("age", age), ("club", club), ("id", .ofInt id)]

/-- Six pupils, of whom the fourth is hidden. -/
def school : Engine where
  registry := [("Pupil", pupil)]
  database :=
    [("Pupil",
      { rows :=
          [{ data := pupilRecord 1 (.str "chess") (.ofInt 12) },
            { data := pupilRecord 2 (.str "rowing") (.ofInt 11) },
            { data := pupilRecord 3 (.str "chess") .null },
            { data := pupilRecord 4 (.str "chess") (.ofInt 13), hidden := true },
            { data := pupilRecord 5 (.str "chess") (.ofInt 12) },
            { data := pupilRecord 6 .null (.ofInt 10) }]
        counter := 6 })]

/-- All pupils but the second, by club and the oldest first: no age comes before every age, no
club behind every club, and the first and the fifth stay as they came. Two pages are enough. -/
theorem findAll_arranged_paged_pupils :
    let keys : List Result.SortKey := [("club", .asc), ("age", .desc)]
    let filter : Record := [("id", .obj [("$ne", .ofInt 2)])]
    let ordered : Request.Find := { filter, order := some (Result.columnTerms keys) }
    let live := (school.database.openTable pupil.name).liveRecords
    let sorted := [pupilRecord 3 (.str "chess") .null, pupilRecord 1 (.str "chess") (.ofInt 12),
      pupilRecord 5 (.str "chess") (.ofInt 12), pupilRecord 6 .null (.ofInt 10)]
    let rows : List Row := sorted.map fun data => { model := pupil, data }
    (∀ key ∈ keys, Result.Uniform key.1 live) ∧ findAll pupil ordered school = (.ok rows, school) ∧
      (∃ sorted, Sorting.Arranged (Result.Precedes keys) (Result.Ties keys)
          (live.filter (Filter.holds filter)) sorted ∧
        rows = sorted.map fun data => { model := pupil, data }) ∧
      ∃ page : Nat → List Row,
        (∀ k, findAll pupil { ordered with offset := some (k * 2), limit := some 2 } school =
          (.ok (page k), school)) ∧ (List.range 4).flatMap page = rows := by
  intro keys filter ordered live sorted rows
  have uniform : ∀ key ∈ keys, Result.Uniform key.1 live := by
    refine List.forall_mem_cons.mpr ⟨.inr (.inl ?_), List.forall_mem_singleton.mpr (.inl ?_)⟩
    · show ∀ v ∈ [Value.str "chess", .str "rowing", .str "chess", .str "chess"], _
      simp
    · show ∀ v ∈ [Value.ofInt 12, .ofInt 11, .ofInt 12, .ofInt 10], _
      simp [Value.ofInt, Value.signed?, Number.signed?]
  have shown : findAll pupil ordered school = (.ok rows, school) :=
    (findAll_sorted (sorted.map fun data => (data, [])) rfl rfl rfl rfl rfl
      (by cbv)).trans rfl
  obtain ⟨-, told⟩ := findAll_arranged_paged (m := pupil) (e := school) rfl filter keys uniform
  obtain ⟨arranged, paged⟩ := told rows shown
  obtain ⟨page, pages, whole⟩ := paged 2 Nat.two_pos
  exact ⟨uniform, shown, arranged, page, pages, whole 4 (Nat.le_refl 4)⟩

end Pupils

end Engine

end RecordGraph
