import RecordGraph.Proofs.Select.Paths
import RecordGraph.Proofs.Select.References

/-!
# Names in references

Filtering renames the associations in the keys of a condition and leaves what stands under
the keys alone. Projections and groups are never renamed. So a reference to an attribute of a
related model is compiled as it was written, and consists of the labels under which sorting
and filtering know the associations only where the query named them by these labels itself.
-/

namespace RecordGraph

open RecordGraph.Filter

namespace Dict

variable {β : Type} {entries : List (String × β)}

/-- Where no two entries of a list share a key, the dictionary of the list has all of them. -/
theorem mem_ofList_iff (unique : ∀ e ∈ entries, ∀ f ∈ entries, e.1 = f.1 → e = f)
    {entry : String × β} : entry ∈ ofList entries ↔ entry ∈ entries := by
  constructor
  · intro member
    exact (mem_of_mem_extend member).resolve_left List.not_mem_nil
  · intro member
    refine mem_of_get? (get?_extend_of_unique (.inl member) fun w other => ?_)
    exact congrArg Prod.snd (unique _ other entry member rfl)

end Dict

/-- Renaming associations keeps the keys of each clause of a filter apart. -/
def Renaming.KeepsApart (r : Registry) (m : Model) (fields : Record) : Prop :=
  ∀ way clause, ClauseAt fields way clause → ∀ e ∈ clause, ∀ f ∈ clause,
    (Renaming.entry r m e).1 = (Renaming.entry r m f).1 → e.1 = f.1

namespace Renaming

variable {r : Registry} {m : Model} {column : String} {fields : Record}

/-- All clauses of a filter stand in key order, and renaming keeps their keys apart. -/
structure Stable (r : Registry) (m : Model) (fields : Record) : Prop where
  ascending : ∀ {way clause}, ClauseAt fields way clause → clause.Ascending
  apart : KeepsApart r m fields

theorem clauseAt_through {joint : String} {v : Value} {place : Nat} {clause inner : Record}
    {way : List (String × Nat)} (joins : isJunction joint = true)
    (entry : fields.get? joint = some v) (member : (clausesUnder v)[place]? = some clause)
    (found : ClauseAt clause way inner) : ClauseAt fields ((joint, place) :: way) inner := by
  induction found with
  | top => exact .under .top joins entry member
  | under _ joins entry member ih => exact .under ih joins entry member

theorem Stable.clause (stable : Stable r m fields) {joint : String} {v : Value}
    (joins : isJunction joint = true) (there : (joint, v) ∈ fields) {clause : Record}
    (member : clause ∈ clausesUnder v) : Stable r m clause := by
  obtain ⟨place, at_place⟩ := List.getElem?_of_mem member
  have entry := (Dict.get?_eq_some_iff_mem (stable.ascending .top)).mpr there
  have within {way inner} (found : ClauseAt clause way inner) :=
    clauseAt_through joins entry at_place found
  exact ⟨fun found => stable.ascending (within found),
    fun way inner found => stable.apart _ inner (within found)⟩

/-- A renamed filter has the renamed entries. -/
theorem mem_filter_iff (stable : Stable r m fields) {e : String × Value} :
    e ∈ filter r m fields ↔ ∃ f ∈ fields, entry r m f = e := by
  rw [filter, entries_eq_map, Dict.mem_ofList_iff, List.mem_map]
  rintro _ renamed _ other same
  obtain ⟨f, here, rfl⟩ := List.mem_map.mp renamed
  obtain ⟨g, there, rfl⟩ := List.mem_map.mp other
  have ascending := stable.ascending .top
  have key : f.1 = g.1 := stable.apart [] fields .top f here g there same
  have first : fields.get? f.1 = some f.2 := (Dict.get?_eq_some_iff_mem ascending).mpr here
  have second : fields.get? g.1 = some g.2 := (Dict.get?_eq_some_iff_mem ascending).mpr there
  have equal : f = g := Prod.ext key (Option.some.inj (first.symm.trans (key ▸ second)))
  rw [equal]

/-- No key is renamed to the key of a reference. -/
theorem key_eq_columnKey_iff {k : String} : key r m k = columnKey ↔ k = columnKey := by
  have free : Text.betweenDollars? columnKey = none := by decide
  constructor
  · intro renamed
    rw [key] at renamed
    split at renamed
    · next inner _ =>
      split at renamed
      · have enclosed := Text.betweenDollars?_dollars
          (Text.dotted (path r m (Text.segments inner)))
        rw [renamed, free] at enclosed
        cases enclosed
      · exact renamed
    · exact renamed
  · rintro rfl
    rw [key, free]

/-- Renaming an entry keeps what it refers to, if renaming what joins clauses does. -/
theorem refersUnder_entry_iff {k : String} {v : Value}
    (inside : isJunction k = true → ((junction r m v).Refers column ↔ v.Refers column)) :
    Value.RefersUnder column (entry r m (k, v)).1 (entry r m (k, v)).2 ↔
      Value.RefersUnder column k v := by
  rw [entry]
  split
  · next joins =>
      have free : isJunction columnKey = false := by decide
      have other : k ≠ columnKey := by
        rintro rfl
        cases free.symm.trans joins
      simp [Value.RefersUnder, other, inside joins]
  · simp [Value.RefersUnder, key_eq_columnKey_iff]

/-- Renaming the clauses under a joining key keeps what they refer to. -/
theorem refers_junction_iff : ∀ v : Value, (∀ clause ∈ clausesUnder v, Stable r m clause) →
    ((junction r m v).Refers column ↔ v.Refers column)
  | .obj fields, stable => by
      have own : Stable r m fields := stable fields (by simp [clausesUnder, Value.fields?])
      have renamed : (filter r m fields).Ascending := Dict.ascending_ofList _
      have each : ∀ e ∈ fields, (Value.RefersUnder column (entry r m e).1 (entry r m e).2 ↔
          Value.RefersUnder column e.1 e.2) := by
        rintro ⟨k, v⟩ there
        have smaller : sizeOf v < sizeOf fields := by
          have := List.sizeOf_lt_of_mem there
          simp only [Prod.mk.sizeOf_spec] at this
          omega
        exact refersUnder_entry_iff fun joins =>
          refers_junction_iff v fun clause member => own.clause joins there member
      rw [show junction r m (.obj fields) = .obj (filter r m fields) from rfl, Value.refers_obj,
        Value.refers_obj, Dict.any_iff_exists_mem renamed,
        Dict.any_iff_exists_mem (own.ascending .top)]
      constructor
      · rintro ⟨e, member, refers⟩
        obtain ⟨f, there, rfl⟩ := (mem_filter_iff own).mp member
        exact ⟨f, there, (each f there).mp refers⟩
      · rintro ⟨f, there, refers⟩
        exact ⟨_, (mem_filter_iff own).mpr ⟨f, there, rfl⟩, (each f there).mpr refers⟩
  | .arr items, stable => by
      have each : ∀ item ∈ items, ((clause r m item).Refers column ↔ item.Refers column) := by
        intro item member
        match item with
        | .obj fields =>
            have there : fields ∈ clausesUnder (.arr items) :=
              List.mem_filterMap.mpr ⟨_, member, rfl⟩
            have smaller : 1 + sizeOf fields < sizeOf items := by
              simpa using List.sizeOf_lt_of_mem member
            exact refers_junction_iff (.obj fields) fun inner only => by
              obtain rfl : inner = fields := by simpa [clausesUnder, Value.fields?] using only
              exact stable inner there
        | .null | .bool _ | .num _ | .str _ | .arr _ => rfl
      rw [junction, Value.refers_arr, Value.refers_arr, clauses_eq_map]
      constructor
      · rintro ⟨_, renamed, refers⟩
        obtain ⟨item, member, rfl⟩ := List.mem_map.mp renamed
        exact ⟨item, member, (each item member).mp refers⟩
      · rintro ⟨item, member, refers⟩
        exact ⟨_, List.mem_map_of_mem member, (each item member).mpr refers⟩
  | .null, _ | .bool _, _ | .num _, _ | .str _, _ => Iff.rfl

/-- Renaming the associations in a condition keeps what it refers to. -/
theorem refers_filter_iff {c : Condition} (ordered : c.ClausesOrdered)
    (apart : KeepsApart r m c.fields) :
    Condition.Refers column ⟨filter r m c.fields⟩ ↔ c.Refers column := by
  refine refers_junction_iff (.obj c.fields) fun clause only => ?_
  obtain rfl : clause = c.fields := by simpa [clausesUnder, Value.fields?] using only
  exact ⟨ordered.clauses, apart⟩

end Renaming

/-- Two paths of keys without dots lead to a name under one dotted name only if they are the
same. -/
theorem Expr.dottedName_inj {path labels : List String} {name : String}
    (free : ∀ key ∈ path, Text.hasDot key = false)
    (labelsFree : ∀ key ∈ labels, Text.hasDot key = false) :
    dottedName path name = dottedName labels name ↔ path = labels := by
  refine ⟨fun same => ?_, fun same => same ▸ rfl⟩
  have split := congrArg Text.segments same
  rw [dottedName, dottedName, Text.segments_dotted free, Text.segments_dotted labelsFree] at split
  exact List.append_cancel_right split

namespace Query

variable {q : Query}

/-- Filtering by a condition adds the references of the condition, as they are. -/
theorem refers_filter_iff {c : Condition} {column : String} (ordered : c.ClausesOrdered)
    (apart : Renaming.KeepsApart q.registry q.model c.fields) :
    (q.filter c).descriptor.Refers column ↔ q.descriptor.Refers column ∨ c.Refers column := by
  have renamed : Condition.Refers column ⟨Renaming.filter q.registry q.model c.fields⟩ ↔
      c.Refers column := Renaming.refers_filter_iff ordered apart
  simp only [Descriptor.Refers, Selection.Refers, filter, Descriptor.addCondition,
    List.mem_append, List.mem_singleton, or_and_right, exists_or, exists_eq_left, renamed]
  grind

/-- The request for a query refers to the columns that the query refers to, each under the
name that it was written with; filtering adds the references of the condition, and a condition
has those of the right sides that it compares with. So an attribute that is reached through a
chain of associations is printed through the labels that the rows on the way are filed under
exactly if the chain was written with these labels. -/
theorem references_as_written {q : Query} {request : Request.Find} (ordered : q.descriptor.Ordered)
    (done : q.toFind = .ok request) :
    (∀ column, request.Refers column ↔ q.descriptor.Refers column) ∧
    (∀ c : Condition, c.ClausesOrdered → Renaming.KeepsApart q.registry q.model c.fields →
      ∀ column, (q.filter c).descriptor.Refers column ↔
        q.descriptor.Refers column ∨ c.Refers column) ∧
    (∀ c rights, Condition.Compares c rights → ∀ column,
      c.Refers column ↔ ∃ right ∈ rights, right.Refers column) ∧
    ∀ m path name hops, Expr.hops q.registry m path = .ok hops →
      (∀ key ∈ path, Text.hasDot key = false) → (∀ hop ∈ hops, Text.hasDot hop.label = false) →
      (∀ column, (Expr.attribute path name).Refers column →
        (column = Expr.dottedName (hops.map (·.label)) name ↔ path = hops.map (·.label))) ∧
      ∀ before key after, path = before ++ key :: after → ∃ m' hop,
        q.registry.reached? m before = some m' ∧ hops[before.length]? = some hop ∧
        FilesUnder q.registry m' key hop := by
  refine ⟨fun column => q.descriptor.refers_toFind_iff ordered done, ?_, ?_, ?_⟩
  · intro c clauses apart column
    exact refers_filter_iff clauses apart
  · intro c rights made column
    exact made.refers_iff
  · intro m path name hops resolved free labelsFree
    have labels : ∀ key ∈ hops.map (·.label), Text.hasDot key = false :=
      List.forall_mem_map.mpr labelsFree
    refine ⟨?_, ?_⟩
    · rintro _ ⟨rfl⟩
      exact Expr.dottedName_inj free labels
    · rintro before key after rfl
      exact filesUnder_of_hops resolved

section Writings

/-- A model that has many of another one, under an alias. -/
def writer : Model :=
  { name := "Writer", attributes := [.identity "id", { name := "name" }],
    associations := [
      { key := "articles", kind := .hasMany, target := "Article",
        declaredAlias := some "writings" }] }

/-- A model whose rows belong to those of another one. -/
def article : Model :=
  { name := "Article", attributes := [.identity "id", { name := "title" },
      { name := "WriterId", dataType := .integer }], associations := [] }

/-- All writers with their articles. -/
def writers : Query :=
  { registry := [("Article", article), ("Writer", writer)], model := writer
    descriptor := { Descriptor.ofModel "Writer" with
      includes := [.plain { target := "Article", label := "writings" }] } }

/-- The titles of the articles of a writer, by some name for the association. -/
def title (hop : String) : Expr :=
  (Route.ofKey hop).field (.attribute [] "title")

/-- A writer is called like an article. -/
def namesake (hop : String) : Condition :=
  ⟨[("name", (title hop).operand)]⟩

/-- The writers that are called like an article of theirs, with the titles and initials of the
articles, grouped and sorted by the titles. The association has one name throughout. -/
def namesakes (hop : String) : Query :=
  (((writers.filter (namesake hop)).attributes
    [title hop, .named "initial" (.call "left" [title hop, .constant (.ofInt 1)])]).groupBy
    [title hop]).order [⟨title hop, .asc⟩]

/-- The condition has no clause but itself. -/
theorem clauseAt_namesake {hop : String} {way : List (String × Nat)} {clause : Record}
    (found : ClauseAt (namesake hop).fields way clause) : clause = (namesake hop).fields := by
  induction found with
  | top => rfl
  | under _ joins there _ ih =>
      subst ih
      obtain ⟨rfl, -⟩ : "name" = _ ∧ (title hop).operand = _ := by simpa [namesake] using there
      exact absurd joins (by decide)

/-- Where the association goes by its alias, all references are through the alias. -/
theorem references_as_written_alias : ∃ request, (namesakes "writings").toFind = .ok request ∧
    request.Refers "writings.title" ∧
    ((namesakes "writings").filter (namesake "writings")).descriptor.Refers "writings.title" ∧
    Expr.hops writers.registry writer ["writings"] = .ok [⟨"Article", "writings"⟩] ∧
    "writings.title" = Expr.dottedName ["writings"] "title" ∧
    FilesUnder writers.registry writer "writings" ⟨"Article", "writings"⟩ := by
  have ordered : (namesakes "writings").descriptor.Ordered := by
    refine ⟨?_, ?_⟩
    · intro c member
      obtain rfl := List.mem_singleton.mp member
      exact ⟨by decide, by decide⟩
    · rintro i (member | ⟨member, inner⟩) d found
      · obtain rfl := List.mem_singleton.mp member
        cases found
      · obtain rfl := List.mem_singleton.mp member
        cases inner <;> nomatch ‹_ ∈ []›
  have clauses : (namesake "writings").ClausesOrdered :=
    ⟨⟨by decide, by decide⟩, fun found => clauseAt_namesake found ▸ by decide⟩
  have apart : Renaming.KeepsApart writers.registry writer (namesake "writings").fields := by
    intro way clause found e he f hf _
    rw [clauseAt_namesake found] at he hf
    rw [List.mem_singleton.mp he, List.mem_singleton.mp hf]
  have occurs : (title "writings").Refers "writings.title" := .attribute (by decide)
  obtain ⟨request, done⟩ : ∃ request, (namesakes "writings").toFind = .ok request := ⟨_, rfl⟩
  obtain ⟨printed, filtered, compared, aliased⟩ := references_as_written ordered done
  obtain ⟨canonical, files⟩ := aliased writer ["writings"] "title" [⟨"Article", "writings"⟩] rfl
    (by decide) (by decide)
  refine ⟨request, done, ?_, ?_, rfl, ?_, ?_⟩
  · exact (printed _).mpr (.inl (.inr ⟨_, List.mem_cons_self, occurs⟩))
  · have done : Condition.compare (.attribute [] "name") .eq (.expr (title "writings")) =
        .ok (namesake "writings") := rfl
    have made : (namesake "writings").Compares [.expr (title "writings")] :=
      .one (by decide) (by decide) done
    have operand := (compared _ _ made "writings.title").mpr ⟨_, List.mem_cons_self, occurs⟩
    exact (filtered _ clauses apart _).mpr (.inr operand)
  · exact (canonical _ occurs).mpr rfl
  · obtain ⟨m, hop, reached, at_first, filed⟩ := files [] "writings" [] rfl
    obtain rfl : writer = m := Option.some.inj reached
    obtain rfl : ⟨"Article", "writings"⟩ = hop := Option.some.inj at_first
    exact filed

/-- Where it goes by its key, the operand, the projection and the group keep the key, unlike the
include and the sort key. -/
theorem references_by_key :
    (Registry.register [] article >>= fun r => r.register writer) = .ok writers.registry ∧
    (Query.ofModel writers.registry "Writer" >>= fun q =>
      q.including (.ofKey "articles") none) = .ok writers ∧
    Expr.hops writers.registry writer ["articles"] = .ok [⟨"Article", "writings"⟩] ∧
    (namesakes "articles").toFind = .ok
      { filter := [("name", .obj [("$col", .str "articles.title")])]
        attributes := some
          [.expr (.obj [("$col", .str "articles.title")]),
            .aliased (.obj [("$fn", .str "left"),
              ("args", .arr [.obj [("$col", .str "articles.title")], .ofInt 1])]) "initial"]
        includes := some [.leaf { model := "Article", label := "writings" }]
        order := some [{ path := [⟨"Article", "writings"⟩], target := .str "title",
                         direction := .asc }]
        group := some [.str "articles.title"] } ∧
    "articles.title" ≠ Expr.dottedName ["writings"] "title" := by
  refine ⟨rfl, rfl, rfl, rfl, by decide⟩

end Writings

end Query

end RecordGraph
