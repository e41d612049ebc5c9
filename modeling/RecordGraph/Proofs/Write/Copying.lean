import RecordGraph.Proofs.Write.FindOrCreate

/-!
# What a query copies into the row that it creates

Two passes sort what stands under a column of a filter. The one that reads rows asks whether it is
a reference before it asks whether it is an operator map; the one that fills a new row asks the
second question only. They agree on column references, which look like operator maps, and differ
on function calls, whose document has a key that is not reserved: a call is copied, and the new
row has its document for a value. Rows that are there prevent this only where they let the reader
get as far as the call.
-/

namespace RecordGraph

open RecordGraph.Filter

namespace Filter

/-- A call has no value in a record. -/
theorem matchesEntry_call {record : Record} {key : String} (free : isReserved key = false)
    (function : String) (args : List Expr) :
    matchesEntry record key (Expr.call function args).operand = .error (.unsupported .call) := by
  have isCall : isReference [(callKey, .str function), (argumentsKey, .arr (Expr.operands args))] =
      true := rfl
  rw [matchesEntry_of_free free, Expr.operand]
  simp only [matchesColumn, free, isCall, if_true, Bool.false_eq_true, if_false]
  rfl

/-- Where a filter has an answer although one of its entries has none, an earlier entry is false. -/
theorem exists_earlier_of_error {filter record : Record} {key : String} {v : Value} {b : Bool}
    {err : StorageError} (ordered : filter.Ascending) (member : (key, v) ∈ filter)
    (fails : matchesEntry record key v = .error err) (answer : accepts filter record = .ok b) :
    ∃ entry ∈ filter, entry.1 < key ∧ matchesEntry record entry.1 entry.2 = .ok false := by
  obtain ⟨before, after, rfl⟩ := List.append_of_mem member
  rw [accepts, matchesAll_eq_allOf] at answer
  obtain ⟨entry, earlier, refuses⟩ := exists_of_allOf_error (x := (key, v)) fails answer
  refine ⟨entry, List.mem_append_left _ earlier, ?_, refuses⟩
  exact (List.pairwise_append.mp ordered).2.2 entry earlier _ List.mem_cons_self

end Filter

namespace Repository

variable {q : Query} {k : String} {v : Value}

/-- A column reference is never copied. -/
theorem reference_not_copied (filter : Record) (name : String) :
    (k, Expr.reference name) ∉ literals filter := by
  intro copied
  have reserved : isReserved columnKey = true := by decide
  have operators : isOperatorMap (Expr.reference name) = true := by
    simp [Expr.reference, isOperatorMap, allReserved, reserved]
  rw [(mem_literals_iff.mp copied).2.2] at operators
  cases operators

/-- A call under a free column is always copied. -/
theorem call_copied {filter : Record} {function : String} {args : List Expr}
    (free : isReserved k = false) (member : (k, (Expr.call function args).operand) ∈ filter) :
    (k, (Expr.call function args).operand) ∈ literals filter := by
  refine mem_literals_iff.mpr ⟨member, free, ?_⟩
  have free : isReserved argumentsKey = false := by decide
  simp [Expr.operand, isOperatorMap, allReserved, free]

/-- What is copied from a filter is compared as it stands, unless it is a reference. Column
references are never copied, function calls are, whatever their arguments. A row that is created
has all that was copied under declared columns that are not numbered. If a call is among it, then
for each row that was live an earlier entry of the filter is false. -/
theorem copied_compared_iff (q : Query) :
    let filter := q.descriptor.selection.filter
    (∀ k v, (k, v) ∈ literals filter → (ComparesLiteral k v ↔ isReferenceValue v = false)) ∧
    (∀ k name, (k, Expr.reference name) ∉ literals filter) ∧
    (∀ k function args, (k, (Expr.call function args).operand) ∈ filter → isReserved k = false →
      (k, (Expr.call function args).operand) ∈ literals filter) ∧
    ∀ (repo : Repository) defaults options (e : Engine) row e',
      e.registry.get? repo.model.name = some repo.model →
      repo.findOrCreate q defaults options e = (.ok (row, true), e') →
      (∃ first e₁,
        Engine.create repo.model (filled q defaults) options.toWrite e = (.ok first, e₁) ∧
        ∀ k v, (k, v) ∈ literals filter → repo.model.Unnumbered k →
          first.data.get? k = some v) ∧
      ∀ k function args, (k, (Expr.call function args).operand) ∈ literals filter →
        ∀ record ∈ (e.database.openTable repo.model.name).liveRecords,
          ∃ entry ∈ filter, entry.1 < k ∧ matchesEntry record entry.1 entry.2 = .ok false := by
  intro filter
  refine ⟨?_, fun k name => reference_not_copied filter name, ?_, ?_⟩
  · intro k v copied
    obtain ⟨-, free, notOperators⟩ := mem_literals_iff.mp copied
    exact comparesLiteral_iff free notOperators
  · exact fun k function args member free => call_copied free member
  · intro repo defaults options e row e' registered done
    obtain ⟨request, first, e₁, asked, missed, created, -⟩ := findOrCreate_created registered done
    refine ⟨⟨first, e₁, created, fun k v copied unnumbered => ?_⟩, ?_⟩
    · obtain ⟨t, stored, -, -⟩ := Engine.create_stored registered created
      rw [stored]
      exact Table.get?_newRecord unnumbered (get?_filled copied)
    · intro k function args copied record live
      obtain ⟨member, free, -⟩ := mem_literals_iff.mp copied
      obtain ⟨b, answer⟩ := Loading.answers_of_select missed record live
      rw [show _ = filter from Query.filter_of_toFind asked] at answer
      exact exists_earlier_of_error (Condition.ascending_all _) member
        (matchesEntry_call free function args) answer

section Tags

/-- A note with a tag of any form. -/
def note : Model :=
  { name := "Note"
    attributes :=
      [.identity "id", { name := "by" }, { name := "tag", dataType := .json, allowNull := true }] }

/-- Access to the notes. -/
def onNotes : Repository :=
  { registry := [("Note", note)], model := note }

/-- The writer of a note in lower case. -/
def lowered : Value :=
  (Expr.call "lower" [.attribute [] "by"]).operand

/-- The notes of a writer that are tagged with the name of the writer in lower case. -/
def taggedBy (writer : String) : Query where
  registry := onNotes.registry
  model := note
  descriptor :=
    { selection := { model := "Note", conditions := [⟨[("by", .str writer), ("tag", lowered)]⟩] } }

/-- A note without a tag. -/
def untagged : Record :=
  [("by", .str "ada"), ("id", .ofInt 1), ("tag", .null)]

/-- A note of ada. -/
def notes : Engine :=
  Command.run [.create note [("by", .str "ada")] {}] (Engine.ofRegistry onNotes.registry)

/-- A note of bob that is tagged with the call. -/
def byBob (id : Int) : Row where
  model := note
  data := [("by", .str "bob"), ("id", .ofInt id), ("tag", lowered)]

/-- There is a note of ada, so the reader gets as far as the call only for a note of hers. A note
of bob is created with the call for a tag. -/
theorem copied_compared_iff_bob :
    let filter := (taggedBy "bob").descriptor.selection.filter
    (onNotes.findOrCreate (taggedBy "bob") {} {} notes).1 = .ok (byBob 2, true) ∧
      ComparesLiteral "by" (.str "bob") ∧ ("tag", lowered) ∈ literals filter ∧
      ∃ entry ∈ filter, entry.1 < "tag" ∧ matchesEntry untagged entry.1 entry.2 = .ok false := by
  intro filter
  have answer : (onNotes.findOrCreate (taggedBy "bob") {} {} notes).1 = .ok (byBob 2, true) :=
    congrArg Prod.fst (findOrCreate_found (.ok []) rfl
      ((Engine.findAll_unsorted rfl rfl rfl rfl rfl).trans rfl))
  have registered : notes.registry.get? onNotes.model.name = some onNotes.model := rfl
  have writer : ("by", .str "bob") ∈ literals filter := List.mem_cons_self
  have call : ("tag", lowered) ∈ filter := List.mem_cons_of_mem _ List.mem_cons_self
  have live : untagged ∈ (notes.database.openTable "Note").liveRecords := List.mem_cons_self
  obtain ⟨compared, -, calls, creates⟩ := copied_compared_iff (taggedBy "bob")
  obtain ⟨-, refused⟩ := creates onNotes {} {} notes _ _ registered (Prod.ext answer rfl)
  have copied := calls "tag" "lower" [.attribute [] "by"] call (by decide)
  exact ⟨answer, (compared _ _ writer).mpr rfl, copied,
    refused "tag" "lower" [.attribute [] "by"] copied untagged live⟩

/-- The first note is tagged with the call itself, which no reader compares as it stands, and
which none can get past from then on. -/
theorem copied_call_stored :
    let run := onNotes.findOrCreate (taggedBy "bob") {} {} (Engine.ofRegistry onNotes.registry)
    run.1 = .ok (byBob 1, true) ∧
      ¬ ComparesLiteral "tag" lowered ∧
      (onNotes.findOrCreate (taggedBy "bob") {} {} run.2).1 =
        .error (.storage (.unsupported .call)) := by
  refine ⟨rfl, ?_, rfl⟩
  exact not_comparesLiteral_of_reference (by decide) rfl

end Tags

end Repository

end RecordGraph
