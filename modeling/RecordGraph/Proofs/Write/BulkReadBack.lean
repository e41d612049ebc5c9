import RecordGraph.Proofs.Store.Lookups
import RecordGraph.Proofs.Write.ReadBack

/-!
# What is created in bulk is found by its key

A bulk creation stores all rows first. Then it takes them one after the other: it writes the
related rows that are supplied for a row, and reads the row again. So each row is answered as
its table has it at that time. What is written for the rows after it may take related rows from
it, and nothing reads it again. The answer is found on the store in the end if none of the rows
that are written then has, before or after, one of the keys that are looked for when the answer
is read.
-/

namespace RecordGraph

section Steps

variable {σ α β : Type} {f : α → Run σ β} {items : List α} {answers : List β} {a : α} {b : β}
variable {s s₁ s' : σ} {i : Nat}

/-- The rest of a list of runs goes on from where the first one ends. -/
theorem Run.mapM_cons_left (rest : List α) (first : f a s = (.ok b, s₁)) :
    ((a :: rest).mapM f s).2 = (rest.mapM f s₁).2 := by
  rw [List.mapM_cons, Action.bind_run_ok first, Action.bind_leaves fun _ _ => rfl]

/-- Each answer of a list of runs is that of the run at its place, from where those before it
have ended. -/
theorem Run.exists_step_of_mapM (done : items.mapM f s = (.ok answers, s'))
    (answered : answers[i]? = some b) :
    ∃ a, items[i]? = some a ∧
      f a ((items.take i).mapM f s).2 = (.ok b, ((items.take (i + 1)).mapM f s).2) ∧
      ((items.drop (i + 1)).mapM f ((items.take (i + 1)).mapM f s).2).2 = s' := by
  induction items generalizing s answers i with
  | nil =>
      cases done
      cases answered
  | cons a rest ih =>
      rw [List.mapM_cons] at done
      obtain ⟨b₀, s₁, first, done⟩ := Action.bind_ok done
      obtain ⟨others, s₂, later, done⟩ := Action.bind_ok done
      cases done
      cases i with
      | zero =>
          cases answered
          refine ⟨a, rfl, ?_, ?_⟩
          · rw [List.take_succ_cons, mapM_cons_left _ first]
            exact first
          · rw [List.take_succ_cons, mapM_cons_left _ first]
            exact congrArg Prod.snd later
      | succ i =>
          obtain ⟨a', place, step, remaining⟩ := ih later answered
          refine ⟨a', place, ?_, ?_⟩
          · rw [List.take_succ_cons, List.take_succ_cons, mapM_cons_left _ first,
              mapM_cons_left _ first]
            exact step
          · rw [List.take_succ_cons, mapM_cons_left _ first]
            exact remaining

end Steps

namespace Table

variable {m : Model} {validate : Bool} {inputs records : List Record} {t t' : Table}

/-- Rows that are added together are put behind all others in their order. -/
theorem insertAll_ok (done : t.insertAll m validate inputs = .ok (records, t')) :
    t'.rows = t.rows ++ records.map fun data => ({ data } : StoredRow) := by
  induction inputs generalizing t records with
  | nil =>
      cases done
      exact (List.append_nil _).symm
  | cons data rest ih =>
      obtain ⟨⟨record, next⟩, first, done⟩ := bind_eq_ok_iff.mp done
      obtain ⟨⟨others, last⟩, remaining, done⟩ := bind_eq_ok_iff.mp done
      cases done
      obtain ⟨-, -, appended⟩ := Table.insert_ok first
      rw [ih remaining, appended, List.append_assoc]
      rfl

/-- Only one row has the key of one of them. -/
theorem soleKey_insertAll {pk : String} {key : Value} {record : Record}
    (keyed : Loading.primaryKey m = .ok pk) (nonnull : key ≠ .null)
    (done : t.insertAll m validate inputs = .ok (records, t')) (among : record ∈ records)
    (found : record.get? pk = some key) : SoleKey pk key (t'.rows.map (·.data)) := by
  induction inputs generalizing t records with
  | nil =>
      cases done
      cases among
  | cons data rest ih =>
      obtain ⟨⟨new, next⟩, first, done⟩ := bind_eq_ok_iff.mp done
      obtain ⟨⟨others, last⟩, remaining, done⟩ := bind_eq_ok_iff.mp done
      cases done
      rcases List.mem_cons.mp among with rfl | later
      · exact (Step.insertedAll remaining).soleKey keyed (soleKey_insert keyed found nonnull first)
      · exact ih remaining later

end Table

/-- Rows that are created together are handed out as live rows of their model, and no other row
has the key of one of them. -/
theorem Engine.bulkCreate_ok {m : Model} {inputs : List Record} {request : Request.Write}
    {rows : List Row} {e e' : Engine} (registered : e.registry.get? m.name = some m)
    (created : Engine.bulkCreate m inputs request e = (.ok rows, e')) :
    ∀ row ∈ rows, row = { model := m, data := row.data } ∧
      row.data ∈ (e'.database.openTable m.name).liveRecords ∧
      ∀ pk key, Loading.primaryKey m = .ok pk → Value.present? (row.get? pk) = some key →
        SoleKey pk key ((e'.database.openTable m.name).rows.map (·.data)) := by
  obtain ⟨records, e₁, stored, handed⟩ := Action.bind_ok created
  obtain ⟨t, inserted, rfl⟩ := Engine.onTable_ok_iff.mp stored
  have known : (e.setTable m.name t).registry.get? m.name = some m := registered
  rw [Action.mapM_run (Engine.handOut_run known) records] at handed
  cases handed
  intro row member
  obtain ⟨data, among, rfl⟩ := List.mem_map.mp member
  rw [Engine.setTable, Database.openTable_setTable_self]
  refine ⟨rfl, ?_, fun pk key keyed present => ?_⟩
  · rw [Table.mem_liveRecords_iff, Table.insertAll_ok inserted]
    exact ⟨{ data }, List.mem_append_right _ (List.mem_map_of_mem among), rfl, rfl⟩
  · obtain ⟨found, nonnull⟩ := Value.present?_eq_some_iff.mp present
    exact Table.soleKey_insertAll keyed nonnull inserted among found

theorem Cascade.Sound.bulkCreate {r : Registry} {e : Engine} (sound : Cascade.Sound r e) (m : Model)
    (inputs : List Record) (request : Request.Write) :
    Cascade.Sound r (Engine.bulkCreate m inputs request e).2 := by
  rw [Engine.bulkCreate, Action.bind_leaves (Action.mapM_leaves (Engine.handOut_leaves m))]
  refine ⟨Engine.onTable_registry.trans sound.1, sound.2.onTable ?_⟩
  exact fun t records t' ordered done => ordered.insertAll done

/-- Nothing is performed on a walk for which nothing is supplied. -/
theorem Cascade.Site.not_performs_of_idle {r : Registry} {options : PersistOptions}
    {site : Cascade.Site Engine} {c : Command} {e : Engine} (idle : site.draft.associations = []) :
    ¬ site.Performs r options c e := by
  have unstopped {stop : Cascade.Stop} {items : List Item} {s : Engine} :
      ¬ site.Stops r options stop items s := by
    rintro ⟨-, -, given, -⟩
    rw [idle] at given
    cases given
  rintro (⟨⟨stops, -⟩, -⟩ | ⟨stops, -⟩ | ⟨⟨stops, -⟩, -⟩) <;> exact unstopped stops

namespace Repository

variable {repo : Repository} {q : Query} {drafts : List Draft} {options : PersistOptions}
variable {e e' : Engine} {rows : List Row} {row : Row} {pk : String} {key : Value} {i : Nat}

/-- The store when a bulk creation has stored all its rows and has written the related rows of
the first ones of them. -/
def createdUpTo (repo : Repository) (q : Query) (drafts : List Draft) (options : PersistOptions)
    (n : Nat) (e : Engine) : Engine :=
  Prod.snd <| (do
    let rows ← repo.ask <|
      Backend.bulkCreate repo.model (drafts.map (·.fields)) options.toWrite
    ((rows.zip drafts).take n).mapM fun (row, draft) => repo.cascade q draft .create options row :
      Run Engine (List Row)) e

/-- A command is performed while a bulk creation writes the related rows of one of the rows behind
a place. -/
inductive PerformsAfter (repo : Repository) (q : Query) (drafts : List Draft)
    (options : PersistOptions) (e : Engine) (i : Nat) : Command → Engine → Prop where
  | intro {stored : List Row} {row : Row} {draft : Draft} {c : Command} {e₁ s s' : Engine}
      (created : Engine.bulkCreate repo.model (drafts.map (·.fields)) options.toWrite e =
        (.ok stored, e₁))
      (turn : Cascade.Turn
        (fun supplied : Row × Draft => repo.cascade q supplied.2 .create options supplied.1)
        ((stored.zip drafts).drop (i + 1)) (repo.createdUpTo q drafts options (i + 1) e)
        (row, draft) s)
      (performs : Cascade.Site.Performs repo.registry options
        ⟨repo.model, draft, .create, q.descriptor.includes, row, s⟩ c s') :
      PerformsAfter repo q drafts options e i c s'

/-- Nothing is if nothing is supplied for these rows, so nothing is behind the last row. -/
theorem not_performsAfter_of_idle {c : Command}
    (idle : ∀ draft ∈ drafts.drop (i + 1), draft.associations = []) :
    ¬ repo.PerformsAfter q drafts options e i c e' := by
  rintro ⟨-, turn, performs⟩
  have member := turn.mem
  rw [List.zip, List.drop_zipWith] at member
  exact Cascade.Site.not_performs_of_idle (idle _ (List.of_mem_zip member).2) performs

/-- To find a row by its key with some includes, keys are looked for in a column of a table. -/
inductive LooksFor (repo : Repository) (e : Engine) (includes : List Include) (pk : String)
    (key : Value) (row : Row) : String → String → List Value → Prop where
  | row : LooksFor repo e includes pk key row repo.model.name pk [key]
  | related {name column : String} {keys : List Value}
      (looks : Loading.LooksFor repo.registry e.database repo.model row.data
        (Include.toRequests includes) name column keys) :
      LooksFor repo e includes pk key row name column keys

/-- A row stays as its table has it if the records stay the same that are looked for. -/
theorem Current.transport {includes : List Include} (current : repo.Current e includes row)
    (serves : repo.Serves e pk) (serves' : repo.Serves e' pk) (models : repo.registry.Keyed)
    (known : row.get? pk = some key)
    (same : ∀ name column keys, repo.LooksFor e includes pk key row name column keys →
      (e.database.openTable name).SameWhere column keys (e'.database.openTable name)) :
    repo.Current e' includes row where
  model := current.model
  old := current.old
  live := by
    have holds : Linking.holdsAny row.data pk [key] = true := holdsAny_self known
    have found : row.data ∈ (e.database.openTable repo.model.name).liveRecords.filter
        (Linking.holdsAny · pk [key]) := List.mem_filter.mpr ⟨current.live, holds⟩
    rw [← same _ _ _ .row] at found
    exact (List.mem_filter.mp found).1
  loaded := by
    have along := Loading.sameAlong_of_looksFor models (Include.toRequests includes) repo.model
      row.data ⟨pk, serves.primaryKey⟩ fun name column keys looks => same _ _ _ (.related looks)
    rw [serves'.registry, Loading.related_same _ _ _ _ _ along, ← serves.registry]
    exact current.loaded

/-- Where no related rows are asked for, none are written. -/
theorem leaves_cascade {draft : Draft} (mode : WriteMode) (row : Row)
    (none : q.descriptor.includes = []) :
    Leaves (repo.cascade q draft mode options row : Run Engine Row) := by
  intro e
  rw [cascade, none]
  split <;> rfl

/-- Writing the related rows of a stored row leaves the records as they are that have some keys, if
no command that is performed touches them. -/
theorem sameWhere_cascade {draft : Draft} {mode : WriteMode} {name column : String}
    {keys : List Value} (named : repo.registry.Named) (stored : repo.Stored e row)
    (fits : draft.Fits repo.registry repo.model)
    (apart : ∀ c s, Cascade.Site.Performs repo.registry options
      ⟨repo.model, draft, mode, q.descriptor.includes, row, e⟩ c s →
        ¬ c.Touches s name column keys) :
    (e.database.openTable name).SameWhere column keys
      ((repo.cascade q draft mode options row e).2.database.openTable name) := by
  rw [cascade]
  split
  · let site : Cascade.Site Engine := ⟨repo.model, draft, mode, q.descriptor.includes, row, e⟩
    refine site.holds_walk
      (J := fun s => (e.database.openTable name).SameWhere column keys (s.database.openTable name))
      (fun c s performs same => ?_) rfl
    obtain ⟨asked, -⟩ := performs.asked (stored.fits fits mode q.descriptor.includes) named
    obtain ⟨other, on, -⟩ := asked.exists_row
    exact (Command.sameWhere_perform on (apart c s performs)).trans same
  · rfl

/-- What holds of the store while a bulk creation writes the related rows of its rows: it is sound,
the rows were just stored, no two rows have the key of one of them, and nothing is written if no
related rows are asked for. -/
structure Keeps (repo : Repository) (q : Query) (pk : String) (made : List Row) (e₁ e : Engine) :
    Prop where
  sound : Cascade.Sound repo.registry e
  stored : ∀ row ∈ made, row = { model := repo.model, data := row.data } ∧ row.data.Ascending
  sole : ∀ row ∈ made, ∀ w, Value.present? (row.get? pk) = some w →
    SoleKey pk w ((e.database.openTable repo.model.name).rows.map (·.data))
  idle : q.descriptor.includes = [] → e = e₁

/-- Rows that were just created together are live rows of such a store. -/
theorem keeps_of_bulkCreate {inputs : List Record} {request : Request.Write} {made : List Row}
    {e₁ : Engine} (serves : repo.Serves e pk) (ordered : e.Ordered)
    (created : Engine.bulkCreate repo.model inputs request e = (.ok made, e₁)) :
    repo.Keeps q pk made e₁ e₁ ∧
      ∀ row ∈ made, row.data ∈ (e₁.database.openTable repo.model.name).liveRecords := by
  have each := Engine.bulkCreate_ok (serves.registry ▸ serves.registered) created
  have sound := Cascade.Sound.bulkCreate ⟨serves.registry, ordered⟩ repo.model inputs request
  rw [created] at sound
  refine ⟨⟨sound, fun row member => ?_, fun row member w => ?_, fun _ => rfl⟩,
    fun row member => (each row member).2.1⟩
  · obtain ⟨whole, live, -⟩ := each row member
    obtain ⟨stored, among, _, same⟩ := Table.mem_liveRecords_iff.mp live
    exact ⟨whole, same ▸ sound.2.current _ stored among⟩
  · exact (each row member).2.2 pk w serves.primaryKey

section Keeps

variable {made : List Row} {supplied : List (Row × Draft)} {e₁ : Engine} {name column : String}
variable {keys : List Value} (keeps : repo.Keeps q pk made e₁ e)
include keeps

theorem Keeps.serves (serves : repo.Serves e' pk) : repo.Serves e pk :=
  ⟨keeps.sound.1, serves.registered, serves.keyed⟩

theorem Keeps.stored_of_mem (among : row ∈ made) : repo.Stored e row :=
  ⟨keeps.sound, (keeps.stored row among).1, (keeps.stored row among).2⟩

/-- A row that the table has as it is is found by its key if it has that of one of them. -/
theorem Keeps.findById {first : Row} {w : Value} (serves : repo.Serves e' pk)
    (current : repo.Current e q.descriptor.includes row)
    (optional : ∀ i ∈ q.descriptor.includes, i.edge.required = false)
    (known : row.get? pk = some key) (scalar : key.IsScalar)
    (unreserved : Filter.isReserved pk = false) (among : first ∈ made)
    (present : Value.present? (first.get? pk) = some w) (same : key.same w = true) :
    repo.findById (repo.everything q.descriptor.includes) key e = (.ok (some row), e) := by
  refine current.findById (keeps.serves serves) unreserved optional known scalar (w := w)
    ⟨⟨key, known, same⟩, ?_⟩
  rw [current.model]
  exact keeps.sole first among w present

variable (serves : repo.Serves e' pk) (named : repo.registry.Named)
variable (spare : Include.Spare repo.registry repo.model q.descriptor.includes repo.model.name pk)
include serves named spare

/-- Writing the related rows of one of the rows keeps this. -/
theorem Keeps.cascade {draft : Draft} (fits : draft.Fits repo.registry repo.model)
    (among : row ∈ made) :
    repo.Keeps q pk made e₁ (repo.cascade q draft .create options row e).2 where
  sound := (Cascade.upkeep_sound _).cascade repo q draft .create row e keeps.sound
  stored := keeps.stored
  sole other member w present := soleKey_cascade (keeps.serves serves) named
    (keeps.stored_of_mem among) fits spare rfl (keeps.sole other member w present)
  idle none := (leaves_cascade .create row none e).trans (keeps.idle none)

/-- So does writing those of several ones. -/
theorem Keeps.mapM
    (fits : ∀ entry ∈ supplied, entry.1 ∈ made ∧ entry.2.Fits repo.registry repo.model) :
    repo.Keeps q pk made e₁
      (supplied.mapM (fun (row, draft) => repo.cascade q draft .create options row) e).2 :=
  Upholds.mapM_of_mem (J := repo.Keeps q pk made e₁) (fun entry member _ keeps =>
    keeps.cascade serves named spare (fits entry member).2 (fits entry member).1) e keeps

/-- It leaves the records as they are that have some keys, if no command that is performed for one
of the rows touches them. -/
theorem Keeps.sameWhere_mapM
    (fits : ∀ entry ∈ supplied, entry.1 ∈ made ∧ entry.2.Fits repo.registry repo.model)
    (apart : ∀ row draft s, Cascade.Turn
      (fun supplied : Row × Draft => repo.cascade q supplied.2 .create options supplied.1)
      supplied e (row, draft) s →
        ∀ c s', Cascade.Site.Performs repo.registry options
          ⟨repo.model, draft, .create, q.descriptor.includes, row, s⟩ c s' →
            ¬ c.Touches s' name column keys) :
    (e.database.openTable name).SameWhere column keys
      ((supplied.mapM (fun (row, draft) => repo.cascade q draft .create options row)
        e).2.database.openTable name) := by
  let Unchanged (s : Engine) : Prop := repo.Keeps q pk made e₁ s ∧
    (e.database.openTable name).SameWhere column keys (s.database.openTable name)
  suffices unchanged : Unchanged (supplied.mapM
      (fun supplied => repo.cascade q supplied.2 .create options supplied.1) e).2 from unchanged.2
  refine Cascade.holds_mapM (J := Unchanged) (fun entry s turn holds => ?_) ⟨keeps, rfl⟩
  obtain ⟨keeps, same⟩ := holds
  obtain ⟨among, entryFits⟩ := fits entry turn.mem
  refine ⟨keeps.cascade serves named spare entryFits among, ?_⟩
  exact (sameWhere_cascade named (keeps.stored_of_mem among) entryFits
    (apart entry.1 entry.2 s turn)).trans same

end Keeps

/-- Each row that a bulk creation answers is found by its key, along the same includes, on the
store as it was when the related rows of that row had been written. It is found on the store in
the end if nothing that is written for the rows after it touches what is looked for then. For
either the name of the key must not be reserved, rows which are supplied whole must be rows of the
targets, and no row may be connected through the column of the key. -/
theorem bulkCreate_findById (serves : repo.Serves e pk) (named : repo.registry.Named)
    (models : repo.registry.Keyed) (ordered : e.Ordered)
    (fits : ∀ draft ∈ drafts, draft.Fits repo.registry repo.model)
    (associate : options.associate = true)
    (optional : ∀ i ∈ q.descriptor.includes, i.edge.required = false)
    (spare : Include.Spare repo.registry repo.model q.descriptor.includes repo.model.name pk)
    (created : repo.bulkCreate q drafts options e = (.ok rows, e'))
    (answered : rows[i]? = some row) (known : row.get? pk = some key) (scalar : key.IsScalar)
    (unreserved : Filter.isReserved pk = false) :
    let meanwhile := repo.createdUpTo q drafts options (i + 1) e
    repo.findById (repo.everything q.descriptor.includes) key meanwhile =
        (.ok (some row), meanwhile) ∧
      ((∀ c s, repo.PerformsAfter q drafts options e i c s → ∀ name column keys,
          repo.LooksFor meanwhile q.descriptor.includes pk key row name column keys →
            ¬ c.Touches s name column keys) →
        repo.findById (repo.everything q.descriptor.includes) key e' = (.ok (some row), e')) := by
  intro meanwhile
  obtain ⟨made, e₁, asked, walked⟩ := Action.bind_ok created
  have inserted := Run.ofAction_ok_iff.mp asked
  obtain ⟨start, live⟩ := keeps_of_bulkCreate (q := q) serves ordered inserted
  obtain ⟨⟨first, draft⟩, place, step, remaining⟩ := Run.exists_step_of_mapM walked answered
  have each (entry : Row × Draft) (member : entry ∈ made.zip drafts) :
      entry.1 ∈ made ∧ entry.2.Fits repo.registry repo.model :=
    ⟨(List.of_mem_zip member).1, fits _ (List.of_mem_zip member).2⟩
  have stage (n : Nat) : repo.createdUpTo q drafts options n e =
      (((made.zip drafts).take n).mapM
        (fun (row, draft) => repo.cascade q draft .create options row) e₁).2 := by
    rw [createdUpTo, Action.bind_run_ok asked]
  have kept (n : Nat) : repo.Keeps q pk made e₁ (repo.createdUpTo q drafts options n e) := by
    rw [stage]
    exact start.mapM serves named spare fun entry member => each entry (List.mem_of_mem_take member)
  rw [← stage, ← stage] at step
  rw [← stage] at remaining
  -- the row is as its table has it right after its own related rows have been written
  have among := (each _ (List.mem_of_getElem? place)).1
  obtain ⟨current, w, present, same⟩ := current_of_cascade ((kept i).serves serves) associate
    ((kept i).stored_of_mem among) spare (fun none => ((kept i).idle none).symm ▸ live _ among)
    step known scalar.nonnull
  refine ⟨(kept (i + 1)).findById serves current optional known scalar unreserved among present
    same, fun apart => ?_⟩
  -- and it stays so while those of the rows after it are written
  have rest (entry : Row × Draft) (member : entry ∈ (made.zip drafts).drop (i + 1)) :=
    each entry (List.mem_of_mem_drop member)
  have last : repo.Keeps q pk made e₁ e' := by
    rw [← remaining]
    exact (kept (i + 1)).mapM serves named spare rest
  refine last.findById serves ?_ optional known scalar unreserved among present same
  refine current.transport ((kept (i + 1)).serves serves) (last.serves serves) models known ?_
  intro name column keys looks
  rw [← remaining]
  refine (kept (i + 1)).sameWhere_mapM serves named spare rest
    fun row draft s turn c s' performs => ?_
  exact apart c s' (.intro inserted turn performs) name column keys looks

section Examples

open Linking (author book books library)

/-- An author with one book that has its key, as stored. -/
def authorOfOne (id bookId : Int) : Row :=
  { model := author
    data := [("id", .ofInt id)]
    related := [("books", .many
      [{ model := book, data := [("authorId", .ofInt id), ("id", .ofInt bookId)] }])] }

/-- A new author with a new book. -/
def withNewBook : Draft :=
  { associations := [("books", .many [.record []])] }

/-- Creating two authors with a new book each in an empty library. -/
def createAuthorsOfOne : Except Failure (List Row) × Engine :=
  onAuthors.bulkCreate authorsWithBooks [withNewBook, withNewBook] {} (Engine.ofRegistry library)

theorem keyed_library : library.Keyed :=
  (Registry.keyed_nil.register (m := author) rfl).register (m := book) rfl

/-- The store when the book of the first author has been written. -/
def oneBookWritten : Engine :=
  onAuthors.createdUpTo authorsWithBooks [withNewBook, withNewBook] {} 1 (Engine.ofRegistry library)

/-- The second author as it is stored. -/
def secondAuthor : Row :=
  { model := author, data := [("id", .ofInt 2)] }

/-- The place of the books in the walk of the second author. -/
def secondBooks : Cascade.Stop where
  asked := .plain { target := "Book", label := "books" }
  association := books
  target := book
  column := "authorId"
  pk := "id"
  source := secondAuthor
  mode := .create

/-- The walk of the second author. -/
def secondSite : Cascade.Site Engine :=
  ⟨author, withNewBook, .create, authorsWithBooks.descriptor.includes, secondAuthor,
    oneBookWritten⟩

/-- It stops at the books only. -/
theorem stops_secondSite {stop : Cascade.Stop} {items : List Item} {s : Engine}
    (stops : secondSite.Stops library {} stop items s) :
    stop = secondBooks ∧ items = [.record []] ∧ s = oneBookWritten := by
  obtain ⟨keyed, arrives, given, association, registered, -⟩ := stops
  obtain rfl := List.mem_singleton.mp arrives.mem
  cases arrives with
  | first =>
      cases keyed
      cases given
      cases association
      cases registered
      exact ⟨rfl, rfl, rfl⟩
  | later _ elsewhere => cases elsewhere

/-- There it stores a new book, which it connects the author with. -/
theorem performs_secondSite {c : Command} {s : Engine}
    (performs : secondSite.Performs library {} c s) :
    (∃ row validate, c = .save row validate ∧ s = oneBookWritten ∧
      row = { model := book, data := [("authorId", .ofInt 2)], isNew := true }) ∨
    ∃ rows, [Item.record []].mapM (secondBooks.make library {}) oneBookWritten = (.ok rows, s) ∧
      c = .setAssociation secondAuthor "books" (.ofList true rows) := by
  have writes {visit : Cascade.Visit Engine} {row : Row} {record : Record} {s : Engine}
      (supplies : secondSite.Supplies library {} visit) (writes : visit.Writes row record s) :
      s = oneBookWritten ∧ record = [("authorId", .ofInt 2)] ∧ visit.target = book ∧
        row = { model := book, data := [("authorId", .ofInt 2)], isNew := true } := by
    obtain ⟨stops, turn⟩ := supplies
    obtain ⟨rfl, rfl, rfl⟩ := stops_secondSite stops
    cases turn with
    | first =>
        obtain ⟨keyed, made, -⟩ := writes
        cases keyed
        cases made
        exact ⟨rfl, rfl, rfl, rfl⟩
    | later _ turn => cases turn
  cases performs with
  | saving supplies written =>
      obtain ⟨rfl, -, -, rfl⟩ := writes supplies written
      exact .inl ⟨_, _, rfl, rfl, rfl⟩
  | connecting stops made =>
      obtain ⟨rfl, rfl, rfl⟩ := stops_secondSite stops
      exact .inr ⟨_, made, rfl⟩
  | down supplies descends =>
      obtain ⟨written, -, more⟩ := descends
      obtain ⟨-, rfl, target, -⟩ := writes supplies written
      rw [target] at more
      cases more

/-- So it writes books of the second author only. -/
theorem rewrites_secondSite {c : Command} {s : Engine} {name : String}
    {before after : Option StoredRow} {row : StoredRow}
    (performs : secondSite.Performs library {} c s) (written : c.Rewrites s name before after)
    (about : before = some row ∨ after = some row) :
    name = "Book" ∧ row.data.get? "authorId" = some (.ofInt 2) := by
  rcases performs_secondSite performs with ⟨_, _, rfl, rfl, rfl⟩ | ⟨rows, made, rfl⟩
  · cases written with
    | added =>
        rcases about with none | new
        · cases none
        · cases new
          exact ⟨rfl, rfl⟩
    | overwritten old => cases old
  · cases made
    cases written with
    | held ends kind | unpaired ends kind | paired ends kind =>
        cases ends.association
        cases kind
    | pointed ends kind source among about' =>
        cases ends.association
        cases ends.registered
        cases ends.primaryKey
        cases ends.keys
        cases source
        have among : _ ∈ [StoredRow.mk [("authorId", .ofInt 1), ("id", .ofInt 1)] false,
          ⟨[("authorId", .ofInt 2), ("id", .ofInt 2)], false⟩] := among
        rcases List.mem_pair.mp among with rfl | rfl
        · exact absurd about' (by decide)
        · rcases about with old | new
          · cases old
            exact ⟨rfl, rfl⟩
          · cases new
            exact ⟨rfl, rfl⟩

/-- It is all that is performed after the first author. -/
theorem performs_of_performsAfter {c : Command} {s : Engine}
    (performs : onAuthors.PerformsAfter authorsWithBooks [withNewBook, withNewBook] {}
      (Engine.ofRegistry library) 0 c s) : secondSite.Performs library {} c s := by
  obtain ⟨created, turn, performs⟩ := performs
  cases created
  cases turn with
  | first => exact performs
  | later _ turn => cases turn

/-- To find the first author with its books, its key is looked for among the authors and in the
column of the books. -/
theorem looksFor_firstAuthor {name column : String} {keys : List Value}
    (looks : onAuthors.LooksFor oneBookWritten authorsWithBooks.descriptor.includes "id"
      (.ofInt 1) (authorOfOne 1 1) name column keys) :
    keys = [.ofInt 1] ∧
      (name = "Author" ∧ column = "id" ∨ name = "Book" ∧ column = "authorId") := by
  cases looks with
  | row => exact ⟨rfl, .inl ⟨rfl, rfl⟩⟩
  | related looks =>
      cases looks with
      | here asked association registered seeks =>
          obtain rfl := List.mem_singleton.mp asked
          cases association
          cases registered
          cases seeks with
          | held kind | pairs kind | partners kind => cases kind
          | pointed _ keyed own =>
              cases keyed
              cases own
              exact ⟨rfl, .inr ⟨rfl, rfl⟩⟩
      | down asked _ rest =>
          obtain rfl := List.mem_singleton.mp asked
          cases rest with
          | here asked | down asked => cases asked

/-- The second author does not disturb the first one, which is found with its book. -/
theorem bulkCreate_findById_books :
    createAuthorsOfOne.1 = .ok [authorOfOne 1 1, authorOfOne 2 2] ∧
      onAuthors.findById authorsWithBooks (.ofInt 1) createAuthorsOfOne.2 =
        (.ok (some (authorOfOne 1 1)), createAuthorsOfOne.2) := by
  have answer : createAuthorsOfOne.1 = .ok [authorOfOne 1 1, authorOfOne 2 2] := rfl
  have created : createAuthorsOfOne =
      (.ok [authorOfOne 1 1, authorOfOne 2 2], createAuthorsOfOne.2) := Prod.ext answer rfl
  have serves : onAuthors.Serves (Engine.ofRegistry library) "id" := ⟨rfl, rfl, rfl⟩
  have optional : ∀ i ∈ authorsWithBooks.descriptor.includes, i.edge.required = false :=
    List.forall_mem_singleton.mpr rfl
  have fits : ∀ draft ∈ [withNewBook, withNewBook], draft.Fits library author := by
    have one : withNewBook.Fits library author := fits_of_single (by simp [Linked.toList])
    exact List.forall_mem_cons.mpr ⟨one, List.forall_mem_singleton.mpr one⟩
  have known : (authorOfOne 1 1).get? "id" = some (.ofInt 1) := rfl
  have found := (bulkCreate_findById (q := authorsWithBooks) (i := 0) serves named_library
    keyed_library (Engine.ordered_ofRegistry library) fits rfl optional spare_authors created rfl
    known trivial (by decide)).2 ?_
  · exact ⟨answer, found⟩
  · intro c s performs name column keys looks touches
    obtain ⟨rfl, place⟩ := looksFor_firstAuthor looks
    obtain ⟨before, after, row, written, about, holds⟩ := touches
    obtain ⟨rfl, known⟩ :=
      rewrites_secondSite (performs_of_performsAfter performs) written about
    obtain ⟨other, -⟩ | ⟨-, rfl⟩ := place
    · exact absurd other (by decide)
    · rw [Linking.holdsAny, known] at holds
      exact absurd holds (by decide)

/-- A library with one book, which has no author. -/
def oneBook : Engine :=
  Command.run [.create book [] {}] (Engine.ofRegistry library)

/-- A new author that claims the book. -/
def withThatBook : Draft :=
  { associations := [("books", .many [.key (.ofInt 1)])] }

/-- Where two new authors claim the same book, the first one is answered with it, but is found
without it. A row whose key has a reserved name is created, but not found by its key. Neither is
a row whose new lid gives its key to another row, nor one that gets a row of no known model in
place of a lid, which is stored in its table with its key. -/
theorem bulkCreate_findById_differs :
    (let drafts := [withThatBook, withThatBook]
      let run := onAuthors.bulkCreate authorsWithBooks drafts {} oneBook
      run.1 = .ok [authorOfOne 1 1, authorOfOne 2 1] ∧
        (onAuthors.findById authorsWithBooks (.ofInt 1) run.2).1 =
          .ok (some { authorOfOne 1 1 with related := [("books", .many [])] })) ∧
    (let q := onGuests.everything []
      let run := onGuests.bulkCreate q [{ fields := [("name", .str "ada")] }] {}
        (Engine.ofRegistry onGuests.registry)
      run.1.map (·.map (·.data)) = .ok [[("$id", .ofInt 1), ("name", .str "ada")]] ∧
        (onGuests.findById q (.ofInt 1) run.2).1 =
          .error (.storage (.unsupported (.joinedKey "$id")))) ∧
    (let draft : Draft :=
        { fields := [("boxId", .ofInt 1)]
          associations :=
            [("lid", .one (.record [("sharing", .arr [.ofInt 1, .ofInt 2])]))] }
      let run := onItems.bulkCreate withLidAndBox [draft] {} stocked
      run.1.map (·.map (·.data)) = .ok [[("boxId", .null), ("id", .ofInt 2)]] ∧
        (onItems.findById withLidAndBox (.ofInt 2) run.2).1 =
          .error (.storage (.unsupported (.operator .overlap)))) ∧
    (let draft : Draft := { associations := [("lid", .one (.row copiedItem))] }
      let run := onItems.bulkCreate withLidAndBox [draft] {} stocked
      run.1.map (·.map (·.data)) = .ok [[("boxId", .null), ("id", .ofInt 2)]] ∧
        (onItems.findById withLidAndBox (.ofInt 2) run.2).1 =
          .error (.storage (.unsupported (.operator .overlap)))) :=
  ⟨⟨rfl, congrArg Prod.fst (findById_found [_] rfl rfl
    ((Engine.findAll_unsorted rfl rfl rfl rfl rfl).trans rfl))⟩, ⟨rfl, rfl⟩, ⟨rfl, rfl⟩, rfl, rfl⟩

end Examples

end Repository

end RecordGraph
