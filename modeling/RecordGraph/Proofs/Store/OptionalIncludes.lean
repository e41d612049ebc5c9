import Mathlib.Data.List.Permutation
import RecordGraph.Proofs.Store.Ordering
import RecordGraph.Proofs.Store.Selecting

/-!
# Optional includes and projections

A request filters, sorts and pages records; includes and the projection shape the rows that it
answers. An optional include leaves every record in, whatever it loads and whatever is required
below it, so a request selects the same without its includes. A required include drops the records
for which it loads nothing, and no others. Dropping a record before the sort or after it comes to
the same if the records are ordered by the columns to sort by; values that cannot be compared count
as equal, and with those in a column the records that are left may trade places.
-/

namespace RecordGraph

/-- An include without which its row is dropped. -/
def Request.Include.demanded : Include → Include
  | .leaf head => .leaf { head with required := true }
  | .node head children => .node { head with required := true } children

/-- A row in the shape of a projection. -/
def Row.shape (attributes : Option (List Request.Projection)) (row : Row) :
    Except StorageError Row := do
  let data ← Result.project row.data attributes
  pure { row with data }

namespace Loading

variable {r : Registry} {d : Database} {source target : Model} {data : Record}
variable {request : Request.Find} {records : List Record}
variable {found : List (Record × Dict (Linked Row))} {filed all : Dict (Linked Row)}
variable {i : Request.Include} {before after : List Request.Include}

/-- An include loads a row for a record of a model. -/
def finds (r : Registry) (d : Database) (source : Model) (i : Request.Include) (data : Record) :
    Bool :=
  match one r d source data i with
  | .ok (_, loaded) => !loaded.isEmpty
  | .error _ => false

/-- A record with its related rows as a row. -/
def wholeRow (source : Model) (entry : Record × Dict (Linked Row)) : Row :=
  { model := source, data := entry.1, related := entry.2 }

/-! ### One record -/

/-- What an include loads is the same whether it is required or not. -/
theorem one_demanded (data : Record) (i : Request.Include) :
    one r d source data i.demanded = one r d source data i := by
  have same (head : Request.IncludeHead)
      (below : Record → Except StorageError (Option (Dict (Linked Row)))) (target : Model)
      (records : List Record) :
      rows { head with required := true } target below records = rows head target below records := by
    induction records with
    | nil => rfl
    | cons record rest ih => simp only [rows, ih]
  cases i <;> simp only [Request.Include.demanded, one, including, same]

/-- Where an include of a record is made required, the record is dropped if the include loads
nothing, and otherwise it keeps what it had. -/
theorem related_demanded {kept : Option (Dict (Linked Row))}
    (done : related r d true source data filed (before ++ i :: after) = .ok kept) :
    related r d true source data filed (before ++ i.demanded :: after) =
      .ok (if finds r d source i data then kept else none) := by
  induction before generalizing filed with
  | nil =>
      have label : i.demanded.head.label = i.head.label := by cases i <;> rfl
      have demanded : i.demanded.head.required = true := by cases i <;> rfl
      rw [List.nil_append, related] at done ⊢
      obtain ⟨⟨toMany, loaded⟩, answer, done⟩ := bind_eq_ok_iff.mp done
      rw [one_demanded, answer, ok_bind, finds, answer, label, demanded]
      cases loaded with
      | nil => rfl
      | cons row rows =>
          simp only [List.isEmpty_cons, Bool.and_false, Bool.not_false, Bool.false_eq_true, if_false,
            if_true] at done ⊢
          exact done
  | cons first rest ih =>
      rw [List.cons_append, related] at done ⊢
      obtain ⟨⟨toMany, loaded⟩, answer, done⟩ := bind_eq_ok_iff.mp done
      rw [answer, ok_bind]
      dsimp only at done ⊢
      split at done
      · next dropped =>
        rw [if_pos dropped]
        cases done
        split <;> rfl
      · next stays =>
        rw [if_neg stays]
        exact ih done

/-- Loading further includes leaves alone what is filed under other labels. -/
theorem get?_related {label : String} {includes : List Request.Include}
    (others : ∀ other ∈ includes, other.head.label ≠ label)
    (done : related r d true source data filed includes = .ok (some all)) :
    all.get? label = filed.get? label := by
  induction includes generalizing filed with
  | nil =>
      cases done
      rfl
  | cons first rest ih =>
      obtain ⟨here, later⟩ := List.forall_mem_cons.mp others
      obtain ⟨toMany, loaded, -, done⟩ := related_cons_some done
      rw [ih later done, Dict.get?_insert_of_ne _ _ here.symm]

/-- An include loads something exactly if something is filed under its label, unless a later one
has the same label. -/
theorem finds_of_related (others : ∀ other ∈ after, other.head.label ≠ i.head.label)
    (done : related r d true source data filed (before ++ i :: after) = .ok (some all)) :
    finds r d source i data = (all.get? i.head.label).any fun linked => !linked.toList.isEmpty := by
  induction before generalizing filed with
  | nil =>
      obtain ⟨toMany, loaded, answer, done⟩ := related_cons_some done
      rw [get?_related others done, Dict.get?_insert_self, finds, answer]
      cases toMany <;> cases loaded <;> rfl
  | cons first rest ih =>
      obtain ⟨toMany, loaded, -, done⟩ := related_cons_some done
      exact ih done

/-! ### All records -/

/-- Where other includes leave of each record's related rows what a function leaves of them, a
request with these includes keeps what the function leaves of its records. -/
theorem matching_relate {includes : Option (List Request.Include)}
    (leave : Record → Dict (Linked Row) → Option (Dict (Linked Row)))
    (turns : ∀ record kept, related r d true source record [] request.includeList = .ok kept →
      related r d true source record [] (includes.getD []) = .ok (kept.bind (leave record)))
    (done : matching r d source request records = .ok found) :
    matching r d source { request with includes } records =
      .ok (found.filterMap fun entry => (leave entry.1 entry.2).map (entry.1, ·)) := by
  induction records generalizing found with
  | nil =>
      cases done
      rfl
  | cons record rest ih =>
      rw [matching] at done ⊢
      obtain ⟨accepted, answer, done⟩ := bind_eq_ok_iff.mp done
      rw [answer, ok_bind]
      cases accepted with
      | false => exact ih done
      | true =>
          obtain ⟨kept, loads, done⟩ := bind_eq_ok_iff.mp done
          rw [if_pos rfl, Request.Find.includeList, turns record kept loads, ok_bind]
          cases kept with
          | none => exact ih done
          | some filed =>
              obtain ⟨others, later, last⟩ := bind_eq_ok_iff.mp done
              cases last
              rw [List.filterMap_cons, Option.bind_some]
              dsimp only
              cases leave record filed with
              | none => exact ih later
              | some left =>
                  rw [ih later]
                  rfl

/-- Without its optional includes a request keeps the same records. -/
theorem matching_bare (request : Request.Find)
    (optional : ∀ i ∈ request.includeList, i.head.required = false)
    (done : matching r d source request records = .ok found) :
    matching r d source { request with includes := none } records =
      .ok (found.map fun entry => (entry.1, [])) := by
  rw [matching_relate (fun _ _ => some []) ?_ done]
  · exact congrArg Except.ok (congrFun List.filterMap_eq_map' found)
  · intro record kept loads
    cases kept with
    | none =>
        rw [related_optional optional] at loads
        exact absurd loads (related_ne_none _ _)
    | some filed => rfl

/-- With one of its includes made required a request keeps the records for which that include
loads something. -/
theorem matching_demanded (request : Request.Find)
    (included : request.includeList = before ++ i :: after)
    (done : matching r d source request records = .ok found) :
    matching r d source { request with includes := some (before ++ i.demanded :: after) } records =
      .ok (found.filter fun entry => finds r d source i entry.1) := by
  rw [matching_relate (fun record filed =>
    if finds r d source i record then some filed else none) ?_ done]
  · congr 1
    rw [← List.filterMap_eq_filter]
    congr 1
    funext entry
    rw [Option.guard]
    split <;> rfl
  · intro record kept loads
    rw [included] at loads
    rw [Option.getD_some, related_demanded loads]
    cases kept <;> split <;> rfl

/-! ### The rows of a request -/

/-- Without a projection the rows are whole. -/
theorem mapM_whole (source : Model) (entries : List (Record × Dict (Linked Row))) :
    entries.mapM (fun (record, filed) => do
        let data ← Result.project record none
        pure ({ model := source, data, related := filed } : Row)) =
      (.ok (entries.map (wholeRow source)) : Except StorageError (List Row)) :=
  List.mapM_pure

/-- A request without a projection answers the page of the sorted records that it keeps. -/
theorem select_ok_iff (request : Request.Find) {t : Table} {whole : List Row}
    (table : d.table? source.name = some t) (unshaped : request.attributes = none) :
    select r d source request = .ok whole ↔ request.group = none ∧ ∃ found keys,
      matching r d source request t.liveRecords = .ok found ∧
      Result.sortKeys (request.order.getD []) = .ok keys ∧
      whole = (Result.page request.offset request.limit (Result.sort Prod.fst keys found)).map
        (wholeRow source) := by
  rw [select, table, unshaped]
  cases request.group with
  | some columns => simp
  | none =>
      simp only [Option.isSome_none, Bool.false_eq_true, if_false, bind_eq_ok_iff, mapM_whole,
        Except.ok.injEq, true_and]
      constructor
      · rintro ⟨found, matched, keys, sorts, rfl⟩
        exact ⟨found, keys, matched, sorts, rfl⟩
      · rintro ⟨found, keys, matched, sorts, rfl⟩
        exact ⟨found, matched, keys, sorts, rfl⟩

/-- Which records are kept has nothing to do with the projection. -/
theorem matching_unshaped (attributes : Option (List Request.Projection)) :
    matching r d source { request with attributes } records = matching r d source request records
    := by
  induction records with
  | nil => rfl
  | cons record rest ih =>
      rw [matching, matching, ih]
      rfl

/-- A model without a table has no rows. -/
theorem select_missing (missing : d.table? source.name = none) (ungrouped : request.group = none) :
    select r d source request = .ok [] := by
  rw [select, missing, ungrouped]
  rfl

/-- A projection shapes the rows that are answered without it. -/
theorem select_shaped (r : Registry) (d : Database) (source : Model) (request : Request.Find) :
    select r d source request = (select r d source { request with attributes := none } >>=
      fun whole => whole.mapM (Row.shape request.attributes)) := by
  rw [select, select]
  dsimp only
  split
  · rfl
  · split
    · rfl
    · next t table =>
      rw [matching_unshaped none]
      simp only [mapM_whole, bind_assoc, ok_bind, List.mapM_map]
      rfl

/-- Without optional includes the same rows are answered in the same order. -/
theorem select_bare {whole : List Row} (request : Request.Find)
    (optional : ∀ i ∈ request.includeList, i.head.required = false)
    (done : select r d source { request with attributes := none } = .ok whole) :
    select r d source { request with attributes := none, includes := none } =
      .ok (whole.map fun row => { row with related := [] }) := by
  have ungrouped := ungrouped_of_select done
  cases table : d.table? source.name with
  | none =>
      rw [select_missing table ungrouped] at done
      cases done
      exact select_missing table ungrouped
  | some t =>
      obtain ⟨-, found, keys, matched, sorts, rfl⟩ := (select_ok_iff _ table rfl).mp done
      refine (select_ok_iff { request with attributes := none, includes := none } table rfl).mpr
        ⟨ungrouped, _, keys, matching_bare { request with attributes := none } optional matched,
          sorts, ?_⟩
      rw [Result.sort_map, Result.page_map, List.map_map, List.map_map]
      rfl

/-- With one of its includes made required a request that asks for no page answers the rows for
which that include loads something. They are in the same order, if the records are ordered by the
columns that the request sorts by. -/
theorem select_demanded {whole : List Row} (request : Request.Find)
    (start : request.offset = none) (unlimited : request.limit = none)
    (included : request.includeList = before ++ i :: after)
    (done : select r d source { request with attributes := none } = .ok whole) :
    let marked := { request with attributes := none, includes := some (before ++ i.demanded :: after) }
    let stays := fun row : Row => finds r d source i row.data
    ∃ left, select r d source marked = .ok left ∧ left.Perm (whole.filter stays) ∧
      ∀ keys, Result.sortKeys (request.order.getD []) = .ok keys →
        Result.Consistent keys (whole.map (·.data)) → left = whole.filter stays := by
  intro marked stays
  have ungrouped := ungrouped_of_select done
  cases table : d.table? source.name with
  | none =>
      rw [select_missing table ungrouped] at done
      cases done
      exact ⟨[], select_missing table ungrouped, .nil, fun _ _ _ => rfl⟩
  | some t =>
      obtain ⟨-, found, keys, matched, sorts, rfl⟩ := (select_ok_iff _ table rfl).mp done
      have unpaged {α : Type} (items : List α) :
          Result.page request.offset request.limit items = items := by
        rw [start, unlimited]
        rfl
      refine ⟨_, (select_ok_iff marked table rfl).mpr
        ⟨ungrouped, _, keys, matching_demanded { request with attributes := none } included
          matched, sorts, rfl⟩, ?_⟩
      rw [unpaged, unpaged, List.filter_map]
      constructor
      · apply List.Perm.map
        exact (List.mergeSort_perm _ _).trans ((List.mergeSort_perm _ _).symm.filter _)
      · intro keys' sorts' consistent
        obtain rfl := Except.ok.inj (sorts.symm.trans sorts')
        have ordered : Result.Consistent keys (found.map Prod.fst) := by
          refine consistent.subset fun record member => ?_
          rw [List.map_map]
          exact ((List.mergeSort_perm found _).symm.map Prod.fst).subset member
        exact congrArg _ (ordered.comparison.filter_mergeSort _).symm

end Loading

namespace Engine

variable {m registered : Model} {request : Request.Find} {rows : List Row} {e e' : Engine}

theorem findAll_known (known : e.registry.get? m.name = some registered) (request : Request.Find) :
    findAll m request e = (Loading.select e.registry e.database registered request, e) := by
  rw [findAll_run, Loading.model, known, ok_bind]

/-- Projections and optional includes do not change what a request selects. Without its projection
it answers whole rows, and the rows that it answers are the shapes of these, one after the other. If
all of its includes are optional, the same rows are answered without any. If one of its includes is
made required and no page is asked for, the rows that are left are those for which this include
loads something, and they keep their order if they are ordered by the columns to sort by. Whether
it loads something is seen in the row, unless a later include is filed under the same label. -/
theorem findAll_shaped_demanded (known : e.registry.get? m.name = some registered)
    (done : findAll m request e = (.ok rows, e')) :
    ∃ whole, findAll m { request with attributes := none } e = (.ok whole, e) ∧
      whole.mapM (Row.shape request.attributes) = .ok rows ∧
      ((∀ i ∈ request.includeList, i.head.required = false) →
        findAll m { request with attributes := none, includes := none } e =
          (.ok (whole.map fun row => { row with related := [] }), e)) ∧
      (request.offset = none → request.limit = none → ∀ before i after,
        request.includeList = before ++ i :: after →
        let marked := { request with includes := some (before ++ i.demanded :: after) }
        let stays := fun row : Row => Loading.finds e.registry e.database registered i row.data
        ∃ left, left.Perm (whole.filter stays) ∧
          (∀ keys, Result.sortKeys (request.order.getD []) = .ok keys →
            Result.Consistent keys (whole.map (·.data)) → left = whole.filter stays) ∧
          (∃ kept, left.mapM (Row.shape request.attributes) = .ok kept ∧
            findAll m marked e = (.ok kept, e)) ∧
          ((∀ other ∈ after, other.head.label ≠ i.head.label) → ∀ row ∈ whole,
            stays row = (row.related? i.head.label).any fun linked => !linked.toList.isEmpty)) := by
  have run := findAll_known known
  rw [run] at done
  obtain ⟨selected, -⟩ := Prod.ext_iff.mp done
  rw [Loading.select_shaped] at selected
  obtain ⟨whole, unshaped, shaped⟩ := bind_eq_ok_iff.mp selected
  refine ⟨whole, (run _).trans (congrArg (·, e) unshaped), shaped, fun optional => ?_, ?_⟩
  · exact (run _).trans (congrArg (·, e) (Loading.select_bare request optional unshaped))
  · intro start unlimited before i after included marked stays
    obtain ⟨left, demanded, perm, ordered⟩ :=
      Loading.select_demanded request start unlimited included unshaped
    have shapes : ∀ row ∈ left, ∃ row', row.shape request.attributes = .ok row' :=
      fun row member => forall_of_mapM_ok shaped row (List.mem_of_mem_filter (perm.subset member))
    obtain ⟨kept, shapes⟩ := exists_mapM_eq shapes
    refine ⟨left, perm, ordered, ⟨kept, shapes, ?_⟩, fun others row member => ?_⟩
    · rw [run, Loading.select_shaped, demanded, ok_bind]
      exact congrArg (·, e) shapes
    · obtain ⟨record, -, picked⟩ := Loading.exists_of_mem_select unshaped member
      obtain rfl := Except.ok.inj picked.shaped
      have loaded := picked.loaded
      rw [Request.Find.includeList] at included loaded
      rw [included] at loaded
      exact Loading.finds_of_related others loaded

section Albums

/-- An album with its tracks. Its rank may be missing. -/
def album : Model :=
  { name := "Album"
    attributes := [.identity "id", { name := "rank", dataType := .integer, allowNull := true }]
    associations :=
      [{ key := "tracks", kind := .hasMany, target := "Track", foreignKey := some "AlbumId" }] }

/-- A track of an album with its plays. -/
def track : Model :=
  { name := "Track"
    attributes := [.identity "id", { name := "AlbumId", dataType := .integer }]
    associations :=
      [{ key := "plays", kind := .hasMany, target := "Play", foreignKey := some "TrackId" }] }

/-- A time that a track was played. -/
def play : Model :=
  { name := "Play"
    attributes := [.identity "id", { name := "TrackId", dataType := .integer }] }

/-- The record of an album. -/
def albumRecord (id : Int) (rank : Value) : Record :=
  [("id", .ofInt id), ("rank", rank)]

/-- A track of an album that was played once. -/
def playedTrack (id album play : Int) : Row where
  model := track
  data := [("AlbumId", .ofInt album), ("id", .ofInt id)]
  related :=
    [("plays", .many
      [{ model := Engine.play, data := [("TrackId", .ofInt id), ("id", .ofInt play)] }])]

/-- Four albums. The third one has no rank that is a number and no tracks; the track of the second
one was never played. -/
def studio : Engine where
  registry := [("Album", album), ("Play", play), ("Track", track)]
  database :=
    [("Album",
      { rows :=
          [{ data := albumRecord 1 (.ofInt 1) }, { data := albumRecord 2 (.ofInt 3) },
            { data := albumRecord 3 (.str "x") }, { data := albumRecord 4 (.ofInt 2) }]
        counter := 4 }),
      ("Play",
        { rows :=
            [{ data := [("TrackId", .ofInt 1), ("id", .ofInt 1)] },
              { data := [("TrackId", .ofInt 3), ("id", .ofInt 2)] }]
          counter := 2 }),
      ("Track",
        { rows :=
            [{ data := [("AlbumId", .ofInt 1), ("id", .ofInt 1)] },
              { data := [("AlbumId", .ofInt 2), ("id", .ofInt 2)] },
              { data := [("AlbumId", .ofInt 4), ("id", .ofInt 3)] }]
          counter := 3 })]

/-- The ranks of the albums, the latest first, with the tracks that were played: two albums have
none, and required tracks drop these two. -/
theorem findAll_shaped_demanded_albums :
    let tracks : Request.Include := .node { model := "Track", label := "tracks" }
      [.leaf { model := "Play", label := "plays", required := true }]
    let asked : Request.Find :=
      { attributes := some [.name "rank"], includes := some [tracks]
        order := some (Result.columnTerms [("id", .desc)]) }
    let shown (rank : Value) (tracks : List Row) : Row :=
      { model := album, data := [("rank", rank)], related := [("tracks", .many tracks)] }
    let bare (id : Int) (rank : Value) : Row := { model := album, data := albumRecord id rank }
    findAll album asked studio =
        (.ok [shown (.ofInt 2) [playedTrack 3 4 2], shown (.str "x") [], shown (.ofInt 3) [],
          shown (.ofInt 1) [playedTrack 1 1 1]], studio) ∧
      findAll album { asked with attributes := none, includes := none } studio =
        (.ok [bare 4 (.ofInt 2), bare 3 (.str "x"), bare 2 (.ofInt 3), bare 1 (.ofInt 1)],
          studio) ∧
      findAll album { asked with includes := some [tracks.demanded] } studio =
        (.ok [shown (.ofInt 2) [playedTrack 3 4 2], shown (.ofInt 1) [playedTrack 1 1 1]],
          studio) := by
  intro tracks asked shown bare
  let whole (id : Int) (rank : Value) (tracks : List Row) : Row :=
    { model := album, data := albumRecord id rank, related := [("tracks", .many tracks)] }
  let latest : List (Record × Dict (Linked Row)) :=
    [(albumRecord 4 (.ofInt 2), [("tracks", .many [playedTrack 3 4 2])]),
      (albumRecord 3 (.str "x"), [("tracks", .many [])]),
      (albumRecord 2 (.ofInt 3), [("tracks", .many [])]),
      (albumRecord 1 (.ofInt 1), [("tracks", .many [playedTrack 1 1 1])])]
  have done : findAll album asked studio =
      (.ok [shown (.ofInt 2) [playedTrack 3 4 2], shown (.str "x") [], shown (.ofInt 3) [],
        shown (.ofInt 1) [playedTrack 1 1 1]], studio) :=
    (findAll_sorted latest rfl rfl rfl rfl rfl (by cbv)).trans rfl
  have full : (findAll album { asked with attributes := none } studio).1 =
      .ok [whole 4 (.ofInt 2) [playedTrack 3 4 2], whole 3 (.str "x") [], whole 2 (.ofInt 3) [],
        whole 1 (.ofInt 1) [playedTrack 1 1 1]] :=
    congrArg Prod.fst
      ((findAll_sorted latest rfl rfl rfl rfl rfl (by cbv)).trans rfl)
  obtain ⟨rows, unshaped, -, optional, required⟩ :=
    findAll_shaped_demanded (m := album) (e := studio) rfl done
  obtain rfl := Except.ok.inj (full.symm.trans (congrArg Prod.fst unshaped))
  obtain ⟨left, -, ordered, ⟨kept, shaped, marked⟩, -⟩ := required rfl rfl [] tracks [] rfl
  have uniform : ∀ key ∈ [("id", Request.Direction.desc)], Result.Uniform key.1
      [albumRecord 4 (.ofInt 2), albumRecord 3 (.str "x"), albumRecord 2 (.ofInt 3),
        albumRecord 1 (.ofInt 1)] := by
    refine List.forall_mem_singleton.mpr (.inl ?_)
    show ∀ v ∈ [Value.ofInt 4, .ofInt 3, .ofInt 2, .ofInt 1], _
    simp [Value.ofInt, Value.signed?, Number.signed?]
  have dropped := ordered _ (Result.sortKeys_columnTerms _) (Result.consistent_of_uniform uniform)
  obtain rfl : left = [whole 4 (.ofInt 2) [playedTrack 3 4 2],
      whole 1 (.ofInt 1) [playedTrack 1 1 1]] := dropped.trans rfl
  obtain rfl : [shown (.ofInt 2) [playedTrack 3 4 2], shown (.ofInt 1) [playedTrack 1 1 1]] = kept :=
    Except.ok.inj shaped
  refine ⟨done, optional ?_, marked⟩
  exact List.forall_mem_singleton.mpr rfl

/-- In the order of their ranks the albums come as they are stored, since the third rank cannot be
compared with the others and counts as equal to each. Required tracks drop the third album, and then
the fourth one comes before the second. -/
theorem findAll_demanded_reorders_albums :
    let tracks : Request.Include := .leaf { model := "Track", label := "tracks" }
    let asked : Request.Find :=
      { includes := some [tracks], order := some (Result.columnTerms [("rank", .asc)]) }
    ∃ rows left, findAll album asked studio = (.ok rows, studio) ∧
      findAll album { asked with includes := some [tracks.demanded] } studio = (.ok left, studio) ∧
      rows.map (·.data) = [albumRecord 1 (.ofInt 1), albumRecord 2 (.ofInt 3),
        albumRecord 3 (.str "x"), albumRecord 4 (.ofInt 2)] ∧
      left.map (·.data) = [albumRecord 1 (.ofInt 1), albumRecord 4 (.ofInt 2),
        albumRecord 2 (.ofInt 3)] ∧
      ¬ left.Sublist rows := by
  intro tracks asked
  let shown (id : Int) (rank : Value) (tracks : List Row) : Row :=
    { model := album, data := albumRecord id rank, related := [("tracks", .many tracks)] }
  let bare (id album : Int) : Row :=
    { model := track, data := [("AlbumId", .ofInt album), ("id", .ofInt id)] }
  let rows := [shown 1 (.ofInt 1) [bare 1 1], shown 2 (.ofInt 3) [bare 2 2], shown 3 (.str "x") [],
    shown 4 (.ofInt 2) [bare 3 4]]
  let left := [shown 1 (.ofInt 1) [bare 1 1], shown 4 (.ofInt 2) [bare 3 4],
    shown 2 (.ofInt 3) [bare 2 2]]
  let entry (row : Row) : Record × Dict (Linked Row) := (row.data, row.related)
  refine ⟨rows, left, ?_, ?_, rfl, rfl, fun sublist => ?_⟩
  · exact (findAll_sorted (rows.map entry) rfl rfl rfl rfl rfl (by cbv)).trans rfl
  · exact (findAll_sorted (left.map entry) rfl rfl rfl rfl rfl (by cbv)).trans rfl
  · have ids := sublist.map fun row : Row => (row.get? "id").bind Value.signed?
    revert ids
    decide

end Albums

end Engine

end RecordGraph
