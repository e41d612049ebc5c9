import RecordGraph.Proofs.Store.Visibility
import RecordGraph.Select.Compiled

/-!
# How deep related rows go

A row is written as one record with so many levels of related rows. How many there are is
known before anything is read: loading files rows no deeper than the includes of a request go,
and a request goes as deep as the includes that it was made from. So the depth of the includes
is enough for every row that is read along them, however many of them the store drops or leaves
empty, and more levels do not add anything.
-/

namespace RecordGraph

theorem Linked.toValue_congr {α : Type} {f g : α → Value} {linked : Linked α}
    (same : ∀ item ∈ linked.toList, f item = g item) : linked.toValue f = linked.toValue g := by
  cases linked with
  | none => rfl
  | one item => exact same item (List.mem_singleton.mpr rfl)
  | many items => exact congrArg Value.arr (List.map_congr_left same)

/-! ### The levels of a request -/

namespace Request.Include

mutual

/-- Number of levels from an include of a request down. -/
def depth : Include → Nat
  | .leaf _ => 1
  | .node _ children => 1 + depthOf children

/-- Number of levels in a list of includes of a request. -/
def depthOf : List Include → Nat
  | [] => 0
  | i :: rest => max (depth i) (depthOf rest)

end

theorem depth_pos (i : Include) : 0 < i.depth := by
  cases i with
  | leaf head => exact Nat.one_pos
  | node head children =>
      rw [depth]
      omega

end Request.Include

namespace Include

mutual

/-- Nothing is lost or added where includes are made into a request. -/
theorem depth_toRequest : ∀ i : Include, (toRequest i).depth = depth i
  | .plain edge => rfl
  | .nested edge s [] => rfl
  | .nested edge s (i :: rest) => by
      rw [toRequest, Request.Include.depth, Request.Include.depthOf, depth_toRequest i,
        depthOf_toRequests rest, depth, depthOf]

theorem depthOf_toRequests : ∀ includes : List Include,
    Request.Include.depthOf (toRequests includes) = depthOf includes
  | [] => rfl
  | i :: rest => by
      rw [toRequests, Request.Include.depthOf, depth_toRequest i, depthOf_toRequests rest, depthOf]

end

end Include

/-! ### The levels below a row -/

/-- The rows filed under labels, with those filed below them, go down no more than so many
levels. -/
def FiledWithin : Nat → Dict (Linked Row) → Prop
  | 0, filed => filed = []
  | n + 1, filed => ∀ entry ∈ filed, ∀ item ∈ entry.2.toList, FiledWithin n item.related

theorem filedWithin_nil : ∀ n : Nat, FiledWithin n []
  | 0 => rfl
  | _ + 1 => nofun

/-- Where no rows are filed deeper than so many levels, more levels are not seen. -/
theorem Row.plain_of_filedWithin {n k : Nat} {row : Row} (within : FiledWithin n row.related)
    (enough : n ≤ k) : row.plain k = row.plain n := by
  induction n generalizing k row with
  | zero =>
      have alone : row.related = [] := within
      cases k with
      | zero => rfl
      | succ k =>
          show row.data.extend (row.related.map _) = row.data
          rw [alone, List.map_nil, Dict.extend_nil]
  | succ n ih =>
      obtain ⟨k, rfl⟩ : ∃ j, k = j + 1 := Nat.exists_eq_add_one.mpr (by omega)
      rw [plain, plain]
      congr 1
      apply List.map_congr_left
      intro entry member
      apply congrArg (Prod.mk entry.1)
      apply Linked.toValue_congr
      intro item below
      exact congrArg Value.obj (ih (within entry member item below) (by omega))

namespace Loading

variable {r : Registry} {d : Database}

mutual

/-- Rows are filed no deeper than the includes go: what was filed before may take as many
levels, but none can be there if there is no include. -/
theorem related_within : ∀ {includes : List Request.Include} {source : Model} {data : Record}
    {enforce : Bool} {filed out : Dict (Linked Row)} {n : Nat},
    Request.Include.depthOf includes ≤ n → FiledWithin n filed →
    related r d enforce source data filed includes = .ok (some out) → FiledWithin n out
  | [], _, _, _, _, _, _, _, old, done => by
      cases done
      exact old
  | i :: rest, _, _, _, _, _, n, shallow, old, done => by
      obtain ⟨here, later⟩ := Nat.max_le.mp shallow
      obtain ⟨n, rfl⟩ : ∃ k, n = k + 1 :=
        Nat.exists_eq_add_one.mpr (Nat.lt_of_lt_of_le i.depth_pos here)
      obtain ⟨toMany, loaded, loads, done⟩ := related_cons_some done
      have new : ∀ item ∈ (Linked.ofList toMany loaded).toList, FiledWithin n item.related :=
        fun item member => one_within here loads item (Linked.mem_of_mem_ofList member)
      exact related_within later (Dict.forall_mem_insert old new) done

theorem one_within : ∀ {i : Request.Include} {source : Model} {data : Record} {toMany : Bool}
    {loaded : List Row} {n : Nat}, i.depth ≤ n + 1 →
    one r d source data i = .ok (toMany, loaded) → ∀ row ∈ loaded, FiledWithin n row.related
  | .leaf head, _, _, _, _, n, _, done => by
      intro row member
      obtain ⟨_, _, _, _, _, _, _, made⟩ := exists_ends_of_including done
      obtain ⟨_, record, _, _, answered⟩ := made row member
      have bare : [] = row.related := Option.some.inj (Except.ok.inj answered)
      rw [← bare]
      exact filedWithin_nil n
  | .node head children, _, _, _, _, n, shallow, done => by
      intro row member
      obtain ⟨_, _, _, _, _, _, _, made⟩ := exists_ends_of_including done
      obtain ⟨_, record, _, _, answered⟩ := made row member
      rw [Request.Include.depth] at shallow
      exact related_within (by omega) (filedWithin_nil n) answered

end

end Loading

namespace Engine

variable {e : Engine} {row : Row}

/-- An engine that is asked for rows along some includes answers a row: one of all rows that are
found, the only one that is looked for, or one that was there already and is read again. -/
inductive Answers (e : Engine) (includes : List Request.Include) : Row → Prop where
  | found {m : Model} {request : Request.Find} {rows : List Row} {row : Row}
      (along : request.includeList = includes) (done : (findAll m request e).1 = .ok rows)
      (among : row ∈ rows) : Answers e includes row
  | first {m : Model} {request : Request.Find} {row : Row}
      (along : request.includeList = includes) (done : (findOne m request e).1 = .ok (some row)) :
      Answers e includes row
  | again {request : Request.Reload} {before row : Row}
      (along : request.includeList = includes)
      (done : (Linking.reload request before e).1 = (.ok (), row)) : Answers e includes row

theorem filedWithin_of_findAll {m : Model} {request : Request.Find} {rows : List Row}
    (done : (findAll m request e).1 = .ok rows) (among : row ∈ rows) :
    FiledWithin (Request.Include.depthOf request.includeList) row.related := by
  rw [findAll_run] at done
  obtain ⟨registered, -, done⟩ := bind_eq_ok_iff.mp done
  obtain ⟨record, -, picked⟩ := Loading.exists_of_mem_select done among
  exact Loading.related_within (Nat.le_refl _) (filedWithin_nil _) picked.loaded

/-- Whatever is answered has no rows filed deeper than the includes go. -/
theorem Answers.filedWithin {includes : List Request.Include} (answers : e.Answers includes row) :
    FiledWithin (Request.Include.depthOf includes) row.related := by
  cases answers with
  | found along done among =>
      rw [← along]
      exact filedWithin_of_findAll done among
  | first along done =>
      obtain ⟨rows, found, first⟩ := exists_findAll_of_findOne done
      have within := filedWithin_of_findAll found (List.mem_of_head? first.symm)
      exact along ▸ within
  | again along done =>
      obtain ⟨data, filed, -, -, loaded, rfl, -⟩ := Linking.reload_ok (Prod.ext done rfl)
      rw [← along]
      cases filed with
      | none => exact filedWithin_nil _
      | some filed => exact Loading.related_within (Nat.le_refl _) (filedWithin_nil _) loaded

/-- The depth of some includes is enough to write a row that is read along them with all its
related rows: any number of levels from there on gives the same record. -/
theorem plain_eq_plain_depthOf {includes : List Include} {n : Nat}
    (answers : e.Answers (Include.toRequests includes) row)
    (enough : Include.depthOf includes ≤ n) :
    row.plain n = row.plain (Include.depthOf includes) := by
  have within := answers.filedWithin
  rw [Include.depthOf_toRequests] at within
  exact Row.plain_of_filedWithin within enough

section Trilogy

/-- Something that is known by a number and has many of something else. -/
def holder (name label target : String) : Model :=
  { name, attributes := [.identity "id"],
    associations := [{ key := label, kind := .hasMany, target }] }

/-- A chapter of a volume. -/
def chapter : Model :=
  { name := "Chapter", attributes := [.identity "id"] }

/-- A trilogy of which one volume is there, with a chapter. -/
def trilogy : Engine :=
  { registry := [("Chapter", chapter), ("Trilogy", holder "Trilogy" "volumes" "Volume"),
      ("Volume", holder "Volume" "chapters" "Chapter")],
    database := [
      ("Chapter", { rows := [{ data := [("VolumeId", .ofInt 2), ("id", .ofInt 3)] }] }),
      ("Trilogy", { rows := [{ data := [("id", .ofInt 1)] }] }),
      ("Volume", { rows := [{ data := [("TrilogyId", .ofInt 1), ("id", .ofInt 2)] }] })] }

/-- The volumes with their chapters. -/
def volumes : List Include :=
  [.nested { target := "Volume", label := "volumes" } { model := "Volume" }
    [.plain { target := "Chapter", label := "chapters" }]]

/-- The row of the trilogy, with its volume and the chapter of that. -/
def trilogyRow : Row :=
  { model := holder "Trilogy" "volumes" "Volume", data := [("id", .ofInt 1)],
    related := [("volumes", .many [
      { model := holder "Volume" "chapters" "Chapter",
        data := [("TrilogyId", .ofInt 1), ("id", .ofInt 2)],
        related := [("chapters", .many [
          { model := chapter, data := [("VolumeId", .ofInt 2), ("id", .ofInt 3)] }])] }])] }

/-- Two levels are enough for the volumes and their chapters, and with one level the chapters
are lost. -/
theorem plain_eq_plain_depthOf_trilogy :
    trilogy.Answers (Include.toRequests volumes) trilogyRow ∧ Include.depthOf volumes = 2 ∧
    trilogyRow.plain 7 = trilogyRow.plain 2 ∧
    trilogyRow.plain 2 = [("id", .ofInt 1), ("volumes", .arr [.obj
      [("TrilogyId", .ofInt 1),
        ("chapters", .arr [.obj [("VolumeId", .ofInt 2), ("id", .ofInt 3)]]),
        ("id", .ofInt 2)]])] ∧
    trilogyRow.plain 1 = [("id", .ofInt 1), ("volumes", .arr [.obj
      [("TrilogyId", .ofInt 1), ("id", .ofInt 2)]])] := by
  have run : findAll (holder "Trilogy" "volumes" "Volume")
      { includes := some (Include.toRequests volumes) } trilogy = (.ok [trilogyRow], trilogy) :=
    (findAll_unsorted rfl rfl rfl rfl rfl).trans rfl
  have answers : trilogy.Answers (Include.toRequests volumes) trilogyRow :=
    .found rfl (congrArg Prod.fst run) List.mem_cons_self
  have enough : Include.depthOf volumes ≤ 7 := by decide
  exact ⟨answers, rfl, plain_eq_plain_depthOf answers enough, rfl, rfl⟩

end Trilogy

end Engine

end RecordGraph
