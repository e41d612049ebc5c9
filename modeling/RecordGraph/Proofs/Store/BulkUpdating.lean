import Mathlib.Data.List.Basic
import Mathlib.Data.List.InsertIdx
import RecordGraph.Proofs.Store.Constraints

/-!
# Updating rows together or one after the other

A bulk update writes the same entries into several rows and checks each of them beside the
others as they will be; updating the rows one after the other checks each beside the others
as they are by then. The two differ only in what they put beside a row, so they can part
only over a key attribute that is among the entries. If the entries give one a value, no two
rows can take it, and both refuse two rows. Otherwise a check looks only at columns of the
other rows that nobody writes, and both accept the same.
-/

namespace RecordGraph

namespace Table

variable {m : Model} {t t' : Table} {data record : Record} {validate : Bool} {indices : List Nat}
variable {others others' : List StoredRow} {row : StoredRow} {index : Nat}

/-- Change the rows at several places one after the other: each of them is checked beside
the others as they are by then. -/
def updateEach (m : Model) (validate : Bool) (data : Record) :
    List Nat → Table → Except StorageError Table
  | [], t => .ok t
  | index :: rest, t => do
    let (_, t) ← t.updateAt m validate index data
    updateEach m validate data rest t

/-- What a row holds under a name after some entries have been written into it: the value that
they give to the name, or else its own. -/
theorem get?_extend_given (row : StoredRow) (data : Record) (name : String) :
    (row.extend (declared m data)).data.get? name =
      ((Dict.ofList (declared m data)).get? name).or (row.data.get? name) :=
  Dict.get?_extend_or _

/-- The entries give a value to a key attribute. -/
def ClaimsKey (m : Model) (data : Record) : Prop :=
  ∃ a ∈ m.attributes, a.isKey = true ∧
    (Value.present? ((Dict.ofList (declared m data)).get? a.name)).isSome = true

/-- A value of a key attribute is refused to a row if another one was given it. -/
theorem ClaimsKey.refuses (claims : ClaimsKey m data) {x y : StoredRow}
    (beside : x.extend (declared m data) ∈ others) :
    check m others validate (y.extend (declared m data)).data ≠ .ok () := by
  intro accepted
  obtain ⟨a, known, isKey, given⟩ := claims
  obtain ⟨v, given⟩ := Option.isSome_iff_exists.mp given
  have holds (row : StoredRow) :
      Value.present? ((row.extend (declared m data)).data.get? a.name) = some v := by
    obtain ⟨found, nonnull⟩ := Value.present?_eq_some_iff.mp given
    rw [get?_extend_given, found]
    exact Value.present?_eq_some_iff.mpr ⟨rfl, nonnull⟩
  have differs := apart_of_check accepted beside a known isKey v v (holds x) (holds y)
  rw [Value.same_self] at differs
  cases differs

/-- A check looks at other rows only under the key attributes that the record has a value
for. -/
theorem check_congr
    (same : ∀ a ∈ m.attributes, a.isKey = true →
      (Value.present? (record.get? a.name)).isSome = true →
      others'.map (·.data.get? a.name) = others.map (·.data.get? a.name)) :
    check m others' validate record = check m others validate record := by
  have each : ∀ a ∈ m.attributes,
      violations m others' validate record a = violations m others validate record a := by
    intro a known
    cases there : Value.present? (record.get? a.name) with
    | none => simp only [violations, there]
    | some v =>
        have taken : (a.isKey && others'.any (·.has a.name v)) =
            (a.isKey && others.any (·.has a.name v)) := by
          cases isKey : a.isKey with
          | false => rfl
          | true =>
              have column := same a known isKey (by rw [there]; rfl)
              have anyHas (rows : List StoredRow) : rows.any (·.has a.name v) =
                  (rows.map (·.data.get? a.name)).any (Option.any fun w => w.same v) := by
                rw [List.any_map]
                rfl
              rw [anyHas, anyHas, column]
        simp only [violations, there, taken]
  rw [check, check]
  congr 1
  exact List.flatMap_congr each

/-- Write the same declared entries into the rows at several places. -/
def writeAll (m : Model) (data : Record) (indices : List Nat) (t : Table) : Table :=
  { t with rows := modifyAll (·.extend (declared m data)) indices t.rows }

/-- Where no key attribute is given a value, it makes no difference to a check which of the
other rows have been written already. -/
theorem check_writeAll (free : ¬ ClaimsKey m data) :
    check m ((t.writeAll m data indices).rows.eraseIdx index) validate
        (row.extend (declared m data)).data =
      check m (t.rows.eraseIdx index) validate (row.extend (declared m data)).data := by
  refine check_congr fun a known isKey there => ?_
  have ungiven : (Dict.ofList (declared m data)).get? a.name = none := by
    cases given : (Dict.ofList (declared m data)).get? a.name with
    | none => rfl
    | some v =>
        rw [get?_extend_given, given] at there
        exact absurd ⟨a, known, isKey, given ▸ there⟩ free
  have keeps (row : StoredRow) :
      (row.extend (declared m data)).data.get? a.name = row.data.get? a.name := by
    rw [get?_extend_given, ungiven]
    rfl
  rw [← List.eraseIdx_map, ← List.eraseIdx_map, writeAll, map_modifyAll keeps]

/-- A row of a table is accepted with the entries written into it, beside the other rows as
another table has them. -/
def Accepts (m : Model) (validate : Bool) (data : Record) (t beside : Table) (index : Nat) :
    Prop :=
  ∃ row, t.rows[index]? = some row ∧
    check m (beside.rows.eraseIdx index) validate (row.extend (declared m data)).data = .ok ()

/-- A row is not accepted beside another one that was given the same value of a key. -/
theorem ClaimsKey.not_accepts {t₁ : Table} {i : Nat} (claims : ClaimsKey m data)
    (distinct : indices.Nodup) (written : i ∈ indices) (inside : i < t.rows.length)
    (apart : i ≠ index) : ¬ Accepts m validate data t₁ (t.writeAll m data indices) index := by
  rintro ⟨row, -, accepted⟩
  have there : (t.writeAll m data indices).rows[i]? =
      some (t.rows[i].extend (declared m data)) := by
    refine (getElem?_modifyAll_of_mem distinct written).trans ?_
    rw [List.getElem?_eq_getElem inside]
    rfl
  exact claims.refuses (List.mem_eraseIdx_iff_getElem?.mpr ⟨i, apart, there⟩) accepted

/-- The row at a place is written where it is accepted beside the other rows as they are. -/
theorem exists_updateAt_ok_iff : (∃ record, t.updateAt m validate index data = .ok (record, t')) ↔
    Accepts m validate data t t index ∧ t' = t.writeAll m data [index] := by
  have written {row : StoredRow} (found : t.rows[index]? = some row) :
      t.rows.modify index (·.extend (declared m data)) =
        t.rows.set index (row.extend (declared m data)) := by
    obtain ⟨inside, rfl⟩ := List.getElem?_eq_some_iff.mp found
    exact List.modify_eq_set_get _ inside
  constructor
  · rintro ⟨record, done⟩
    obtain ⟨row, found, accepted, -, rfl⟩ := updateAt_ok done
    exact ⟨⟨row, found, accepted⟩, congrArg (Table.mk · t.counter) (written found).symm⟩
  · rintro ⟨⟨row, found, accepted⟩, rfl⟩
    refine ⟨(row.extend (declared m data)).data, ?_⟩
    simp only [updateAt, found, accepted, ok_bind, pure_eq_ok, ← written found]
    rfl

theorem updateEach_cons_ok_iff {rest : List Nat} :
    t.updateEach m validate data (index :: rest) = .ok t' ↔
      Accepts m validate data t t index ∧
        (t.writeAll m data [index]).updateEach m validate data rest = .ok t' := by
  rw [updateEach, bind_eq_ok_iff]
  constructor
  · rintro ⟨⟨record, next⟩, first, later⟩
    obtain ⟨accepted, rfl⟩ := exists_updateAt_ok_iff.mp ⟨record, first⟩
    exact ⟨accepted, later⟩
  · rintro ⟨accepted, later⟩
    obtain ⟨record, first⟩ := exists_updateAt_ok_iff.mpr ⟨accepted, rfl⟩
    exact ⟨⟨record, _⟩, first, later⟩

/-- Where no key attribute is given a value, rows are updated one after the other exactly if
each of them is accepted beside the rows as they were at first. -/
theorem updateEach_ok_iff (free : ¬ ClaimsKey m data) (distinct : indices.Nodup) :
    t.updateEach m validate data indices = .ok t' ↔
      (∀ i ∈ indices, Accepts m validate data t t i) ∧ t' = t.writeAll m data indices := by
  induction indices generalizing t with
  | nil =>
      rw [updateEach]
      constructor
      · rintro ⟨⟩
        exact ⟨nofun, rfl⟩
      · rintro ⟨-, rfl⟩
        rfl
  | cons index rest ih =>
      obtain ⟨fresh, distinct⟩ := List.nodup_cons.mp distinct
      -- what is written first makes no difference to the rows that come later
      have later : (∀ i ∈ rest, Accepts m validate data (t.writeAll m data [index])
          (t.writeAll m data [index]) i) ↔ ∀ i ∈ rest, Accepts m validate data t t i := by
        refine forall₂_congr fun i member => ?_
        have untouched : i ∉ [index] := fun here => fresh (List.mem_singleton.mp here ▸ member)
        have same : (t.writeAll m data [index]).rows[i]? = t.rows[i]? :=
          getElem?_modifyAll_of_not_mem untouched
        simp only [Accepts, same, check_writeAll free]
      rw [updateEach_cons_ok_iff, ih distinct, later, List.forall_mem_cons, and_assoc]
      rfl

/-- Rows are updated together exactly if each of them is accepted beside the rows as they will
be. -/
theorem updateMany_ok_iff (distinct : indices.Nodup) (inside : ∀ i ∈ indices, i < t.rows.length) :
    t.updateMany m validate indices data = .ok t' ↔
      (∀ i ∈ indices, Accepts m validate data t (t.writeAll m data indices) i) ∧
        t' = t.writeAll m data indices := by
  have written : ∀ i ∈ indices, ∃ row, t.rows[i]? = some row ∧
      (t.preview m indices data)[i]? = some (row.extend (declared m data)) := by
    intro i member
    have found := List.getElem?_eq_getElem (inside i member)
    refine ⟨_, found, (getElem?_modifyAll_of_mem distinct member).trans ?_⟩
    rw [found]
    rfl
  rw [updateMany, bind_eq_ok_iff]
  constructor
  · rintro ⟨⟨⟩, checked, last⟩
    cases last
    refine ⟨fun i member => ?_, rfl⟩
    obtain ⟨row, found, there⟩ := written i member
    have accepted := forM_eq_ok_iff.mp checked i member
    simp only [there] at accepted
    exact ⟨row, found, accepted⟩
  · rintro ⟨accepted, rfl⟩
    refine ⟨(), forM_eq_ok_iff.mpr fun i member => ?_, rfl⟩
    obtain ⟨row, found, there⟩ := written i member
    obtain ⟨_, found', checked⟩ := accepted i member
    cases found.symm.trans found'
    simp only [there]
    exact checked

/-- A single row is accepted beside itself written as it is beside itself as it was. -/
theorem accepts_writeAll_single {t₁ : Table} :
    Accepts m validate data t₁ (t.writeAll m data [index]) index ↔
      Accepts m validate data t₁ t index := by
  have others : (t.writeAll m data [index]).rows.eraseIdx index = t.rows.eraseIdx index := by
    refine List.ext_getElem? fun i => ?_
    show ((t.rows.modify index _).eraseIdx index)[i]? = _
    rw [List.getElem?_eraseIdx, List.getElem?_eraseIdx]
    split
    · next before => exact List.getElem?_modify_ne _ _ (by omega)
    · next after => exact List.getElem?_modify_ne _ _ (by omega)
  simp only [Accepts, others]

/-- Updating distinct rows together is updating them one after the other, all or nothing: the
one succeeds if and only if the other does, with the same table. Where rows are refused, the
table stays as it was. -/
theorem updateMany_iff_updateEach (distinct : indices.Nodup)
    (inside : ∀ i ∈ indices, i < t.rows.length) :
    (∀ t', t.updateMany m validate indices data = .ok t' ↔
      t.updateEach m validate data indices = .ok t') ∧
    ∀ (name : String) (e e' : Engine) (err : StorageError), e.database.openTable name = t →
      Engine.onTable name
        (fun t => return ((), ← t.updateMany m validate indices data)) e = (.error err, e') →
      e'.database.openTable name = t := by
  refine ⟨fun t' => ?_, fun name e e' err at_name failed => ?_⟩
  · rw [updateMany_ok_iff distinct inside]
    by_cases claims : ClaimsKey m data
    · match indices, distinct, inside with
      | [], _, _ =>
          rw [updateEach, Except.ok.injEq, eq_comm (a := t)]
          exact and_iff_right nofun
      | [i], _, _ =>
          rw [updateEach_cons_ok_iff, List.forall_mem_singleton, accepts_writeAll_single,
            updateEach, Except.ok.injEq, eq_comm (a := t')]
      | i :: j :: rest, distinct, inside =>
          have apart : i ≠ j := fun same =>
            (List.nodup_cons.mp distinct).1 (same ▸ List.mem_cons_self)
          have here := inside i List.mem_cons_self
          constructor
          · rintro ⟨accepted, -⟩
            have second := accepted j (List.mem_cons_of_mem _ List.mem_cons_self)
            exact absurd second
              (claims.not_accepts distinct List.mem_cons_self here apart)
          · intro done
            obtain ⟨-, later⟩ := updateEach_cons_ok_iff.mp done
            exact absurd (updateEach_cons_ok_iff.mp later).1
              (claims.not_accepts (by simp) List.mem_cons_self here apart)
    · rw [updateEach_ok_iff claims distinct]
      simp only [Accepts, check_writeAll claims]
  · rw [Engine.onTable_error failed, Engine.setTable, Database.openTable_setTable_self, at_name]

section Players

/-- A player of a team. No two have the same nickname. -/
def player : Model :=
  { name := "Player"
    attributes :=
      [.identity "id", { name := "nick", unique := true, allowNull := true },
        { name := "team", allowNull := true }] }

/-- Three players, the last of them retired. -/
def players : Table :=
  { rows :=
      [{ data := [("id", .ofInt 1), ("nick", .str "ace"), ("team", .null)] },
        { data := [("id", .ofInt 2), ("nick", .null), ("team", .null)] },
        { data := [("id", .ofInt 3), ("nick", .str "bee"), ("team", .null)], hidden := true }]
    counter := 3 }

/-- The first and the last player can get a team, together as well as one after the other, and
both ways leave the same. Neither way can they get one nickname, and the bulk update then
leaves the players as they are, while the first of two updates succeeds. -/
theorem updateMany_iff_updateEach_players :
    (∃ t, players.updateMany player true [0, 2] [("team", .str "red")] = .ok t ∧
      players.updateEach player true [("team", .str "red")] [0, 2] = .ok t) ∧
    (∀ t, players.updateEach player true [("nick", .str "cat")] [0, 2] ≠ .ok t) ∧
    (players.updateAt player true 0 [("nick", .str "cat")]).isOk = true ∧
    ∀ (e e' : Engine) (err : StorageError), e.database.openTable "Player" = players →
      Engine.onTable "Player"
        (fun t => return ((), ← t.updateMany player true [0, 2] [("nick", .str "cat")])) e =
          (.error err, e') →
      e'.database.openTable "Player" = players := by
  have distinct : [0, 2].Nodup := by decide
  have inside : ∀ i ∈ [0, 2], i < players.rows.length := by decide
  have given (data : Record) :=
    @updateMany_iff_updateEach player players data true [0, 2] distinct inside
  obtain ⟨teams, -⟩ := given [("team", .str "red")]
  obtain ⟨nicks, kept⟩ := given [("nick", .str "cat")]
  refine ⟨⟨_, rfl, (teams _).mp rfl⟩, fun t done => ?_, rfl, fun e e' err => kept "Player" e e' err⟩
  cases (nicks t).mpr done

end Players

end Table

end RecordGraph
