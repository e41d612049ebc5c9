import Mathlib.Data.List.Basic
import Mathlib.Data.List.Sort
import RecordGraph.Proofs.Store.Connecting
import RecordGraph.Proofs.Store.Required
import RecordGraph.Write.Run

/-!
# Connecting looks at keys

Of the rows that a row is connected with, only their keys matter, and whether they are stored.
What else they hold is filed with the row, until the row is read again. Where the key of the
row is written into its targets, it makes no difference whether it had been written into some
of the wanted ones before.
-/

namespace RecordGraph

namespace Dict

variable {β : Type} {d d' : Dict β}

/-- Dictionaries in key order with the same look-ups are the same. -/
theorem ext_get? (h : d.Ascending) (h' : d'.Ascending) (same : ∀ key, d.get? key = d'.get? key) :
    d = d' := by
  have : Std.Irrefl fun a b : String × β => a.1 < b.1 := ⟨fun a => String.lt_irrefl a.1⟩
  have : Std.Antisymm fun a b : String × β => a.1 < b.1 :=
    ⟨fun a b less more => absurd (String.lt_trans less more) (String.lt_irrefl a.1)⟩
  refine List.Pairwise.eq_of_mem_iff h h' fun entry => ?_
  rw [← get?_eq_some_iff_mem h, ← get?_eq_some_iff_mem h', same]

/-- Of two values under one key the later one stays. -/
theorem insert_insert_self (d : Dict β) (key : String) (v w : β) :
    (d.insert key v).insert key w = d.insert key w := by
  induction d with
  | nil => simp [insert]
  | cons entry rest ih =>
      obtain ⟨k, u⟩ := entry
      by_cases less : key < k
      · simp [insert, less]
      · by_cases same : k = key
        · simp [insert, same]
        · simp [insert, less, same, ih]

end Dict

/-- A table that is put in place twice is the later one. -/
theorem Engine.setTable_setTable_self (e : Engine) (name : String) (t t' : Table) :
    (e.setTable name t).setTable name t' = e.setTable name t' :=
  congrArg (fun database => { e with database }) (Dict.insert_insert_self e.database name t t')

/-- Two rows are of the same model and hold the same key, and either both are stored or none
of them is. -/
structure Row.AlikeUnder (pk : String) (row row' : Row) : Prop where
  model : row'.model = row.model
  isNew : row'.isNew = row.isNew
  key : row'.get? pk = row.get? pk

theorem Row.alikeUnder_refl {pk : String} (row : Row) : row.AlikeUnder pk row :=
  ⟨rfl, rfl, rfl⟩

theorem Linked.toList_ofList {α : Type} {toMany : Bool} {items : List α}
    (single : toMany = false → items.length ≤ 1) : (ofList toMany items).toList = items := by
  cases toMany with
  | true => rfl
  | false => rw [toList_ofList_one, List.take_of_length_le (single rfl)]

theorem Linked.forall₂_ofList {α β : Type} {R : α → β → Prop} {items : List α} {others : List β}
    (toMany : Bool) (related : List.Forall₂ R items others) :
    List.Forall₂ R (ofList toMany items).toList (ofList toMany others).toList := by
  cases toMany with
  | true => exact related
  | false =>
      cases related with
      | nil => exact .nil
      | cons first _ => exact .cons first .nil

/-- Two runs on a row end alike: with the same result and on the same state, and with the same
row if they succeed. -/
structure EndAlike {ε σ : Type} (left right : (Except ε Unit × Row) × σ) : Prop where
  result : left.1.1 = right.1.1
  state : left.2 = right.2
  row : left.1.1 = .ok () → left.1.2 = right.1.2

theorem EndAlike.of_eq {ε σ : Type} {left right : (Except ε Unit × Row) × σ} (same : left = right) :
    EndAlike left right :=
  ⟨by rw [same], by rw [same], fun _ => by rw [same]⟩

/-- The row that is left does not matter where both runs fail. -/
theorem EndAlike.of_error {ε σ : Type} (err : ε) (left right : Row) (s : σ) :
    EndAlike ((.error err, left), s) ((.error err, right), s) where
  result := rfl
  state := rfl
  row := by rintro ⟨⟩

theorem EndAlike.ofAction {σ : Type} {failure : StorageError → Failure}
    {action action' : RowAction σ Unit} {row row' : Row} {s s' : σ}
    (alike : EndAlike (action row s) (action' row' s')) :
    EndAlike (RowRun.ofAction failure action row s) (RowRun.ofAction failure action' row' s') := by
  rw [RowRun.ofAction, RowRun.ofAction]
  generalize action row s = left at alike ⊢
  generalize action' row' s' = right at alike ⊢
  obtain ⟨⟨result, left⟩, s⟩ := left
  obtain ⟨⟨result', right⟩, s'⟩ := right
  obtain ⟨rfl, rfl, row⟩ := alike
  cases result with
  | error err => exact .of_error ..
  | ok _ => exact ⟨rfl, rfl, fun _ => row rfl⟩

namespace Linking

variable {e e' : Engine} {row : Row} {label : String} {linked linked' : Linked Row}
variable {a : Association} {target : Model} {pk column : String} {key : Value}
variable {wanted : List Value} {rows rows' : List Row}

theorem itemKeys_congr (alike : List.Forall₂ (Row.AlikeUnder pk) rows rows') :
    itemKeys pk rows' = itemKeys pk rows := by
  induction alike with
  | nil => rfl
  | cons first _ ih =>
      rw [itemKeys, List.mapM_cons, ← itemKeys, ih, itemKeys, itemKeys, List.mapM_cons, itemKey,
        itemKey, first.key, first.isNew, first.model]

theorem itemKeys_append {keys keys' : List Value} (first : itemKeys pk rows = .ok keys)
    (later : itemKeys pk rows' = .ok keys') :
    itemKeys pk (rows ++ rows') = .ok (keys ++ keys') := by
  rw [itemKeys] at first later ⊢
  rw [List.mapM_append, first, later]
  rfl

/-- Rows that are named by their keys are stored. -/
theorem itemKeys_named (pk : String) (target : Model) {keys : List Value}
    (nonnull : ∀ k ∈ keys, k ≠ .null) :
    itemKeys pk (keys.map fun k => { model := target, data := [(pk, k)] }) = .ok keys := by
  induction keys with
  | nil => rfl
  | cons k rest ih =>
      obtain ⟨here, others⟩ := List.forall_mem_cons.mp nonnull
      have first : itemKey pk { model := target, data := [(pk, k)] } = .ok k := by
        have given : Value.present? (Row.get? { model := target, data := [(pk, k)] } pk) = some k :=
          Value.present?_eq_some_iff.mpr ⟨by simp [Row.get?], here⟩
        rw [itemKey, given]
      have later := ih others
      rw [itemKeys] at later ⊢
      rw [List.map_cons, List.mapM_cons, first, ok_bind, later]
      rfl

/-- Connecting a row with rows that have the same keys does the same. -/
theorem connect_congr (association : row.model.association? label = some a)
    (known : e.registry.get? a.target = some target) (keyed : Loading.primaryKey target = .ok pk)
    (same : itemKeys pk linked'.toList = itemKeys pk linked.toList) :
    connect label linked' row e = connect label linked row e := by
  have found : Loading.association row.model label = .ok a := by
    rw [Loading.association, association]
  have resolved : Loading.model e.registry a.target = .ok target := by
    rw [Loading.model, known]
  have registry : RowAction.ofAction get row e = ((.ok e, row), e) := rfl
  simp only [connect, RowAction.bind_run_ok (RowAction.row_run e), RowAction.bind_run_ok registry,
    RowAction.lift_bind_run, found, resolved, keyed, same]

/-- A row whose targets hold its key is connected by pointing these at it. -/
theorem connect_pointed (association : row.model.association? label = some a)
    (known : e.registry.get? a.target = some target) (keyed : Loading.primaryKey target = .ok pk)
    (owned : a.kind.isOwnedByTarget = true) (keys : itemKeys pk linked.toList = .ok wanted)
    (source : sourceKey row.model row.data = .ok key) :
    connect label linked row e = ((.ok (), row), e.setTable target.name
      (pointTargets pk (e.registry.foreignKey row.model a) key wanted
        (e.database.openTable target.name))) := by
  rw [connect_of_ends ⟨association, known, keyed, keys⟩]
  unfold attach
  cases kind : a.kind with
  | hasOne | hasMany =>
      simp only [RowAction.lift_bind_run, source]
      rfl
  | belongsTo | belongsToMany =>
      rw [kind] at owned
      cases owned

/-- Reading a row again looks at its key only, and leaves of it nothing but its model. -/
theorem endAlike_reload (request : Request.Reload) (row : Row) (related : Dict (Linked Row))
    (e : Engine) :
    EndAlike (reload request { row with related } e) (reload request row e) := by
  have registry (row : Row) : RowAction.ofAction get row e = ((.ok e, row), e) := rfl
  have key : storedKey { row with related } = storedKey row := rfl
  simp only [reload, RowAction.bind_run_ok (RowAction.row_run e),
    RowAction.bind_run_ok (registry _), RowAction.lift_bind_run, key]
  cases storedKey row with
  | error err => exact .of_error ..
  | ok key =>
      cases Loading.primaryKey row.model with
      | error err => exact .of_error ..
      | ok pk =>
          dsimp only
          cases ((e.database.openTable row.model.name).liveWhere pk key).head? with
          | none => exact .of_error ..
          | some data =>
              dsimp only
              rw [RowAction.lift_bind_run, RowAction.lift_bind_run]
              cases Loading.related e.registry e.database false row.model data []
                  request.includeList with
              | error err => exact .of_error ..
              | ok filed => exact ⟨rfl, rfl, fun _ => rfl⟩

/-- What is filed with a row when it is connected is not there any more when it has been read
again. -/
theorem endAlike_reconnect (failure : StorageError → Failure) (request : Request.Reload)
    (same : connect label linked' row e' = connect label linked row e) :
    EndAlike
      ((RowRun.ofAction failure (setAssociation label linked') >>= fun _ =>
        RowRun.ofAction failure (reload request)) row e')
      ((RowRun.ofAction failure (setAssociation label linked) >>= fun _ =>
        RowRun.ofAction failure (reload request)) row e) := by
  have ends (linked : Linked Row) (row : Row) (e : Engine) :
      (RowRun.ofAction failure (setAssociation label linked) >>= fun _ =>
        RowRun.ofAction failure (reload request)) row e =
      match connect label linked row e with
      | ((.ok _, row), e) => RowRun.ofAction failure (reload request) (row.file label linked) e
      | ((.error err, row), e) => ((.error (failure err), row), e) := by
    rw [RowAction.bind_run, RowRun.ofAction, setAssociation, RowAction.bind_run]
    generalize connect label linked row e = run
    obtain ⟨⟨result, row₁⟩, e₁⟩ := run
    cases result <;> rfl
  rw [ends, ends, same]
  generalize connect label linked row e = run
  obtain ⟨⟨result, row₁⟩, e₁⟩ := run
  cases result with
  | error err => exact .of_eq rfl
  | ok _ => exact (endAlike_reload request (row₁.file label linked) _ e₁).ofAction

/-- It makes no difference what was written before the same targets are pointed at the row, if
none of it is left then. -/
theorem endAlike_repoint (failure : StorageError → Failure) (request : Request.Reload)
    (association : row.model.association? label = some a) (registry : e'.registry = e.registry)
    (known : e.registry.get? a.target = some target) (keyed : Loading.primaryKey target = .ok pk)
    (owned : a.kind.isOwnedByTarget = true) (source : sourceKey row.model row.data = .ok key)
    (keys' : itemKeys pk linked'.toList = .ok wanted)
    (keys : itemKeys pk linked.toList = .ok wanted)
    (same : e'.setTable target.name (pointTargets pk (e.registry.foreignKey row.model a) key wanted
        (e'.database.openTable target.name)) =
      e.setTable target.name (pointTargets pk (e.registry.foreignKey row.model a) key wanted
        (e.database.openTable target.name))) :
    EndAlike
      ((RowRun.ofAction failure (setAssociation label linked') >>= fun _ =>
        RowRun.ofAction failure (reload request)) row e')
      ((RowRun.ofAction failure (setAssociation label linked) >>= fun _ =>
        RowRun.ofAction failure (reload request)) row e) := by
  refine endAlike_reconnect failure request ?_
  rw [connect_pointed association (registry ▸ known) keyed owned keys' source,
    connect_pointed association known keyed owned keys source, registry, same]

section Pointed

variable {t t' : Table} {index : Nat} {old new : StoredRow}

/-- Rows with the same values outside of a column become the same rows when the key of their
source is written into this column. -/
theorem pointRow_eq (ne : pk ≠ column) (ordered : old.data.Ascending)
    (ordered' : new.data.Ascending) (hidden : new.hidden = old.hidden)
    (same : ∀ name, name ≠ column → new.data.get? name = old.data.get? name)
    (isWanted : holdsAny old.data pk wanted = true) :
    pointRow pk column key wanted new = pointRow pk column key wanted old := by
  have isWanted' : holdsAny new.data pk wanted = true := by
    rw [holdsAny, same pk ne]
    exact isWanted
  rw [pointRow, pointRow, if_pos isWanted, if_pos isWanted', hidden]
  congr 1
  refine Dict.ext_get? (Dict.ascending_insert _ _ ordered') (Dict.ascending_insert _ _ ordered)
    fun name => ?_
  rw [Dict.get?_insert, Dict.get?_insert]
  split
  · rfl
  · exact same name ‹_›

/-- It makes no difference to a table whose rows are pointed at their source that one of the
wanted rows has been changed in the column before. -/
theorem pointTargets_set (ne : pk ≠ column) (found : t.rows[index]? = some old)
    (ordered : old.data.Ascending) (ordered' : new.data.Ascending)
    (hidden : new.hidden = old.hidden)
    (same : ∀ name, name ≠ column → new.data.get? name = old.data.get? name)
    (isWanted : holdsAny old.data pk wanted = true) :
    pointTargets pk column key wanted { t with rows := t.rows.set index new } =
      pointTargets pk column key wanted t := by
  obtain ⟨inside, rfl⟩ := List.getElem?_eq_some_iff.mp found
  have rows : (t.rows.set index new).map (pointRow pk column key wanted) =
      t.rows.map (pointRow pk column key wanted) := by
    rw [List.map_set, pointRow_eq ne ordered ordered' hidden same isWanted,
      ← List.getElem_map (pointRow pk column key wanted) (h := by simpa using inside),
      List.set_getElem_self]
  exact congrArg (Table.mk · t.counter) rows

/-- No other key in a table passes for a key than this key itself. -/
def HoldsExactly (pk : String) (k : Value) (t : Table) : Prop :=
  ∀ o ∈ t.rows.map (·.data.get? pk), ∀ v, o = some v → v.same k = true → v = k

theorem HoldsExactly.of_sameKeys {k : Value} (exactly : HoldsExactly pk k t)
    (same : Table.SameKeys pk t t') : HoldsExactly pk k t' := by
  have keys : t'.rows.map (·.data.get? pk) = t.rows.map (·.data.get? pk) := by
    simpa [Function.comp_def] using congrArg (List.map Prod.snd) same
  rw [HoldsExactly, keys]
  exact exactly

/-- A row that holds nothing but its key and the key of its source, which was written into it in
advance. -/
def stampedRow (target : Model) (pk column : String) (key k : Value) : Row where
  model := target
  data := Dict.insert [(pk, k)] column key

theorem ascending_stampedRow (target : Model) (pk column : String) (key k : Value) :
    (stampedRow target pk column key k).data.Ascending :=
  Dict.ascending_insert _ _ (Dict.ascending_single ..)

/-- Storing such a row over the one that it names changes nothing but the column for the key of
its source. -/
theorem storing_stamped {validate : Bool} {record : Record} {k : Value}
    (keyed : Loading.primaryKey target = .ok pk) (ne : pk ≠ column) (nonnull : k ≠ .null)
    (ordered : t.Ordered) (exactly : HoldsExactly pk k t) (isWanted : k ∈ wanted)
    (done : storing validate (stampedRow target pk column key k) t = .ok (record, t')) :
    pointTargets pk column key wanted t' = pointTargets pk column key wanted t ∧
      Table.SameKeys pk t t' ∧ record.get? pk = some k := by
  have given : (stampedRow target pk column key k).data.get? pk = some k := by
    rw [stampedRow, Dict.get?_insert_of_ne _ _ ne]
    simp
  obtain ⟨key₀, named, done⟩ := bind_eq_ok_iff.mp done
  obtain ⟨place, located, done⟩ := bind_eq_ok_iff.mp done
  have present := (storedKey_ok_iff keyed).mp named
  rw [Row.get?, given, Value.present?_eq_some_iff.mpr ⟨rfl, nonnull⟩] at present
  obtain rfl := Option.some.inj present
  cases place with
  | none => cases done
  | some index =>
      obtain ⟨old, found, has⟩ := Table.position?_ok keyed located
      obtain ⟨_, found', -, rfl, rfl⟩ := Table.updateAt_ok done
      obtain rfl := Option.some.inj (found.symm.trans found')
      have stored := List.mem_of_getElem? found
      obtain ⟨v, present, same⟩ := (Table.has_eq_true_iff nonnull).mp has
      have holds := (Value.present?_eq_some_iff.mp present).1
      obtain rfl := exactly _ (List.mem_map_of_mem stored) v holds same
      have kept (name : String) (other : name ≠ column) :
          (old.extend (Table.declared target (stampedRow target pk column key v).data)).data.get?
            name = old.data.get? name := by
        rw [Model.get?_extend old (ascending_stampedRow ..), Model.get?_declared]
        by_cases primary : name = pk
        · rw [primary, given, holds]
          split <;> rfl
        · have nothing : (stampedRow target pk column key v).data.get? name = none := by
            rw [stampedRow, Dict.get?_insert_of_ne _ _ other]
            simp [Ne.symm primary]
          rw [nothing, ite_self]
          rfl
      have isWanted : holdsAny old.data pk wanted = true :=
        holdsAny_eq_true_iff.mpr ⟨v, holds, v, isWanted, Value.same_self v⟩
      refine ⟨?_, Table.sameKeys_set _ found rfl (kept pk ne), (kept pk ne).trans holds⟩
      exact pointTargets_set ne found (ordered old stored)
        (Dict.ascending_extend _ (ordered old stored)) rfl kept isWanted

end Pointed

end Linking

end RecordGraph
