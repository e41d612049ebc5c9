import RecordGraph.Proofs.Store.Pointing
import RecordGraph.Proofs.Store.Replacement
import RecordGraph.Proofs.Write.Stamping

/-!
# Two ways to name a stored row

A row that is to be connected may be named by its bare key or by a record that holds nothing
but this key. A bare key is attached as it is. So is the record, unless the key of a row that
was just created is written into it in advance: then it holds more than its own key, and it is
saved, over the row that it names, before it is connected. Connecting writes the same column
of the same row. So the two ways differ only where the save is refused, or where it does more
than to write this column.
-/

namespace RecordGraph

/-- Two items are the same, or they name the same row, one by a record that holds nothing but
its key, the other one by the bare key. -/
inductive Item.SameName (pk : String) : Item → Item → Prop where
  | refl (item : Item) : SameName pk item item
  | keyed {k : Value} (nonnull : k ≠ .null) : SameName pk (.record [(pk, k)]) (.key k)

/-- Two runs leave the same state, and they fail alike or have related answers. -/
inductive Run.Related {σ α β : Type} (R : α → β → Prop) :
    Except Failure α × σ → Except Failure β × σ → Prop where
  | bothFailed (failure : Failure) (s : σ) : Related R (.error failure, s) (.error failure, s)
  | bothAnswered {a : α} {b : β} (related : R a b) (s : σ) : Related R (.ok a, s) (.ok b, s)

theorem Run.Related.refl {σ α : Type} {R : α → α → Prop} (same : ∀ a, R a a)
    (run : Except Failure α × σ) : Run.Related R run run := by
  obtain ⟨result, s⟩ := run
  cases result with
  | error failure => exact .bothFailed failure s
  | ok a => exact .bothAnswered (same a) s

/-- Walks are related if their steps are, where a property that the steps rely on is kept on the
way. -/
theorem Run.Related.mapM {σ α β : Type} {f : α → Run σ β} {P : α → α → Prop} {R : β → β → Prop}
    {J : σ → Prop} {items others : List α} {s : σ} (upholds : ∀ a, Upholds J (f a))
    (each : ∀ a b s, P a b → J s → Run.Related R (f a s) (f b s))
    (pairs : List.Forall₂ P items others) (holds : J s) :
    Run.Related (List.Forall₂ R) (items.mapM f s) (others.mapM f s) := by
  induction pairs generalizing s with
  | nil => exact .bothAnswered .nil s
  | @cons a b items others pair _ ih =>
      have first := each a b s pair holds
      have after := upholds a s holds
      rw [List.mapM_cons, List.mapM_cons, Action.bind_run, Action.bind_run]
      generalize f a s = left at first after ⊢
      generalize f b s = right at first ⊢
      cases first with
      | bothFailed failure s₁ => exact .bothFailed failure s₁
      | bothAnswered answers s₁ =>
          have later := ih after
          dsimp only
          rw [Action.bind_run, Action.bind_run]
          generalize items.mapM f s₁ = left at later ⊢
          generalize others.mapM f s₁ = right at later ⊢
          cases later with
          | bothFailed failure s₂ => exact .bothFailed failure s₂
          | bothAnswered rest s₂ => exact .bothAnswered (.cons answers rest) s₂

/-- What follows work that does not look at the row goes on from the state that it leaves. -/
theorem RowRun.ofRun_bind_run {σ α β : Type} (x : Run σ α) (f : α → RowRun σ β) {row : Row}
    {s : σ} :
    (RowRun.ofRun x >>= f) row s =
      match x s with
      | (.ok a, s₁) => f a row s₁
      | (.error failure, s₁) => ((.error failure, row), s₁) := by
  rw [RowAction.bind_run, RowRun.ofRun]
  generalize x s = run
  obtain ⟨result, s₁⟩ := run
  cases result <;> rfl

/-- A record without a label is all columns. -/
theorem Draft.ofRecord_plain {m : Model} {record : Record} (ordered : record.Ascending)
    (plain : ∀ entry ∈ record, m.association? entry.1 = none) :
    Draft.ofRecord m record = { fields := record } := by
  have columns : List.filter (fun entry => (m.association? entry.1).isNone) record = record :=
    List.filter_eq_self.mpr fun entry member => by rw [plain entry member]; rfl
  have labels : List.filter (fun entry => (m.association? entry.1).isSome) record = [] :=
    List.filter_eq_nil_iff.mpr fun entry member => by rw [plain entry member]; nofun
  have fields : (Draft.ofRecord m record).fields = record := by
    rw [fields_ofRecord, columns]
    refine Dict.ext_get? (Dict.ascending_ofList _) ordered fun key => ?_
    rw [Dict.ofList, Dict.get?_extend ordered, Dict.get?_nil, Option.or_none]
  have associations : (Draft.ofRecord m record).associations = [] := by
    rw [associations_ofRecord, labels]
    rfl
  generalize Draft.ofRecord m record = draft at fields associations
  obtain ⟨_, _⟩ := draft
  cases fields
  cases associations
  rfl

namespace Cascade

open Linking (stampedRow storing)

variable {r : Registry} {options : PersistOptions} {stop : Stop} {e : Engine} {pk : String}
variable {key k : Value}

/-- The targets of a stop are registered, and no association of theirs answers to the name of
their primary key. -/
structure Stop.Keyed (r : Registry) (stop : Stop) (pk : String) : Prop where
  known : r.get? stop.target.name = some stop.target
  keyed : stop.target.primaryKey = .ok pk
  plain : stop.target.association? pk = none

/-- What a stop makes of an item: the row that is named is attached, or it is saved and its own
related rows are written. -/
theorem Stop.make_run {item : Item} {row : Row} {record : Record} (keyed : stop.Keyed r pk)
    (supplied : supply stop.target pk (Include.depthOf stop.asked.children) stop.stamp item e =
      (.ok (row, record), e)) :
    stop.make r options item e =
      if attachesOnly stop.asked.edge pk row record then (.ok row, e)
      else Run.onRow row (do
        RowRun.ofAction (Failure.ofStorageUnder stop.asked.label stop.target)
          (Backend.save options.toWrite)
        let draft := Draft.ofRecord stop.target record
        if draft.hasAssociations then
          RowRun.mapFailure (Failure.under stop.asked.label)
            (persist r options stop.target draft (if row.isNew then .create else .update)
              stop.asked.children)) e := by
  have primary : primaryKey stop.target = .ok pk := mapError_eq_ok_iff.mpr keyed.keyed
  rw [Stop.make, coerce, primary, Run.lift_bind_run, Action.bind_run_ok supplied]
  dsimp only
  split
  · rfl
  · rfl

theorem Stop.Keyed.builds (keyed : stop.Keyed r pk) (registry : e.registry = r) (data : Record)
    (isNew : Bool) : Run.ofAction (Failure.ofStorage stop.target)
      (Backend.build stop.target data isNew) e = (.ok { model := stop.target, data, isNew }, e) :=
  Run.ofAction_ok_iff.mpr (build_of_registered (registry ▸ keyed.known) data isNew)

/-- A row that is named by its bare key is attached as it is. -/
theorem Stop.make_key (keyed : stop.Keyed r pk) (registry : e.registry = r) :
    stop.make r options (.key k) e = (.ok { model := stop.target, data := [(pk, k)] }, e) := by
  have supplied : supply stop.target pk (Include.depthOf stop.asked.children) stop.stamp (.key k)
      e = (.ok ({ model := stop.target, data := [(pk, k)] }, [(pk, k)]), e) := by
    rw [supply, Action.bind_run_ok (keyed.builds registry _ _)]
    rfl
  rw [make_run keyed supplied, if_pos (by simp [attachesOnly, Dict.keys])]

theorem Stop.mapM_make_key (keyed : stop.Keyed r pk) (registry : e.registry = r)
    (keys : List Value) :
    (keys.map Item.key).mapM (stop.make r options) e =
      (.ok (keys.map fun k => { model := stop.target, data := [(pk, k)] }), e) := by
  induction keys with
  | nil => rfl
  | cons k rest ih =>
      rw [List.map_cons, List.mapM_cons, Action.bind_run_ok (make_key keyed registry),
        Action.bind_run_ok ih]
      rfl

/-- Nothing is written in advance at a stop, or it is the key of the row that was just created,
into the targets that are to hold it. -/
theorem Stop.stamp_cases (stop : Stop) : stop.stamp = none ∨
    ∃ key, stop.association.kind.isOwnedByTarget = true ∧
      Value.present? (stop.source.get? stop.pk) = some key ∧
      stop.stamp = some (stop.column, key) := by
  rw [Stop.stamp, Cascade.stamp]
  split
  · next inserted =>
    cases present : Value.present? (stop.source.get? stop.pk) with
    | none => exact .inl rfl
    | some key => exact .inr ⟨key, inserted.2, rfl, rfl⟩
  · exact .inl rfl

/-- The record of a row that holds nothing but its key holds it still when something has been
written in advance, if this is not another key. -/
theorem Stop.get?_stampRecord (apart : stop.stamp = none ∨ stop.column ≠ pk) :
    (stampRecord stop.stamp [(pk, k)]).get? pk = some k := by
  obtain stamp | ⟨key, -, -, stamp⟩ := stop.stamp_cases
  · simp [stamp, stampRecord]
  · have ne : pk ≠ stop.column := by
      obtain none | ne := apart
      · cases stamp.symm.trans none
      · exact ne.symm
    rw [stamp, stampRecord, Dict.get?_insert_of_ne _ _ ne]
    simp

/-- A record that holds the key of a stored row makes a row that is not new. -/
theorem Stop.supply_record (keyed : stop.Keyed r pk) (registry : e.registry = r)
    (nonnull : k ≠ .null) (apart : stop.stamp = none ∨ stop.column ≠ pk) (depth : Nat) :
    let record := stampRecord stop.stamp [(pk, k)]
    supply stop.target pk depth stop.stamp (.record [(pk, k)]) e =
      (.ok ({ model := stop.target, data := (Draft.ofRecord stop.target record).fields }, record),
        e) := by
  intro record
  have old : (Value.present? (record.get? pk)).isNone = false := by
    rw [Stop.get?_stampRecord apart, Value.present?_eq_some_iff.mpr ⟨rfl, nonnull⟩]
    rfl
  rw [supply, old, Action.bind_run_ok (keyed.builds registry _ _)]
  rfl

/-- A row that is named in either way is attached, if nothing is written in advance or if rows
are only to be attached. -/
theorem Stop.make_related (keyed : stop.Keyed r pk) (registry : e.registry = r)
    (attached : stop.stamp = none ∨ stop.asked.edge.associateOnly = true ∧ stop.column ≠ pk)
    {item other : Item} (same : item.SameName pk other) :
    Run.Related (Row.AlikeUnder pk) (stop.make r options item e)
      (stop.make r options other e) := by
  cases same with
  | refl => exact .refl Row.alikeUnder_refl _
  | @keyed k nonnull =>
      have apart : stop.stamp = none ∨ stop.column ≠ pk := attached.imp_right And.right
      have ordered : Dict.Ascending (stampRecord stop.stamp [(pk, k)]) :=
        ascending_stampRecord (Dict.ascending_single ..) _
      have only : attachesOnly stop.asked.edge pk
          { model := stop.target
            data := (Draft.ofRecord stop.target (stampRecord stop.stamp [(pk, k)])).fields }
          (stampRecord stop.stamp [(pk, k)]) = true := by
        obtain stamp | ⟨only, -⟩ := attached
        · simp [attachesOnly, stamp, stampRecord, Dict.keys]
        · simp [attachesOnly, only]
      rw [make_key keyed registry, make_run keyed (supply_record keyed registry nonnull apart _),
        if_pos only]
      refine .bothAnswered ⟨rfl, rfl, ?_⟩ e
      rw [Row.get?, Row.get?, (Draft.plain_of_association? keyed.plain ordered).1,
        get?_stampRecord apart]
      simp

theorem Stop.Keyed.ofRecord_stampedRow (keyed : stop.Keyed r pk)
    (plain : stop.target.association? stop.column = none) :
    Draft.ofRecord stop.target (stampedRow stop.target pk stop.column key k).data =
      { fields := (stampedRow stop.target pk stop.column key k).data } := by
  refine Draft.ofRecord_plain (Linking.ascending_stampedRow ..) fun entry member => ?_
  rcases Dict.mem_of_mem_insert member with rfl | own
  · exact plain
  · rw [List.mem_singleton.mp own]
    exact keyed.plain

/-- A row that holds the key of its source beside its own is not just attached. -/
theorem Stop.attachesOnly_stampedRow (saves : stop.asked.edge.associateOnly = false)
    (ne : stop.column ≠ pk) :
    attachesOnly stop.asked.edge pk (stampedRow stop.target pk stop.column key k)
      (stampedRow stop.target pk stop.column key k).data = false := by
  have member : stop.column ∈ (stampedRow stop.target pk stop.column key k).data.keys :=
    Dict.mem_keys_insert.mpr (.inl rfl)
  have other : (stampedRow stop.target pk stop.column key k).data.keys.all (· == pk) = false :=
    List.all_eq_false.mpr ⟨stop.column, member, by simpa using ne⟩
  rw [attachesOnly, saves, other]
  simp

/-- A record into which the key of its source is written in advance is saved, where rows are
not only to be attached, and nothing else is done for it. -/
theorem Stop.make_stamped (keyed : stop.Keyed r pk) (registry : e.registry = r)
    (nonnull : k ≠ .null) (stamp : stop.stamp = some (stop.column, key))
    (saves : stop.asked.edge.associateOnly = false) (ne : stop.column ≠ pk)
    (plain : stop.target.association? stop.column = none) :
    stop.make r options (.record [(pk, k)]) e =
      match storing options.validate (stampedRow stop.target pk stop.column key k)
          (e.database.openTable stop.target.name) with
      | .ok (data, t) => (.ok { model := stop.target, data }, e.setTable stop.target.name t)
      | .error err => (.error (Failure.ofStorageUnder stop.asked.label stop.target err),
          e.setTable stop.target.name (e.database.openTable stop.target.name)) := by
  let named := stampedRow stop.target pk stop.column key k
  have record : stampRecord stop.stamp [(pk, k)] = named.data := by rw [stamp]; rfl
  have supplied := supply_record keyed registry nonnull (.inr ne)
    (Include.depthOf stop.asked.children)
  rw [record] at supplied
  have more : ¬attachesOnly stop.asked.edge pk named named.data = true :=
    ne_true_of_eq_false (attachesOnly_stampedRow saves ne)
  rw [make_run keyed supplied, keyed.ofRecord_stampedRow plain]
  refine (if_neg more).trans ?_
  rw [Run.onRow, RowAction.bind_run, RowRun.ofAction]
  have save : Backend.save options.toWrite { model := stop.target, data := named.data } e =
    Linking.save options.validate named e := rfl
  dsimp only
  rw [save]
  cases answer : storing options.validate (stampedRow stop.target pk stop.column key k)
      (e.database.openTable stop.target.name) with
  | error err =>
      rw [Linking.save_run_error answer]
      rfl
  | ok stored =>
      obtain ⟨data, t⟩ := stored
      rw [Linking.save_run_ok answer]
      rfl

/-- Such records are saved one after the other, if none of them is refused. They hold the keys
that they were named by, and once the wanted targets hold the key of their source it makes no
difference that they were saved. -/
theorem Stop.mapM_make_stamped (keyed : stop.Keyed r pk) (sound : Sound r e)
    (stamp : stop.stamp = some (stop.column, key))
    (saves : stop.asked.edge.associateOnly = false) (ne : stop.column ≠ pk)
    (plain : stop.target.association? stop.column = none) {keys wanted : List Value}
    (nonnull : ∀ k ∈ keys, k ≠ .null) (isWanted : ∀ k ∈ keys, k ∈ wanted)
    (exactly : ∀ k ∈ keys, Linking.HoldsExactly pk k (e.database.openTable stop.target.name)) :
    let run := (keys.map fun k => Item.record [(pk, k)]).mapM (stop.make r options) e
    (∃ k ∈ keys, ∃ err,
      storing options.validate (stampedRow stop.target pk stop.column key k)
          (run.2.database.openTable stop.target.name) = .error err ∧
        run.1 = .error (Failure.ofStorageUnder stop.asked.label stop.target err)) ∨
    ∃ rows e', run = (.ok rows, e') ∧ e'.registry = r ∧
      List.Forall₂ (Row.AlikeUnder pk) rows
        (keys.map fun k => { model := stop.target, data := [(pk, k)] }) ∧
      e'.setTable stop.target.name (Linking.pointTargets pk stop.column key wanted
          (e'.database.openTable stop.target.name)) =
        e.setTable stop.target.name (Linking.pointTargets pk stop.column key wanted
          (e.database.openTable stop.target.name)) := by
  intro run
  induction keys generalizing e with
  | nil => exact .inr ⟨[], e, rfl, sound.1, .nil, rfl⟩
  | cons k rest ih =>
      obtain ⟨here, others⟩ := List.forall_mem_cons.mp nonnull
      obtain ⟨first, later⟩ := List.forall_mem_cons.mp exactly
      have made : stop.make r options (.record [(pk, k)]) e = _ :=
        make_stamped keyed sound.1 here stamp saves ne plain
      have upholds : Upholds (Sound r) (stop.make r options (.record [(pk, k)]) : Run Engine Row) :=
        stop.upholds_make _
      have start : run = ((stop.make r options (.record [(pk, k)]) >>= fun row => do
          let rows ← (rest.map fun k => Item.record [(pk, k)]).mapM (stop.make r options)
          pure (row :: rows) : Run Engine (List Row)) e) := by
        rw [← List.mapM_cons]
        rfl
      have there (t : Table) :
          (e.setTable stop.target.name t).database.openTable stop.target.name = t :=
        Database.openTable_setTable_self ..
      cases answer : storing options.validate (stampedRow stop.target pk stop.column key k)
          (e.database.openTable stop.target.name) with
      | error err =>
          rw [answer] at made
          rw [Action.bind_run_error made] at start
          refine .inl ⟨k, List.mem_cons_self, err, ?_, by rw [start]⟩
          rw [start, there, answer]
      | ok stored =>
          obtain ⟨data, t⟩ := stored
          rw [answer] at made
          obtain ⟨pointed, sameKeys, holds⟩ := Linking.storing_stamped
            (mapError_eq_ok_iff.mpr keyed.keyed) ne.symm here (sound.2.current _) first
            (isWanted k List.mem_cons_self) answer
          rw [Action.bind_run_ok made] at start
          have next := ih (e := e.setTable stop.target.name t) (upholds.after sound made) others
            (fun k member => isWanted k (List.mem_cons_of_mem _ member)) fun k member => by
              rw [there]
              exact (later k member).of_sameKeys sameKeys
          obtain ⟨k', member, err, refused, failed⟩ | ⟨rows, e', done, registry, alike, same⟩ :=
            next
          · refine .inl ⟨k', List.mem_cons_of_mem _ member, err, ?_⟩
            rw [start, Action.bind_run_error (Prod.ext failed rfl)]
            exact ⟨refused, rfl⟩
          · refine .inr ⟨_ :: rows, e', start.trans (Action.bind_run_ok done), registry,
              .cons ⟨rfl, rfl, ?_⟩ alike, ?_⟩
            · rw [Row.get?, Row.get?, holds]
              simp
            · rw [same, there, pointed, Engine.setTable_setTable_self]

/-- A row whose key is held by its targets has no column for theirs. -/
theorem keyIsWritten_of_isOwnedByTarget {a : Association} {column : String} {draft : Draft}
    (owned : a.kind.isOwnedByTarget = true) : keyIsWritten a column draft = false := by
  have other : a.kind ≠ .belongsTo := fun kind => by
    rw [kind] at owned
    cases owned
  rw [keyIsWritten, beq_false_of_ne other, Bool.false_and]

section Single

variable {m target : Model} {row : Row} {i : Include} {a : Association} {sourcePk : String}
variable {mode : WriteMode} {draft : Draft} {supplied supplied' : Linked Item}

/-- A walk over one include makes the supplied items into rows, connects these with the row, and
reads the row again. It only reads it again if a written key decides. -/
theorem persist_single (sourceKeyed : m.primaryKey = .ok sourcePk)
    (association : m.association? i.label = some a) (known : r.get? a.target = some target) :
    let stop : Stop := ⟨i, a, target, r.foreignKey m a, sourcePk, row, mode⟩
    let reread : RowRun Engine Unit := RowRun.ofAction (Failure.ofStorage m)
      (Linking.reload (.ofIncludes (Include.toRequests [i]) options.transaction))
    persist r options m (draft.link i.label supplied) mode [i] row e =
      if keyIsWritten a (r.foreignKey m a) draft then reread row e
      else
        match supplied.toList.mapM (stop.make r options) e with
        | (.ok rows, e₁) =>
          (RowRun.ofAction (Failure.ofStorage m)
            (Linking.setAssociation i.label (.ofList a.kind.isToMany rows)) >>= fun _ => reread)
              row e₁
        | (.error failure, e₁) => ((.error failure, row), e₁) := by
  intro stop reread
  have primary : primaryKey m = .ok sourcePk := mapError_eq_ok_iff.mpr sourceKeyed
  have given : (draft.link i.label supplied).associations.get? i.edge.label = some supplied :=
    Dict.get?_insert_self ..
  have written : keyIsWritten a (r.foreignKey m a) (draft.link i.label supplied) =
      keyIsWritten a (r.foreignKey m a) draft := rfl
  have labelled : m.association? i.edge.label = some a := association
  have start : persist r options m (draft.link i.label supplied) mode [i] row e =
      (writeOne r options m (draft.link i.label supplied) mode sourcePk i >>= fun _ => reread)
        row e := by
    rw [persist, enclose, if_neg (by simp), primary]
    show (writeAll r options m (draft.link i.label supplied) mode sourcePk [i] >>= fun _ => reread)
      row e = _
    rw [writeAll, writeAll, bind_assoc]
    rfl
  rw [start, writeOne_eq, writeEdge, given, labelled]
  simp only [known, written]
  split
  · rfl
  · rw [bind_assoc, RowAction.bind_run_ok (show RowRun.row row e = ((.ok row, row), e) from rfl),
      bind_assoc]
    have make : (coerce options i.edge (Include.depthOf i.children)
        (fun target draft mode => persist r options target draft mode i.children) target
        (Cascade.stamp mode a (r.foreignKey m a) sourcePk row) : Item → Run Engine Row) =
      stop.make r options := rfl
    rw [RowRun.ofRun_bind_run, make]
    generalize supplied.toList.mapM (stop.make r options) e = run
    obtain ⟨result, e₁⟩ := run
    cases result <;> rfl

/-- Rows that are named in either way and attached leave the same tables and end alike. -/
theorem persist_attached (sound : Sound r e) (model : row.model = m)
    (association : m.association? i.label = some a) (known : r.get? a.target = some target)
    (sourceKeyed : m.primaryKey = .ok sourcePk) :
    let stop : Stop := ⟨i, a, target, r.foreignKey m a, sourcePk, row, mode⟩
    stop.Keyed r pk →
    List.Forall₂ (Item.SameName pk) supplied.toList supplied'.toList →
    (stop.stamp = none ∨ i.edge.associateOnly = true ∧ stop.column ≠ pk) →
    EndAlike (persist r options m (draft.link i.label supplied) mode [i] row e)
      (persist r options m (draft.link i.label supplied') mode [i] row e) := by
  intro stop keyed same stamp
  rw [persist_single sourceKeyed association known, persist_single sourceKeyed association known]
  split
  · exact .of_eq rfl
  · have related := Run.Related.mapM (f := stop.make r options) stop.upholds_make
      (fun _ _ _ same sound => stop.make_related keyed sound.1 stamp same) same sound
    have after : Sound r (supplied.toList.mapM (stop.make r options) e).2 :=
      Upholds.mapM stop.upholds_make supplied.toList e sound
    generalize supplied.toList.mapM (stop.make r options) e = run at related after ⊢
    generalize supplied'.toList.mapM (stop.make r options) e = run' at related ⊢
    cases related with
    | bothFailed failure e₁ => exact .of_eq rfl
    | bothAnswered alike e₁ =>
        exact Linking.endAlike_reconnect _ _ (Linking.connect_congr (model ▸ association)
          (after.1.symm ▸ known) (mapError_eq_ok_iff.mpr keyed.keyed)
          (Linking.itemKeys_congr (Linked.forall₂_ofList _ alike)).symm)

/-- Rows that are named by records and saved leave the same tables as rows that are named by
their keys and attached, and end alike, unless the record of one of them is refused as its table
is then. -/
theorem persist_saved (sound : Sound r e) (model : row.model = m)
    (association : m.association? i.label = some a) (known : r.get? a.target = some target)
    (sourceKeyed : m.primaryKey = .ok sourcePk) {before : List Item} {keys : List Value}
    (records : supplied.toList = before ++ keys.map fun k => .record [(pk, k)])
    (bare : supplied'.toList = before ++ keys.map .key) (nonnull : ∀ k ∈ keys, k ≠ .null)
    (single : a.kind.isToMany = false → supplied.toList.length ≤ 1) :
    let stop : Stop := ⟨i, a, target, r.foreignKey m a, sourcePk, row, mode⟩
    stop.Keyed r pk → stop.stamp = some (stop.column, key) → i.edge.associateOnly = false →
    stop.column ≠ pk → target.association? stop.column = none →
    (∀ rows e₁, before.mapM (stop.make r options) e = (.ok rows, e₁) →
      (∃ wanted, Linking.itemKeys pk rows = .ok wanted) ∧
        ∀ k ∈ keys, Linking.HoldsExactly pk k (e₁.database.openTable target.name)) →
    let run := persist r options m (draft.link i.label supplied) mode [i] row e
    EndAlike run (persist r options m (draft.link i.label supplied') mode [i] row e) ∨
      ∃ k ∈ keys, ∃ err,
        storing options.validate (stampedRow target pk stop.column key k)
          (run.2.database.openTable target.name) = .error err ∧
        run.1.1 = .error (Failure.ofStorageUnder i.label target err) := by
  intro stop keyed stamp saves ne plain settled
  obtain nothing | ⟨_, owned, source, stamped⟩ := stop.stamp_cases
  · cases stamp.symm.trans nothing
  obtain ⟨-, rfl⟩ := Prod.mk.inj (Option.some.inj (stamp.symm.trans stamped))
  have unwritten : ¬keyIsWritten a (r.foreignKey m a) draft = true :=
    ne_true_of_eq_false (keyIsWritten_of_isOwnedByTarget owned)
  dsimp only
  rw [persist_single sourceKeyed association known, persist_single sourceKeyed association known,
    if_neg unwritten, if_neg unwritten, records, bare, List.mapM_append, List.mapM_append,
    Action.bind_run, Action.bind_run]
  have kept : Sound r (before.mapM (stop.make r options) e).2 :=
    Upholds.mapM stop.upholds_make before e sound
  generalize walked : List.mapM (stop.make r options) before e = first at settled kept ⊢
  obtain ⟨result, e₁⟩ := first
  cases result with
  | error failure => exact .inl (.of_eq rfl)
  | ok rows =>
      obtain ⟨⟨wanted, first⟩, exactly⟩ := settled rows e₁ rfl
      dsimp only at kept ⊢
      rw [Action.bind_run_ok (stop.mapM_make_key keyed kept.1 keys)]
      have isWanted : ∀ k ∈ keys, k ∈ wanted ++ keys :=
        fun k member => List.mem_append_right _ member
      obtain ⟨k, member, err, refused, failed⟩ | ⟨rows', e', done, registry, alike, same⟩ :=
        Stop.mapM_make_stamped keyed kept stamp saves ne plain nonnull isWanted exactly
      · refine .inr ⟨k, member, err, ?_⟩
        rw [Action.bind_run_error (Prod.ext failed rfl)]
        exact ⟨refused, rfl⟩
      · have named := Linking.itemKeys_named pk target nonnull
        have recorded := (Linking.itemKeys_congr alike).symm.trans named
        have keysOf {others : List Row} (length : others.length = keys.length)
            (later : Linking.itemKeys pk others = .ok keys) :
            Linking.itemKeys pk (Linked.ofList a.kind.isToMany (rows ++ others)).toList =
              .ok (wanted ++ keys) := by
          rw [Linked.toList_ofList]
          · exact Linking.itemKeys_append first later
          · rw [List.length_append, length, Action.length_of_mapM_ok walked]
            simpa [records] using single
        have sourceOf : Linking.sourceKey row.model row.data = .ok key :=
          (Linking.sourceKey_ok_iff (model ▸ mapError_eq_ok_iff.mpr sourceKeyed)).mpr source
        refine .inl ?_
        rw [Action.bind_run_ok done]
        refine Linking.endAlike_repoint _ _ (model ▸ association) (registry.trans kept.1.symm)
          (kept.1.symm ▸ known) (mapError_eq_ok_iff.mpr keyed.keyed) owned sourceOf
          (keysOf (by simpa using alike.length_eq) recorded)
          (keysOf (List.length_map _) named) ?_
        rw [kept.1, model]
        exact same

/-- Naming stored rows by their keys or by records that hold nothing but these keys leaves the
same tables and ends alike, if no key is written into them in advance or if they are only to be
attached. Otherwise the records are saved. With supplied rows in front of them that are stored
then, and with keys that no other key in the table passes for, the two ways leave the same tables
and end alike as well, unless the record of one of them is refused as its table is then. -/
theorem persist_named (named : r.Named) (sound : Sound r e) (model : row.model = m)
    (association : m.association? i.label = some a) (known : r.get? a.target = some target)
    (sourceKeyed : m.primaryKey = .ok sourcePk) (keyed : target.primaryKey = .ok pk)
    (plain : target.association? pk = none) :
    let stop : Stop := ⟨i, a, target, r.foreignKey m a, sourcePk, row, mode⟩
    let run (supplied : Linked Item) :=
      persist r options m (draft.link i.label supplied) mode [i] row e
    (∀ supplied supplied', List.Forall₂ (Item.SameName pk) supplied.toList supplied'.toList →
      (stop.stamp = none ∨ i.edge.associateOnly = true ∧ stop.column ≠ pk) →
      EndAlike (run supplied) (run supplied')) ∧
    (∀ (supplied supplied' : Linked Item) (before : List Item) (keys : List Value),
      supplied.toList = before ++ keys.map (fun k => .record [(pk, k)]) →
      supplied'.toList = before ++ keys.map .key →
      (∀ k ∈ keys, k ≠ .null) → (a.kind.isToMany = false → supplied.toList.length ≤ 1) →
      stop.column ≠ pk → target.association? stop.column = none →
      (∀ rows e₁, before.mapM (stop.make r options) e = (.ok rows, e₁) →
        (∃ wanted, Linking.itemKeys pk rows = .ok wanted) ∧
          ∀ k ∈ keys, Linking.HoldsExactly pk k (e₁.database.openTable target.name)) →
      EndAlike (run supplied) (run supplied') ∨
      ∃ k ∈ keys, ∃ key err, stop.stamp = some (stop.column, key) ∧
        storing options.validate (stampedRow target pk stop.column key k)
          ((run supplied).2.database.openTable target.name) = .error err ∧
        (run supplied).1.1 = .error (Failure.ofStorageUnder i.label target err)) := by
  intro stop run
  have stopKeyed : stop.Keyed r pk :=
    { known := (named _ _ known).symm ▸ known, keyed, plain }
  have attached (supplied supplied' : Linked Item)
      (same : List.Forall₂ (Item.SameName pk) supplied.toList supplied'.toList)
      (attached : stop.stamp = none ∨ i.edge.associateOnly = true ∧ stop.column ≠ pk) :
      EndAlike (run supplied) (run supplied') :=
    persist_attached sound model association known sourceKeyed stopKeyed same attached
  refine ⟨attached, fun supplied supplied' before keys records bare nonnull single ne columnPlain
    settled => ?_⟩
  have same : List.Forall₂ (Item.SameName pk) supplied.toList supplied'.toList := by
    rw [records, bare]
    refine List.rel_append (List.forall₂_same.mpr fun item _ => .refl item) ?_
    rw [List.forall₂_map_left_iff, List.forall₂_map_right_iff]
    exact List.forall₂_same.mpr fun k member => .keyed (nonnull k member)
  obtain stamp | ⟨key, -, -, stamp⟩ := stop.stamp_cases
  · exact .inl (attached supplied supplied' same (.inl stamp))
  · cases only : i.edge.associateOnly with
    | true => exact .inl (attached supplied supplied' same (.inr ⟨only, ne⟩))
    | false =>
        obtain alike | ⟨k, member, err, refused, failed⟩ := persist_saved sound model association
          known sourceKeyed records bare nonnull single stopKeyed stamp only ne columnPlain settled
        · exact .inl alike
        · exact .inr ⟨k, member, key, err, stamp, refused, failed⟩

end Single

section Shelf

open Linking (author book books library)

/-- A library of two books, where the second one has an author that is not stored, and of one
author. The books are of a given model, and belong to authors as given. -/
def twoBooks (a : Association) (b : Model) : Engine :=
  let writer : Model := { author with associations := [a] }
  Command.run
    [.create b [] {}, .create b [("authorId", .ofInt 5)] {}, .create writer [] {}]
    (Engine.ofRegistry [("Author", writer), ("Book", b)])

/-- Connecting the author with items. -/
def connectBooks (a : Association) (b : Model) (i : Include) (mode : WriteMode)
    (items : List Item) : (Except Failure Unit × Row) × Engine :=
  let writer : Model := { author with associations := [a] }
  persist [("Author", writer), ("Book", b)] {} writer (Draft.link {} "books" (.many items)) mode
    [i] { model := writer, data := [("id", .ofInt 1)] } (twoBooks a b)

/-- The books of an author. -/
def theirBooks : Include :=
  .plain { target := "Book", label := "books" }

/-- The books that are stored after a run. -/
def storedBooks (run : (Except Failure Unit × Row) × Engine) : List Record :=
  (run.2.database.openTable "Book").rows.map (·.data)

/-- A book that is named by a record. -/
def bookOf (key : Value) : Item :=
  .record [("id", key)]

/-- A stored book. -/
def shelved (authorId id : Value) : Record :=
  [("authorId", authorId), ("id", id)]

/-- An author that was created before claims a book by its key or by a record, and so does an
author that was just created. -/
theorem persist_named_books :
    EndAlike (connectBooks books book theirBooks .update [bookOf (.ofInt 1)])
        (connectBooks books book theirBooks .update [.key (.ofInt 1)]) ∧
      EndAlike (connectBooks books book theirBooks .create [bookOf (.ofInt 1)])
        (connectBooks books book theirBooks .create [.key (.ofInt 1)]) ∧
      storedBooks (connectBooks books book theirBooks .create [.key (.ofInt 1)]) =
        [shelved (.ofInt 1) (.ofInt 1), shelved (.ofInt 5) (.ofInt 2)] := by
  have sound : Sound library (twoBooks books book) :=
    ((Sound.create ⟨rfl, Engine.ordered_ofRegistry library⟩ book [] {}).create book
      [("authorId", .ofInt 5)] {}).create author [] {}
  have named : library.Named :=
    (Registry.named_nil.register (m := author) rfl).register (m := book) rfl
  have here (mode : WriteMode) :=
    @persist_named library {} (twoBooks books book) "id" author book
      { model := author, data := [("id", .ofInt 1)] } theirBooks books "id" mode {} named sound
      rfl rfl rfl rfl rfl rfl
  have nonnull : Value.ofInt 1 ≠ .null := nofun
  have exactly : Linking.HoldsExactly "id" (.ofInt 1)
      ((twoBooks books book).database.openTable "Book") := by
    show ∀ o ∈ [some (Value.ofInt 1), some (.ofInt 2)], ∀ v, o = some v → v.same (.ofInt 1) = true →
      v = .ofInt 1
    rintro o member v rfl same
    obtain rfl | rfl : v = .ofInt 1 ∨ v = .ofInt 2 := by simpa using member
    · rfl
    · cases same
  have alike := (here .create).2 (.many [bookOf (.ofInt 1)]) (.many [.key (.ofInt 1)])
    [] [.ofInt 1] rfl rfl (List.forall_mem_singleton.mpr nonnull) nofun (by decide) rfl
    fun _ _ walked => by
      cases walked
      exact ⟨⟨[], rfl⟩, List.forall_mem_singleton.mpr exactly⟩
  have answered : (connectBooks books book theirBooks .create [bookOf (.ofInt 1)]).1.1 =
      .ok () := by rfl
  refine ⟨(here .update).1 (.many [bookOf (.ofInt 1)]) (.many [.key (.ofInt 1)])
    (.cons (.keyed nonnull) .nil) (.inl rfl), alike.resolve_right ?_, by rfl⟩
  rintro ⟨_, _, _, err, -, -, failed⟩
  cases answered.symm.trans failed

/-- Books whose key is written by their author. -/
def numberedBooks : Association :=
  { books with foreignKey := some "id" }

def theirBooksOnly : Include :=
  .plain { target := "Book", label := "books", associateOnly := true }

/-- Books with an association that answers to the name of their key. -/
def copiedBook : Model :=
  { book with
    associations :=
      [{ key := "id", kind := .belongsTo, target := "Author", declaredAlias := some "original" }] }

/-- Books with an association that answers to the name of the column for their author. -/
def editedBook : Model :=
  { book with
    attributes := book.attributes ++
      [{ name := "editorId", dataType := .integer, allowNull := true }]
    associations :=
      [{ key := "authorId", kind := .belongsTo, target := "Author"
         foreignKey := some "editorId", declaredAlias := some "editor" }] }

def theirEditedBooks : Include :=
  .nested { target := "Book", label := "books" } { model := "Book" }
    [.plain { target := "Author", label := "editor" }]

/-- Books with an author that no other book has. -/
def onlyBook : Model :=
  { book with
    attributes :=
      [.identity "id",
        { name := "authorId", dataType := .integer, allowNull := true, unique := true }] }

/-- The one book of an author. -/
def theirFirst : Association :=
  { books with kind := .hasOne }

/-- It makes a difference whether a book is named by its key or by a record, if the record is
saved. A book that is not stored is refused, and one whose key is written in another way is given
this key. Later items meet what has been saved, and it stays if an earlier item names nothing or
if there is only one place. Attached or saved, a record does not name its book any more if its
key is written over, or if it is read as something that belongs to the book. -/
theorem persist_named_differs :
    let claim := connectBooks books book theirBooks .create
    let one : Value := .num (.float ⟨0x3ff0000000000000⟩)
    ((claim [bookOf (.ofInt 7)]).1.1 = .error (.storage .notFound) ∧
      (claim [.key (.ofInt 7)]).1.1 = .ok ()) ∧
    (storedBooks (claim [bookOf one]) =
        [shelved (.ofInt 1) one, shelved (.ofInt 5) (.ofInt 2)] ∧
      storedBooks (claim [.key one]) =
        [shelved (.ofInt 1) (.ofInt 1), shelved (.ofInt 5) (.ofInt 2)]) ∧
    (storedBooks (claim [.key .null, bookOf (.ofInt 1)]) =
        [shelved (.ofInt 1) (.ofInt 1), shelved (.ofInt 5) (.ofInt 2)] ∧
      storedBooks (claim [.key .null, .key (.ofInt 1)]) =
        [shelved .null (.ofInt 1), shelved (.ofInt 5) (.ofInt 2)]) ∧
    (let claim := connectBooks books onlyBook theirBooks .create
      let stored := [shelved (.ofInt 1) (.ofInt 1), shelved (.ofInt 5) (.ofInt 2)]
      storedBooks (claim [bookOf (.ofInt 1), .record []]) = stored ∧
      storedBooks (claim [.key (.ofInt 1), .record []]) =
        stored ++ [shelved (.ofInt 1) (.ofInt 3)]) ∧
    (let claim := connectBooks theirFirst book theirBooks .create
      let first := shelved (.ofInt 1) (.ofInt 1)
      storedBooks (claim [bookOf (.ofInt 1), bookOf (.ofInt 2)]) =
        [first, shelved .null (.ofInt 2)] ∧
      storedBooks (claim [.key (.ofInt 1), .key (.ofInt 2)]) =
        [first, shelved (.ofInt 5) (.ofInt 2)]) ∧
    (let claim := connectBooks numberedBooks book theirBooksOnly .create
      let first := shelved .null
      storedBooks (claim [bookOf (.ofInt 2)]) =
        [first (.ofInt 1), shelved (.ofInt 5) (.ofInt 2)] ∧
      storedBooks (claim [.key (.ofInt 2)]) = [first .null, shelved (.ofInt 5) (.ofInt 1)]) ∧
    (let claim := connectBooks books copiedBook theirBooks .update
      let second := shelved (.ofInt 5) (.ofInt 2)
      storedBooks (claim [bookOf (.ofInt 1)]) = [shelved .null (.ofInt 1), second] ∧
      storedBooks (claim [.key (.ofInt 1)]) = [shelved (.ofInt 1) (.ofInt 1), second]) ∧
    (let claim := connectBooks books editedBook theirEditedBooks .create
      let editors := fun run => (storedBooks run).map (·.get? "editorId")
      editors (claim [bookOf (.ofInt 1)]) = [some (.ofInt 1), some .null] ∧
      editors (claim [.key (.ofInt 1)]) = [some .null, some .null]) :=
  ⟨⟨rfl, by rfl⟩, ⟨rfl, rfl⟩, ⟨rfl, rfl⟩, ⟨rfl, rfl⟩, ⟨rfl, rfl⟩, ⟨rfl, rfl⟩, ⟨rfl, rfl⟩,
    rfl, rfl⟩

end Shelf

end Cascade

end RecordGraph
