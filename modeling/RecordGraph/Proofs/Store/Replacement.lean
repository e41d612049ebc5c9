import RecordGraph.Proofs.Store.Connecting

/-!
# Connecting a row replaces its related rows

After a row has been connected under a label, reading it again with everything under
that label files the wanted rows, each of them once, whatever was connected before.
Setting and loading are separate mechanisms, one of each for every kind of association;
what they have in common is `Connected`: the keys of all rows stay, and what is reached
are the live target rows that have one of the wanted keys.

Rows that hold another row's key keep it. A stored floating-point number may be the
same as the keys of two rows, though; a row that holds one is connected with both of
them, and loses the connection when either is connected anew.
-/

namespace RecordGraph.Linking

variable {e e' : Engine} {row row' : Row} {label : String} {linked : Linked Row}
variable {a : Association} {target : Model} {sourcePk targetPk : String} {key : Value}
variable {wanted : List Value}

/-- The table with the column that connects the rows of an association. -/
def linkTable? (a : Association) (source target : Model) : Option String :=
  match a.kind with
  | .belongsTo => some source.name
  | .hasOne | .hasMany => some target.name
  | .belongsToMany => a.through

/-- Whether a row of this table is connected with the source, or is itself a wanted row. -/
def isConcerned (r : Registry) (source : Model) (a : Association) (sourcePk targetPk : String)
    (key : Value) (wanted : List Value) (stored : StoredRow) : Bool :=
  match a.kind with
  | .belongsTo => stored.has sourcePk key
  | .hasOne | .hasMany =>
    stored.has (r.foreignKey source a) key || holdsAny stored.data targetPk wanted
  | .belongsToMany => stored.has (r.foreignKey source a) key

/-- The rows that connect other rows stay as they are, in their order, and so do all other
tables. -/
structure Spares (e e' : Engine) (source : Model) (a : Association) (target : Model)
    (sourcePk targetPk : String) (key : Value) (wanted : List Value) : Prop where
  elsewhere : ∀ name, linkTable? a source target ≠ some name →
    e'.database.openTable name = e.database.openTable name
  within : ∀ name, linkTable? a source target = some name →
    ((e.database.openTable name).rows.filter fun stored =>
      !isConcerned e.registry source a sourcePk targetPk key wanted stored).Sublist
        (e'.database.openTable name).rows

theorem filter_sublist_map {α : Type} {p : α → Bool} {f : α → α} {items : List α}
    (fixed : ∀ x, p x = true → f x = x) : (items.filter p).Sublist (items.map f) := by
  induction items with
  | nil => exact .slnil
  | cons x rest ih =>
      rw [List.filter_cons, List.map_cons]
      split
      · rw [fixed x ‹_›]
        exact ih.cons_cons x
      · exact ih.cons _

theorem filter_sublist_set {α : Type} {p : α → Bool} {items : List α} {i : Nat} {x y : α}
    (found : items[i]? = some x) (dropped : p x = false) :
    (items.filter p).Sublist (items.set i y) := by
  induction items generalizing i with
  | nil => exact .slnil
  | cons z rest ih =>
      cases i with
      | zero =>
          cases found
          rw [List.filter_cons, dropped]
          exact List.filter_sublist.cons y
      | succ i =>
          have rest := ih found
          rw [List.filter_cons, List.set_cons_succ]
          split
          · exact rest.cons_cons z
          · exact rest.cons z

theorem Spares.of_setTable {name : String} {t : Table}
    (at_name : linkTable? a row.model target = some name)
    (within : ((e.database.openTable name).rows.filter fun stored =>
      !isConcerned e.registry row.model a sourcePk targetPk key wanted stored).Sublist t.rows) :
    Spares e (e.setTable name t) row.model a target sourcePk targetPk key wanted := by
  constructor
  · intro other ne
    refine Database.openTable_setTable_of_ne _ _ fun eq => ne ?_
    rw [at_name, eq]
  · intro other at_other
    obtain rfl := Option.some.inj (at_name.symm.trans at_other)
    rw [Engine.setTable, Database.openTable_setTable_self]
    exact within

/-- Whatever the kind of the association, the rows of others are spared. -/
theorem Connects.spares {items : List Row} {connected : Row}
    (connects : Connects e row a target targetPk (e.registry.foreignKey row.model a) wanted
      connected e')
    (h : Linkable e row label items a target sourcePk targetPk key)
    (c : Connected e e' row connected a target sourcePk targetPk key wanted) :
    Spares e e' row.model a target sourcePk targetPk key wanted := by
  cases connects with
  | belongsTo kind source place written =>
      obtain rfl := Option.some.inj
        (((sourceKey_ok_iff h.sourceKeyed).mp source).symm.trans c.keyed)
      obtain ⟨old, found, has⟩ := Table.position?_ok h.sourceKeyed place
      obtain ⟨_, _, _, _, rfl⟩ := Table.updateAt_ok written
      refine .of_setTable (by simp [linkTable?, kind]) (filter_sublist_set found ?_)
      simp [isConcerned, kind, has]
  | @pointed other kind source =>
      obtain rfl := Option.some.inj
        (((sourceKey_ok_iff h.sourceKeyed).mp source).symm.trans h.keyed)
      have at_target : linkTable? a row.model target = some target.name := by
        cases owned : a.kind <;> simp_all [linkTable?, AssociationKind.isOwnedByTarget]
      refine .of_setTable at_target (filter_sublist_map fun stored spared => ?_)
      have free : holdsAny stored.data targetPk wanted = false ∧
          stored.has (e.registry.foreignKey row.model a) other = false := by
        cases owned : a.kind <;>
          simp_all [isConcerned, AssociationKind.isOwnedByTarget]
      simp [free]
  | paired kind source join =>
      obtain rfl := Option.some.inj
        (((sourceKey_ok_iff h.sourceKeyed).mp source).symm.trans h.keyed)
      refine .of_setTable (by simp [linkTable?, kind, join]) ?_
      simp only [isConcerned, kind, pairTargets_rows]
      exact List.sublist_append_left _ _

theorem Connects.connected {items : List Row} {connected : Row}
    (connects : Connects e row a target targetPk (e.registry.foreignKey row.model a) wanted
      connected e')
    (h : Linkable e row label items a target sourcePk targetPk key)
    (nonnull : ∀ k ∈ wanted, k ≠ .null) (size : wanted.length = items.length) :
    Connected e e' row connected a target sourcePk targetPk key wanted := by
  cases connects with
  | belongsTo kind source place written =>
      have single : wanted.length ≤ 1 := by
        rw [size]
        exact h.single (by rw [kind]; rfl)
      exact connected_belongsTo h kind nonnull single source place written
  | pointed kind source => exact connected_pointed h kind source
  | paired kind source join => exact connected_paired h kind source join

/-- Reading a connected row again answers the wanted rows, each once. -/
theorem Connected.reload {items : List Row}
    (c : Connected e e' row row' a target sourcePk targetPk key wanted)
    (h : Linkable e row label items a target sourcePk targetPk key)
    (keys : items.map (·.get? targetPk) = wanted.map some) (nonnull : ∀ k ∈ wanted, k ≠ .null)
    (required : Bool) :
    ∃ loaded again,
      reload { includes := some [Request.plainInclude a.target label required] } row' e' =
        ((.ok (), again), e') ∧
      again.related? label = some (.ofList a.kind.isToMany loaded) ∧
      (loaded.map (·.get? targetPk)).Perm (items.map (·.get? targetPk)) ∧
      ∀ other ∈ loaded, other.model = target ∧
        other.data ∈ (e'.database.openTable target.name).liveRecords := by
  have notNull := (Value.present?_eq_some_iff.mp h.keyed).2
  obtain ⟨data, member, data_key⟩ := c.sourceKeys.exists_live h.live
  have found : ((e'.database.openTable row'.model.name).liveWhere sourcePk key).head? =
      some data := by
    rw [c.model, Table.liveWhere_eq, UniqueKey.filter_eq_singleton
      ((c.sourceKeys.uniqueKey h.sourceUnique).sublist (Table.liveRecords_sublist _)) member
      data_key notNull]
    rfl
  have association : row'.model.association? label = some a := c.model ▸ h.association
  have run := reload_plain required (c.model ▸ h.sourceKeyed) c.keyed found association
    (c.registry ▸ h.resolved) h.targetKeyed
  rw [c.model, c.reached data member data_key] at run
  have wanted_live : ∀ k ∈ wanted, ∃ record ∈ (e'.database.openTable target.name).liveRecords,
      record.get? targetPk = some k := by
    intro k member
    have asked : some k ∈ items.map (·.get? targetPk) := keys ▸ List.mem_map_of_mem member
    obtain ⟨item, member, item_key⟩ := List.mem_map.mp asked
    exact item_key ▸ c.targetKeys.exists_live (h.stored item member)
  have wanted_nodup : wanted.Nodup := by
    have distinct := h.distinct
    rw [keys] at distinct
    exact (List.pairwise_map.mp distinct).imp fun ne eq => ne (congrArg some eq)
  have unique := (c.targetKeys.uniqueKey h.targetUnique).sublist (Table.liveRecords_sublist _)
  refine ⟨List.map (Loading.plainRow target) (List.filter (holdsAny · targetPk wanted)
    (e'.database.openTable target.name).liveRecords), _, run, ?_, ?_, ?_⟩
  · simp [Row.related?]
  · rw [keys, List.map_map]
    exact unique.perm_keys nonnull wanted_live wanted_nodup
  · intro other member
    obtain ⟨record, found, rfl⟩ := List.mem_map.mp member
    exact ⟨rfl, (List.mem_filter.mp found).1⟩

/-- The keys of rows. -/
def keysOf (pk : String) (items : List Row) : List Value :=
  items.filterMap (·.get? pk)

theorem keysOf_eq {items : List Row} {pk : String}
    (keys : items.map (·.get? pk) = wanted.map some) : keysOf pk items = wanted := by
  have flat := congrArg (List.filterMap id) keys
  simpa [List.filterMap_map, Function.comp_def, keysOf] using flat

/-- When connecting a row succeeds, reading it again with everything under the label answers
exactly the wanted rows, each once; and rows that connect others to targets which were not
wanted stay as they are. -/
theorem setAssociation_replaces
    (h : Linkable e row label linked.toList a target sourcePk targetPk key)
    (done : setAssociation label linked row e = ((.ok (), row'), e')) :
    (∀ required, ∃ loaded again,
      reload { includes := some [Request.plainInclude a.target label required] } row' e' =
        ((.ok (), again), e') ∧
      again.related? label = some (.ofList a.kind.isToMany loaded) ∧
      (loaded.map (·.get? targetPk)).Perm (linked.toList.map (·.get? targetPk)) ∧
      ∀ other ∈ loaded, other.model = target ∧
        other.data ∈ (e'.database.openTable target.name).liveRecords) ∧
    Spares e e' row.model a target sourcePk targetPk key (keysOf targetPk linked.toList) := by
  obtain ⟨connected, connects, rfl⟩ := setAssociation_ok_iff.mp done
  obtain ⟨a', target', pk, wanted, ends, connects⟩ := connect_ok connects
  obtain rfl := Option.some.inj (ends.association.symm.trans h.association)
  obtain rfl := Option.some.inj (ends.registered.symm.trans h.resolved)
  obtain rfl := Except.ok.inj (ends.primaryKey.symm.trans h.targetKeyed)
  obtain ⟨keys, nonnull⟩ := itemKeys_ok ends.keys
  have size : wanted.length = linked.toList.length := by
    simpa using (congrArg List.length keys).symm
  have c := connects.connected h nonnull size
  rw [keysOf_eq keys]
  refine ⟨fun required => ?_, connects.spares h c⟩
  -- Filing the wanted rows changes neither the key nor the model of the row.
  have filed : Connected e e' row (connected.file label linked) _ _ sourcePk _ key wanted :=
    ⟨c.registry, c.model, c.keyed, c.sourceKeys, c.targetKeys, c.reached⟩
  exact filed.reload h keys nonnull required

section Shelf

/-- The books of an author hold its key. -/
def books : Association :=
  { key := "books", kind := .hasMany, target := "Book", foreignKey := some "authorId" }

def author : Model :=
  { name := "Author", attributes := [.identity "id"], associations := [books] }

def book : Model :=
  { name := "Book"
    attributes :=
      [.identity "id", { name := "authorId", dataType := .integer, allowNull := true }] }

def library : Registry :=
  [("Author", author), ("Book", book)]

/-- Two authors with neighbouring large keys, a book whose author is given as a floating-point
number that is the same as either key, and a book without an author. -/
def shelf : Engine :=
  Command.run
    [.create author [("id", .ofInt 9007199254740992)] {},
      .create author [("id", .ofInt 9007199254740993)] {},
      .create book [("authorId", .num (.float ⟨0x4340000000000000⟩))] {},
      .create book [] {}]
    (Engine.ofRegistry library)

/-- The second author as a row. -/
def second : Row :=
  { model := author, data := [("id", .ofInt 9007199254740993)] }

theorem keeps_shelf : shelf.Keeps library := by
  refine Command.keeps_run_of_keeps (e := Engine.ofRegistry library) ?_ ?_
    Engine.keeps_ofRegistry
  · simp [Command.Registered, Command.model?, Engine.ofRegistry, library, author, book]
  · simp [Command.isLink]

theorem linkable_second {items : List Row}
    (stored : ∀ item ∈ items, ∃ record ∈ (shelf.database.openTable "Book").liveRecords,
      record.get? "id" = item.get? "id")
    (distinct : (items.map (·.get? "id")).Nodup) :
    Linkable shelf second "books" items books book "id" "id" (.ofInt 9007199254740993) := by
  constructor
  case named =>
    exact (Registry.named_nil.register (m := author) rfl).register (m := book) rfl
  case sourceUnique => exact keeps_shelf.uniqueKey rfl rfl
  case targetUnique => exact keeps_shelf.uniqueKey rfl rfl
  case free => exact show "authorId" ≠ "id" by decide
  case ordered => exact Dict.ascending_single ..
  case live => exact ⟨[("id", .ofInt 9007199254740993)], .tail _ (.head _), rfl⟩
  case stored => exact stored
  case distinct => exact distinct
  case single =>
    intro toOne
    cases toOne
  all_goals rfl

/-- The book without an author as a row. -/
def unclaimed : Row :=
  { model := book, data := [("authorId", .null), ("id", .ofInt 2)] }

/-- The second author gets the book without an author, and only this one. -/
theorem setAssociation_replaces_unclaimed :
    let run := setAssociation "books" (.many [unclaimed]) second shelf
    run.1.1 = .ok () ∧ ∃ loaded again,
      reload { includes := some [Request.plainInclude "Book" "books" false] } run.1.2 run.2 =
        ((.ok (), again), run.2) ∧
      again.related? "books" = some (.many loaded) ∧
      (loaded.map (·.get? "id")).Perm [some (.ofInt 2)] := by
  refine ⟨rfl, ?_⟩
  have linkable : Linkable shelf second "books" (Linked.many [unclaimed]).toList books book "id"
      "id" (.ofInt 9007199254740993) :=
    linkable_second (List.forall_mem_singleton.mpr ⟨unclaimed.data, .tail _ (.head _), rfl⟩)
      (List.pairwise_singleton _ _)
  obtain ⟨loaded, again, run, filed, keys, _⟩ := (setAssociation_replaces linkable rfl).1 false
  exact ⟨loaded, again, run, filed, keys⟩

/-- A row that connects another source with a target that is not wanted may change, after
all, when its column is the same as the keys of both: the second author gives up all books,
and the first one loses its book. -/
theorem setAssociation_takes_shared :
    let run := setAssociation "books" (.many []) second shelf
    Linkable shelf second "books" [] books book "id" "id" (.ofInt 9007199254740993) ∧
    run.1.1 = .ok () ∧
    ∃ other ∈ (shelf.database.openTable "Author").liveRecords, ∃ v, other.get? "id" = some v ∧
      v.same (.ofInt 9007199254740993) = false ∧
      ∃ stored ∈ (shelf.database.openTable "Book").rows, stored.has "authorId" v = true ∧
        stored ∉ (run.2.database.openTable "Book").rows := by
  refine ⟨linkable_second (fun _ member => nomatch member) .nil, rfl, ?_⟩
  refine ⟨[("id", .ofInt 9007199254740992)], .head _, .ofInt 9007199254740992, rfl, rfl, ?_⟩
  refine ⟨_, .head _, rfl, fun member => ?_⟩
  have free : (((setAssociation "books" (.many []) second shelf).2.database.openTable
      "Book").rows.all fun stored => !stored.has "authorId" (.ofInt 9007199254740992)) = true := rfl
  have := List.all_eq_true.mp free _ member
  cases this

end Shelf

end RecordGraph.Linking
