import RecordGraph.Proofs.Store.Connecting

/-!
# The columns of a join table

A join table has one column for the source of its association and one for the target, each of
them declared or else called after its model. The two names are made without regard to each
other, and they may come out as one: between the rows of one model, or where the declared name
is what the other column is called anyway. Then the row of a pair has room for one key only, and
that is the target's. The source finds nothing through it, save the targets whose key is its own.
-/

namespace RecordGraph

/-- Whether the columns for the two ends in a join table are one, without being declared so:
neither is declared on an association of a model with itself, or the name of the one that is
declared is that of the other. -/
def Association.SharesColumn (a : Association) (source : Model) : Prop :=
  match a.foreignKey, a.otherKey with
  | none, none => a.target = source.name
  | some column, none => column = a.target ++ "Id"
  | none, some column => column = source.name ++ "Id"
  | some _, some _ => False

/-- The column for the source is that for the target only if it is shared. -/
theorem Registry.foreignKey_eq_joinTargetColumn_iff {r : Registry} {source : Model}
    {a : Association} (kind : a.kind = .belongsToMany)
    (undeclared : ∀ column, a.foreignKey = some column → a.otherKey ≠ some column) :
    r.foreignKey source a = a.joinTargetColumn ↔ a.SharesColumn source := by
  simp only [Registry.foreignKey, kind, Association.joinTargetColumn, Association.SharesColumn]
  cases foreign : a.foreignKey with
  | none =>
      cases other : a.otherKey with
      | none => simp [String.ext_iff, eq_comm]
      | some column => simp [eq_comm]
  | some column =>
      cases other : a.otherKey with
      | none => simp
      | some name =>
          have differ : column ≠ name := fun same => undeclared column foreign (same ▸ other)
          simpa using differ

namespace Linking

variable {e e' : Engine} {row row' : Row} {label : String} {linked : Linked Row}
variable {r : Registry} {d : Database} {source target : Model} {a : Association}
variable {pk column through : String} {key v : Value} {wanted : List Value} {data : Record}
variable {t : Table}

/-- In a column that both ends share stands the key of the target. -/
theorem pairRow_shared : (pairRow column column key v).data = [(column, v)] := by
  simp [pairRow, Dict.ofList, Dict.insert]

/-- Where both ends share a column, the partners of a key are those of the wanted keys that are
the same as it. -/
theorem partners_shared :
    ((pairTargets column column key wanted t).liveWhere column key).filterMap (·.get? column) =
      wanted.filter (·.same key) := by
  have held : (fun v => (pairRow column column key v).has column key) = (·.same key) := by
    funext v
    simp [StoredRow.has, pairRow_shared]
  rw [liveWhere_pairTargets, List.filter_map, List.map_map, List.filterMap_map]
  simp [Function.comp_def, held, pairRow_target]

/-- A row is connected through a join table exactly if the ends can be read, the table is named
and the row has a key. Then its pairs are in there. -/
theorem setAssociation_paired_iff (association : row.model.association? label = some a)
    (kind : a.kind = .belongsToMany) :
    setAssociation label linked row e = ((.ok (), row'), e') ↔
      ∃ target pk through key wanted, Ends e.registry row label linked a target pk wanted ∧
        a.through = some through ∧ sourceKey row.model row.data = .ok key ∧
        row' = row.file label linked ∧
        e' = e.setTable through (pairTargets (e.registry.foreignKey row.model a)
          a.joinTargetColumn key wanted (e.database.openTable through)) := by
  constructor
  · intro done
    obtain ⟨connected, connects, rfl⟩ := setAssociation_ok_iff.mp done
    obtain ⟨b, target, pk, wanted, ends, way⟩ := connect_ok connects
    obtain rfl := Option.some.inj (ends.association.symm.trans association)
    cases way with
    | belongsTo other => simp [kind] at other
    | pointed owned => simp [kind, AssociationKind.isOwnedByTarget] at owned
    | @paired key through _ source join =>
        exact ⟨target, pk, through, key, wanted, ends, join, source, rfl, rfl⟩
  · rintro ⟨target, pk, through, key, wanted, ends, join, keyed, rfl, rfl⟩
    refine setAssociation_ok_iff.mpr ⟨row, ?_, rfl⟩
    rw [connect_of_ends ends, attach, kind]
    simp only [join, keyed]
    rfl

/-- The targets of a record are found by the partners of its key in the join table. -/
theorem associated_of_partners (kind : a.kind = .belongsToMany) (join : a.through = some through)
    (targetKeyed : Loading.primaryKey target = .ok pk) (keyed : sourceKey source data = .ok key)
    (partners : ((d.openTable through).liveWhere (r.foreignKey source a) key).filterMap
      (·.get? a.joinTargetColumn) = wanted) :
    Loading.associated r d source a target data =
      .ok ((d.openTable target.name).liveRecords.filter (holdsAny · pk wanted)) := by
  obtain ⟨sourcePk, sourceKeyed, -⟩ := bind_eq_ok_iff.mp keyed
  have present := (sourceKey_ok_iff sourceKeyed).mp keyed
  rw [Loading.associated_eq targetKeyed sourceKeyed]
  simp only [Loading.reached, kind, present, join, partners]

/-- What there is after a row has been connected through a join table. -/
structure Joined (e e' : Engine) (row : Row) (a : Association) (target : Model)
    (pk through : String) (key : Value) (wanted : List Value) (pair : Value → StoredRow) :
    Prop where
  /-- For each wanted key there is one row, in place of what the table had for the row. -/
  rows : (e'.database.openTable through).rows =
    (e.database.openTable through).rows.filter
      (fun stored => !stored.has (e.registry.foreignKey row.model a) key) ++ wanted.map pair
  both (apart : ¬ a.SharesColumn row.model) (v : Value) :
    (pair v).data.get? (e.registry.foreignKey row.model a) = some key ∧
      (pair v).data.get? a.joinTargetColumn = some v
  /-- Through two columns exactly the wanted targets are found. -/
  found (apart : ¬ a.SharesColumn row.model) :
    Loading.associated e'.registry e'.database row.model a target row.data =
      .ok ((e'.database.openTable target.name).liveRecords.filter (holdsAny · pk wanted))
  single (shared : a.SharesColumn row.model) (v : Value) :
    (pair v).data = [(a.joinTargetColumn, v)]
  /-- Through one column only wanted targets are found whose key is the same as that of the row. -/
  missed (shared : a.SharesColumn row.model) :
    Loading.associated e'.registry e'.database row.model a target row.data =
      .ok ((e'.database.openTable target.name).liveRecords.filter
        (holdsAny · pk (wanted.filter (·.same key))))

theorem joined_pairTargets (kind : a.kind = .belongsToMany) (join : a.through = some through)
    (undeclared : ∀ column, a.foreignKey = some column → a.otherKey ≠ some column)
    (targetKeyed : Loading.primaryKey target = .ok pk)
    (keyed : sourceKey row.model row.data = .ok key) :
    Joined e (e.setTable through (pairTargets (e.registry.foreignKey row.model a)
        a.joinTargetColumn key wanted (e.database.openTable through)))
      row a target pk through key wanted
      (pairRow (e.registry.foreignKey row.model a) a.joinTargetColumn key) := by
  have same : e.registry.foreignKey row.model a = a.joinTargetColumn ↔
      a.SharesColumn row.model :=
    Registry.foreignKey_eq_joinTargetColumn_iff kind undeclared
  constructor
  case rows => rw [Engine.setTable, Database.openTable_setTable_self, pairTargets_rows]
  case both => exact fun apart v => ⟨pairRow_source (mt same.mp apart), pairRow_target⟩
  case found =>
    intro apart
    refine associated_of_partners kind join targetKeyed keyed ?_
    rw [Engine.setTable, Database.openTable_setTable_self]
    exact partners_pairTargets (mt same.mp apart)
  case single =>
    intro shared v
    rw [same.mpr shared, pairRow_shared]
  case missed =>
    intro shared
    refine associated_of_partners kind join targetKeyed keyed ?_
    simp only [Engine.setTable, Database.openTable_setTable_self, same.mpr shared]
    exact partners_shared

/-- The columns for the ends of an association in its join table are different exactly if they
are not shared. A row can be connected wherever its ends can be read, the table is named and the
row has a key. If the columns are different, the rows that this puts into the table hold both
keys, and the row finds exactly the wanted targets. If the columns are shared, they hold the key
of the target alone, and the row finds none of the targets but those whose key is its own. -/
theorem setAssociation_join_columns (association : row.model.association? label = some a)
    (kind : a.kind = .belongsToMany)
    (undeclared : ∀ column, a.foreignKey = some column → a.otherKey ≠ some column) :
    (e.registry.foreignKey row.model a ≠ a.joinTargetColumn ↔ ¬ a.SharesColumn row.model) ∧
      (∀ linked target pk through key wanted,
        Ends e.registry row label linked a target pk wanted → a.through = some through →
          sourceKey row.model row.data = .ok key →
            ∃ row' e', setAssociation label linked row e = ((.ok (), row'), e')) ∧
      ∀ linked row' e', setAssociation label linked row e = ((.ok (), row'), e') →
        ∃ target pk through key wanted pair, Ends e.registry row label linked a target pk wanted ∧
          a.through = some through ∧ sourceKey row.model row.data = .ok key ∧
          Joined e e' row a target pk through key wanted pair := by
  refine ⟨not_congr (Registry.foreignKey_eq_joinTargetColumn_iff kind undeclared), ?_, ?_⟩
  · intro linked target pk through key wanted ends join keyed
    exact ⟨_, _, (setAssociation_paired_iff association kind).mpr
      ⟨target, pk, through, key, wanted, ends, join, keyed, rfl, rfl⟩⟩
  · intro linked row' e' done
    obtain ⟨target, pk, through, key, wanted, ends, join, keyed, rfl, rfl⟩ :=
      (setAssociation_paired_iff association kind).mp done
    exact ⟨target, pk, through, key, wanted, _, ends, join, keyed,
      joined_pairTargets kind join undeclared ends.primaryKey keyed⟩

section Circle

/-- The friends of a peer, and the tags. -/
def friends : Association :=
  { key := "friends", kind := .belongsToMany, target := "Peer", through := some "Friendship" }

def tags : Association :=
  { key := "tags", kind := .belongsToMany, target := "Tag", through := some "PeerTag" }

def peer : Model :=
  { name := "Peer", attributes := [.identity "id"], associations := [friends, tags] }

def tag : Model :=
  { name := "Tag", attributes := [.identity "id"] }

/-- Two peers and a tag. -/
def circle : Engine :=
  Command.run [.create peer [] {}, .create peer [] {}, .create tag [] {}]
    (Engine.ofRegistry [("Peer", peer), ("Tag", tag)])

/-- The first peer gets the tag, and finds it. -/
theorem setAssociation_join_columns_tags :
    let first := Loading.plainRow peer [("id", .ofInt 1)]
    let run := setAssociation "tags" (.many [Loading.plainRow tag [("id", .ofInt 1)]]) first circle
    circle.registry.foreignKey peer tags ≠ tags.joinTargetColumn ∧
      (∃ pair, (run.2.database.openTable "PeerTag").rows = [pair] ∧
        pair.data.get? "PeerId" = some (.ofInt 1) ∧ pair.data.get? "TagId" = some (.ofInt 1)) ∧
      Loading.associated run.2.registry run.2.database peer tags tag run.1.2.data =
        .ok [[("id", .ofInt 1)]] := by
  have association : (Loading.plainRow peer [("id", .ofInt 1)]).model.association? "tags" =
      some tags := rfl
  obtain ⟨differ, -, written⟩ := setAssociation_join_columns (e := circle) association rfl nofun
  have apart : ¬ tags.SharesColumn peer := by
    simp [Association.SharesColumn, tags, peer]
  obtain ⟨target, pk, through, key, wanted, pair, ends, join, keyed, joined⟩ :=
    written (.many [Loading.plainRow tag [("id", .ofInt 1)]]) _ _ rfl
  obtain rfl : tag = target := Option.some.inj ends.registered
  obtain rfl : "id" = pk := Except.ok.inj ends.primaryKey
  obtain rfl : "PeerTag" = through := Option.some.inj join
  obtain rfl : Value.ofInt 1 = key := Except.ok.inj keyed
  obtain rfl : [Value.ofInt 1] = wanted := Except.ok.inj ends.keys
  exact ⟨differ.mpr apart, ⟨pair (.ofInt 1), joined.rows, joined.both apart (.ofInt 1)⟩,
    joined.found apart⟩

/-- The first peer gets the second for a friend, and finds nobody. -/
theorem setAssociation_loses_friends :
    let first := Loading.plainRow peer [("id", .ofInt 1)]
    let run := setAssociation "friends" (.many [Loading.plainRow peer [("id", .ofInt 2)]]) first
      circle
    (∀ column, friends.foreignKey = some column → friends.otherKey ≠ some column) ∧
      circle.registry.foreignKey peer friends = friends.joinTargetColumn ∧ run.1.1 = .ok () ∧
      (run.2.database.openTable "Friendship").rows.map (·.data) = [[("PeerId", .ofInt 2)]] ∧
      Loading.associated run.2.registry run.2.database peer friends peer run.1.2.data = .ok [] :=
  ⟨nofun, rfl, rfl, rfl, rfl⟩

end Circle

end Linking

end RecordGraph
