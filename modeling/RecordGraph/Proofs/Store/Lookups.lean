import RecordGraph.Proofs.Store.Dependence

/-!
# What loading looks for

To find the records that are associated with one, loading looks for keys in columns: for the
key that the record holds, for its own key in the targets or in a join table, and for the keys
that are paired with it there. It goes on from each of the records that it finds. As long as the
records stay the same that have these keys in these columns, the same is found along all
includes.
-/

namespace RecordGraph

/-- All registered models have a primary key. -/
def Registry.Keyed (r : Registry) : Prop :=
  ∀ name m, r.get? name = some m → ∃ pk, Loading.primaryKey m = .ok pk

theorem Registry.keyed_nil : Registry.Keyed [] :=
  fun _ _ found => nomatch found

/-- A model without one is not registered. -/
theorem Registry.Keyed.register {r r' : Registry} {m : Model} (keyed : r.Keyed)
    (done : r.register m = .ok r') : r'.Keyed := by
  intro name other found
  obtain ⟨_, accepted, done⟩ := bind_eq_ok_iff.mp done
  obtain ⟨pk, own, _⟩ := bind_eq_ok_iff.mp accepted
  split at done
  · cases done
  · cases done
    rw [Dict.get?_insert] at found
    split at found
    · cases found
      exact ⟨pk, by rw [Loading.primaryKey, own]; rfl⟩
    · exact keyed name other found

namespace Loading

variable {r : Registry} {d d' : Database} {source target : Model} {a : Association} {data : Record}
variable {includes : List Request.Include} {i : Request.Include} {name column : String}
variable {keys : List Value}

/-- To find the records that an association leads to from a record, some keys are looked for in a
column of a table. -/
inductive Seeks (r : Registry) (d : Database) (source : Model) (a : Association) (target : Model)
    (data : Record) : String → String → List Value → Prop where
  | held {pk : String} {key : Value} (kind : a.kind = .belongsTo)
      (keyed : primaryKey target = .ok pk)
      (holds : Value.present? (data.get? (r.foreignKey source a)) = some key) :
      Seeks r d source a target data target.name pk [key]
  | pointed {pk : String} {key : Value} (kind : a.kind.isOwnedByTarget = true)
      (keyed : primaryKey source = .ok pk) (own : Value.present? (data.get? pk) = some key) :
      Seeks r d source a target data target.name (r.foreignKey source a) [key]
  | pairs {pk through : String} {key : Value} (kind : a.kind = .belongsToMany)
      (join : a.through = some through) (keyed : primaryKey source = .ok pk)
      (own : Value.present? (data.get? pk) = some key) :
      Seeks r d source a target data through (r.foreignKey source a) [key]
  /-- The keys that are paired with that of the record. -/
  | partners {pk targetPk through : String} {key : Value} (kind : a.kind = .belongsToMany)
      (join : a.through = some through) (keyed : primaryKey source = .ok pk)
      (targetKeyed : primaryKey target = .ok targetPk)
      (own : Value.present? (data.get? pk) = some key) :
      Seeks r d source a target data target.name targetPk
        (((d.openTable through).liveWhere (r.foreignKey source a) key).filterMap
          (·.get? a.joinTargetColumn))

/-- To load includes for a record, some keys are looked for in a column of a table: for the record
itself or for one that it leads to. -/
inductive LooksFor (r : Registry) (d : Database) : Model → Record → List Request.Include →
    String → String → List Value → Prop where
  | here {source target : Model} {data : Record} {includes : List Request.Include}
      {i : Request.Include} {a : Association} {name column : String} {keys : List Value}
      (asked : i ∈ includes) (association : source.association? i.head.label = some a)
      (registered : r.get? i.head.model = some target)
      (seeks : Seeks r d source a target data name column keys) :
      LooksFor r d source data includes name column keys
  | down {source target : Model} {data record : Record} {includes : List Request.Include}
      {i : Request.Include} {name column : String} {keys : List Value} (asked : i ∈ includes)
      (ends : EndsAt r d source data i.head target record)
      (rest : LooksFor r d target record i.children name column keys) :
      LooksFor r d source data includes name column keys

/-- An association leads to the same records if the same ones have the keys that are looked for. -/
theorem associated_same (targetKeyed : ∃ pk, primaryKey target = .ok pk)
    (sourceKeyed : ∃ pk, primaryKey source = .ok pk)
    (same : ∀ name column keys, Seeks r d source a target data name column keys →
      (d.openTable name).SameWhere column keys (d'.openTable name)) :
    associated r d' source a target data = associated r d source a target data := by
  obtain ⟨targetPk, targetKeyed⟩ := targetKeyed
  obtain ⟨sourcePk, sourceKeyed⟩ := sourceKeyed
  rw [associated_eq targetKeyed sourceKeyed, associated_eq targetKeyed sourceKeyed]
  congr 1
  cases kind : a.kind with
  | belongsTo =>
      simp only [reached, kind]
      cases holds : Value.present? (data.get? (r.foreignKey source a)) with
      | none => rfl
      | some key => exact (same _ _ _ (.held kind targetKeyed holds)).liveWhere
  | hasOne | hasMany =>
      simp only [reached, kind]
      cases own : Value.present? (data.get? sourcePk) with
      | none => rfl
      | some key =>
          exact (same _ _ _ (.pointed (by rw [kind]; rfl) sourceKeyed own)).liveWhere
  | belongsToMany =>
      simp only [reached, kind]
      cases own : Value.present? (data.get? sourcePk) with
      | none => rfl
      | some key =>
          cases join : a.through with
          | none => rfl
          | some through =>
              dsimp only
              rw [(same _ _ _ (.pairs kind join sourceKeyed own)).liveWhere]
              exact same _ _ _ (.partners kind join sourceKeyed targetKeyed own)

theorem LooksFor.mono {others : List Request.Include} (sub : ∀ i ∈ includes, i ∈ others)
    (looks : LooksFor r d source data includes name column keys) :
    LooksFor r d source data others name column keys := by
  cases looks with
  | here asked association registered seeks =>
      exact .here (sub _ asked) association registered seeks
  | down asked ends rest => exact .down (sub _ asked) ends rest

theorem sameEnds_of_looksFor (models : r.Keyed) (keyed : ∃ pk, primaryKey source = .ok pk)
    (same : ∀ name column keys, LooksFor r d source data [i] name column keys →
      (d.openTable name).SameWhere column keys (d'.openTable name)) :
    SameEnds r d d' source data i.head := by
  intro a target association registered
  refine associated_same (models _ _ registered) keyed fun name column keys seeks => ?_
  exact same _ _ _ (.here (List.mem_singleton_self i) association registered seeks)

mutual

/-- Includes lead to the same records if the same ones have the keys that are looked for, at every
depth. -/
theorem sameAlong_of_looksFor (models : r.Keyed) : ∀ (includes : List Request.Include)
    (source : Model) (data : Record), (∃ pk, primaryKey source = .ok pk) →
    (∀ name column keys, LooksFor r d source data includes name column keys →
      (d.openTable name).SameWhere column keys (d'.openTable name)) →
    SameAlong r d d' source data includes
  | [], _, _, _, _ => trivial
  | i :: rest, source, data, keyed, same =>
      ⟨sameAt_of_looksFor models i source data keyed fun _ _ _ looks =>
          same _ _ _ (looks.mono fun _ asked => List.mem_singleton.mp asked ▸ List.mem_cons_self),
        sameAlong_of_looksFor models rest source data keyed fun _ _ _ looks =>
          same _ _ _ (looks.mono fun _ => List.mem_cons_of_mem i)⟩

theorem sameAt_of_looksFor (models : r.Keyed) : ∀ (i : Request.Include) (source : Model)
    (data : Record), (∃ pk, primaryKey source = .ok pk) →
    (∀ name column keys, LooksFor r d source data [i] name column keys →
      (d.openTable name).SameWhere column keys (d'.openTable name)) →
    SameAt r d d' source data i
  | .leaf head, _, _, keyed, same => sameEnds_of_looksFor models keyed same
  | .node head children, source, data, keyed, same => by
      refine ⟨sameEnds_of_looksFor models keyed same, fun target record ends => ?_⟩
      obtain ⟨_, _, _, registered, _, _⟩ := id ends
      refine sameAlong_of_looksFor models children target record (models _ _ registered) ?_
      exact fun name column keys looks =>
        same _ _ _ (.down (List.mem_singleton_self (Request.Include.node head children)) ends looks)

end

end Loading

end RecordGraph
