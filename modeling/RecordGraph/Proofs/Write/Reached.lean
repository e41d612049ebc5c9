import RecordGraph.Proofs.Store.Connecting
import RecordGraph.Proofs.Write.Upkeep
import RecordGraph.Proofs.Write.Visits

/-!
# What holds wherever a walk comes

What storing and connecting keep holds at every place that a walk comes to, if it holds where the
walk begins: when an include is taken up, when the turn of a supplied row has come, and when the
walk of a supplied row begins.
-/

namespace RecordGraph

/-- The model of the row that is made of an item for a target: that of the row if one is supplied
whole, and else the one that is known under the name of the target. -/
def Item.modelFor (known : Registry) (target : Model) : Item → Option Model
  | .row given => some given.model
  | .record _ | .key _ => known.get? target.name

namespace Cascade

section Turns

variable {σ α β : Type} {P : Row → Prop} {J : σ → Prop}

/-- What every member of a list of runs keeps holds when the turn of one has come. -/
theorem Turn.upheld {f : α → Run σ β} {items : List α} {a : α} {s s' : σ}
    (each : ∀ a, Upholds J (f a)) (turn : Turn f items s a s') (holds : J s) : J s' := by
  induction turn with
  | first => exact holds
  | later done _ ih => exact ih ((each _).after holds done)

/-- What every include keeps holds when the walk has come to one. -/
theorem Arrives.upheld [Backend σ] {r : Registry} {options : PersistOptions} {m : Model}
    {draft : Draft} {mode : WriteMode} {pk : String} {includes : List Include} {i : Include}
    {row row' : Row} {s s' : σ}
    (each : ∀ i, RowUpholds P J (writeOne r options m draft mode pk i))
    (arrives : Arrives r options m draft mode pk includes row s i row' s')
    (holds : P row ∧ J s) : P row' ∧ J s' := by
  induction arrives with
  | first => exact holds
  | later done _ ih => exact ih ((each _).after holds done)

end Turns

section Keeps

variable {r : Registry} {options : PersistOptions} {J : Engine → Prop}
variable {site : Site Engine} {stop : Stop} {items : List Item} {visit : Visit Engine}
variable {row : Row} {record : Record} {path : List String} {e : Engine}

/-- Making rows at a stop keeps what storing and connecting keep. -/
theorem Upkeep.make (keep : Upkeep J) (stop : Stop) (item : Item) :
    Upholds J (stop.make r options item) :=
  keep.coerce stop.asked.edge _ (fun m draft mode => keep.persist m draft mode stop.asked.children)
    stop.target stop.stamp item

theorem Site.Stops.upheld (stops : site.Stops r options stop items e) (keep : Upkeep J)
    (holds : J site.store) : J e := by
  obtain ⟨-, arrives, -⟩ := stops
  have writes (pk : String) (i : Include) : RowUpholds (fun _ => True) J
      (writeOne r options site.model site.draft site.mode pk i) :=
    keep.writeOne _ _ _ _ i fun _ _ _ linked =>
      rowUpholds_of_all fun row e => keep.connect row i.label linked e
  exact (arrives.upheld (writes _) ⟨trivial, holds⟩).2

theorem Site.Supplies.upheld (supplies : site.Supplies r options visit) (keep : Upkeep J)
    (holds : J site.store) : J visit.store := by
  obtain ⟨stops, turn⟩ := supplies
  exact turn.upheld (keep.make _) (stops.upheld keep holds)

/-- To make a row does not touch the store. -/
theorem Visit.Writes.upheld (writes : visit.Writes row record e) (holds : J visit.store) : J e := by
  obtain ⟨-, made, -⟩ := writes
  exact (upholds_supply _ _ _ _ _).after holds made

/-- What is to be stored for a supplied row is a row of the model that it is supplied for. -/
theorem Visit.Writes.model (writes : visit.Writes row record e) :
    visit.item.modelFor visit.store.registry visit.target = some row.model := by
  obtain ⟨-, made, -⟩ := writes
  cases item : visit.item with
  | row given =>
      rw [item] at made
      cases made
      rfl
  | record fields =>
      rw [item] at made
      obtain ⟨_, _, built, last⟩ := Action.bind_ok made
      cases last
      exact (Engine.build_ok (Run.ofAction_ok_iff.mp built)).2.1
  | key key =>
      rw [item] at made
      obtain ⟨_, _, built, last⟩ := Action.bind_ok made
      cases last
      exact (Engine.build_ok (Run.ofAction_ok_iff.mp built)).2.1

/-- It is one of the target, unless another one was supplied whole. -/
theorem Visit.Writes.model_eq (writes : visit.Writes row record e)
    (known : visit.store.registry.get? visit.target.name = some visit.target)
    (whole : ∀ row, visit.item = .row row → row.model = visit.target) :
    row.model = visit.target := by
  have model := writes.model
  cases item : visit.item with
  | row given =>
      rw [item] at model
      exact (Option.some.inj model).symm.trans (whole given item)
  | record _ | key _ =>
      rw [item, Item.modelFor, known] at model
      exact (Option.some.inj model).symm

theorem Visit.Descends.upheld (descends : visit.Descends options site) (keep : Upkeep J)
    (holds : J visit.store) : J site.store := by
  obtain ⟨writes, saved, -⟩ := descends
  have saves : RowUpholds (fun _ => True) J (Linking.save options.validate) :=
    rowUpholds_of_all fun row e => keep.save row options.validate e
  exact (saves.after ⟨trivial, writes.upheld holds⟩ saved).2

/-- What storing and connecting keep holds wherever the walk of a site comes. -/
theorem Site.Reaches.upheld (reaches : site.Reaches r options path visit) (keep : Upkeep J)
    (holds : J site.store) : J visit.store := by
  induction reaches with
  | here supplies => exact supplies.upheld keep holds
  | down supplies descends _ ih => exact ih (descends.upheld keep (supplies.upheld keep holds))

theorem Site.Supplies.registered (supplies : site.Supplies r options visit) (named : r.Named) :
    r.get? visit.target.name = some visit.target := by
  obtain ⟨stops, -⟩ := supplies
  obtain ⟨-, -, -, registered, -⟩ := stops.known
  rw [named _ _ registered]
  exact registered

/-- The rows that a walk comes to are supplied for registered models. -/
theorem Site.Reaches.registered (reaches : site.Reaches r options path visit) (named : r.Named) :
    r.get? visit.target.name = some visit.target := by
  induction reaches with
  | here supplies => exact supplies.registered named
  | down _ _ _ ih => exact ih

end Keeps

section Row

variable {r : Registry} {options : PersistOptions} {m : Model} {draft : Draft} {mode : WriteMode}
variable {pk : String} {row : Row} {J : Engine → Prop} {e : Engine}

/-- Connecting keeps what holds of a row if it holds of all rows of the same model that are in key
order as well. -/
theorem Upkeep.own (keep : Upkeep J) {P : Row → Prop} (label : String) (linked : Linked Row)
    (keeps : ∀ row row' : Row, row'.model = row.model →
      (row.data.Ascending → row'.data.Ascending) → P row → P row') :
    RowUpholds P J (Linking.setAssociation label linked) := by
  rintro row e ⟨own, holds⟩
  have kept := keep.connect row label linked e holds
  generalize run : Linking.setAssociation label linked row e = done at kept ⊢
  obtain ⟨⟨result, row'⟩, e'⟩ := done
  cases result with
  | error err => exact kept
  | ok _ =>
      obtain ⟨connected, connects, rfl⟩ := Linking.setAssociation_ok_iff.mp run
      obtain ⟨a, target, pk, wanted, _, connects⟩ := Linking.connect_ok connects
      refine ⟨keeps row _ ?_ ?_ own, kept⟩
      · cases connects <;> rfl
      · intro ordered
        cases connects with
        | belongsTo => exact Dict.ascending_insert _ _ ordered
        | pointed | paired => exact ordered

/-- Writing an include keeps the row in hand one of its model and in key order. -/
theorem Upkeep.ordered (keep : Upkeep J) (i : Include) :
    RowUpholds (fun row => row.model = m ∧ row.data.Ascending) J
      (Cascade.writeOne r options m draft mode pk i) :=
  keep.writeOne m draft mode pk i fun _ _ _ linked =>
    keep.own i.label linked fun _ _ model ordered own => ⟨model.trans own.1, ordered own.2⟩

/-- So it is such a row wherever the walk has come. -/
theorem Arrives.known {includes : List Include} {i : Include} {here : Row} {s : Engine}
    (arrives : Arrives r options m draft mode pk includes row e i here s)
    (own : row.model = m ∧ row.data.Ascending) (registry : e.registry = r) :
    (here.model = m ∧ here.data.Ascending) ∧ s.registry = r :=
  arrives.upheld (upkeep_registry r).ordered ⟨own, registry⟩

end Row

end Cascade

end RecordGraph
