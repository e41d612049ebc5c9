import RecordGraph.Proofs.Store.KeptRows
import RecordGraph.Proofs.Write.Performed

/-!
# What a walk inserts stays

A supplied row that is stored as a new one is a live row of its table at once. It stays one while
the walk goes on, under the key that it has: nothing is hidden on a walk, and the only rows that
are deleted are pairs of join tables. What may take its key away is a connection through the
column of the key, and rows with other keys that equal what equals its own.
-/

namespace RecordGraph

namespace Cascade

variable {r : Registry} {options : PersistOptions} {m target : Model} {draft : Draft}
variable {mode : WriteMode} {pk : String} {key : Value} {row row' : Row} {e e' : Engine}

/-- A supplied row is a new one. -/
def Visit.Inserts (visit : Visit Engine) : Prop :=
  ∃ row record s, visit.Writes row record s ∧ row.isNew = true

/-- Where there is something to walk, a walk that succeeds leaves the row as a live one. -/
theorem live_of_persist {includes : List Include} (some_includes : includes ≠ [])
    (model : row.model = m) (registry : e.registry = r)
    (walked : persist r options m draft mode includes row e = ((.ok (), row'), e')) :
    row'.data ∈ (e'.database.openTable m.name).liveRecords := by
  obtain ⟨pk, last, s, _, walk, reread⟩ := enclose_ok some_includes walked
  have keeps : RowUpholds (fun row => row.model = m) (fun e : Engine => e.registry = r)
      (writeAll r options m draft mode pk includes) :=
    (upkeep_registry r).writeAll _ _ _ _ _ fun i _ _ _ _ linked =>
      (upkeep_registry r).own i.label linked fun _ _ same _ own => same.trans own
  obtain ⟨own, -⟩ := keeps.after ⟨model, registry⟩ walk
  obtain ⟨data, filed, live, _, _, rfl, rfl⟩ := Linking.reload_ok reread
  exact own ▸ live

/-- A new row is stored as a live one. -/
theorem live_of_save {validate : Bool} (isNew : row.isNew = true)
    (saved : Linking.save validate row e = ((.ok (), row'), e')) :
    row'.model = row.model ∧
      row'.data ∈ (e'.database.openTable row.model.name).liveRecords := by
  cases stored : Linking.storing validate row (e.database.openTable row.model.name) with
  | error err =>
      rw [Linking.save_run_error stored] at saved
      cases saved
  | ok written =>
      rw [Linking.save_run_ok stored] at saved
      cases saved
      obtain ⟨record, t⟩ := written
      rw [Linking.storing, if_pos isNew] at stored
      obtain ⟨-, -, rows⟩ := Table.insert_ok stored
      refine ⟨rfl, ?_⟩
      rw [Engine.setTable, Database.openTable_setTable_self]
      simp [Table.liveRecords, Table.live, rows]

/-- What is made of a new row at a stop is live at once. -/
theorem Stop.live_of_make {stop : Stop} {item : Item} {made : Row}
    (known : r.get? stop.target.name = some stop.target) (registry : e.registry = r)
    (whole : ∀ row, item = .row row → row.model = stop.target)
    (inserts : Visit.Inserts ⟨stop, item, e⟩)
    (done : stop.make r options item e = (.ok made, e')) :
    made.data ∈ (e'.database.openTable stop.target.name).liveRecords := by
  obtain ⟨row, record, s, writes, isNew⟩ := inserts
  have model : row.model = stop.target := writes.model_eq (registry ▸ known) whole
  have known : s.registry = r := writes.upheld (J := fun e => e.registry = r) registry
  obtain ⟨keyed, supplied, writes⟩ := writes
  rw [Stop.make, coerce, keyed, Run.lift_bind_run, Action.bind_run_ok supplied] at done
  dsimp only at done writes
  rw [writes, if_neg Bool.false_ne_true] at done
  obtain ⟨_, row', s', saved, done⟩ := RowAction.bind_ok (Run.onRow_ok_iff.mp done)
  have saved : Linking.save options.validate row s = ((.ok (), row'), s') :=
    RowRun.ofAction_ok_iff.mp saved
  obtain ⟨same, live⟩ := live_of_save isNew saved
  have sound := (upkeep_registry r).save row options.validate s known
  rw [saved] at sound
  rw [model] at live same
  split at done
  · have walked := RowRun.mapFailure_ok_iff.mp done
    by_cases none : stop.asked.children = []
    · rw [none] at walked
      cases walked
      exact live
    · exact live_of_persist none same sound walked
  · cases done
    exact live

/-- The walk of a site does not take a key of a target away from a live row. -/
structure Site.KeepsKey (r : Registry) (options : PersistOptions) (site : Site Engine)
    (target : Model) (pk : String) (key : Value) : Prop where
  /-- Its root is no row of another model of the same name. -/
  root : site.model.name = target.name → site.model = target
  /-- Its includes connect no rows through the column of the key, and have no join tables in the
  place of that of the target. -/
  retaining : ∀ source label other a,
    Include.LeadsTo r site.model site.includes source label other →
      source.association? label = some a → Linking.Retaining r source a other target.name pk
  /-- The rows of the target that are stored or connected have keys that can be told from it. -/
  discernible : ∀ c e row v, site.Performs r options c e → c.row? = some row →
    row.model.name = target.name → row.get? pk = some v → key.Discernible v

section Keeps

variable {site : Site Engine} {stop : Stop} {items : List Item} {item : Item} {rows : List Row}
variable {made : Row} {c : Command} {t t' : Engine}

/-- So no command that the walk performs does. -/
theorem Site.Performs.hasLive (performs : site.Performs r options c e) (fits : site.Fits r)
    (named : r.Named) (registered : r.get? target.name = some target)
    (keyed : Loading.primaryKey target = .ok pk) (keeps : site.KeepsKey r options target pk key)
    (live : (e.database.openTable target.name).HasLive pk key) :
    ((c.perform e).2.database.openTable target.name).HasLive pk key := by
  obtain ⟨asked, registry⟩ := performs.asked fits named
  obtain ⟨row, on, ordered⟩ := asked.exists_row
  refine Command.hasLive_perform keyed on (asked.own named on registered keeps.root) ordered ?_
    (fun own v => keeps.discernible c e row v performs on own) live
  rintro label linked a other rfl association resolved
  cases on
  rw [registry] at resolved ⊢
  cases asked with
  | setAssociation leads =>
      obtain rfl := leads.target_eq association resolved
      exact keeps.retaining _ _ _ _ leads association

/-- A stop of a walk is settled: the items that are supplied there have been made into rows, and
the row in hand has been connected with these. -/
structure Site.Settles (r : Registry) (options : PersistOptions) (site : Site Engine) (stop : Stop)
    (items : List Item) (e : Engine) (rows : List Row) (row' : Row) (e' : Engine) : Prop where
  stops : site.Stops r options stop items e
  connected : ∃ s, items.mapM (stop.make r options) e = (.ok rows, s) ∧
    Linking.setAssociation stop.asked.label (.ofList stop.association.kind.isToMany rows)
      stop.source s = ((.ok (), row'), e')

/-- What has been made at a stop is still there when the stop has been settled. -/
theorem Site.Settles.hasLive (settles : site.Settles r options stop items e rows row' e')
    (fits : site.Fits r) (named : r.Named) (registered : r.get? target.name = some target)
    (keyed : Loading.primaryKey target = .ok pk) (keeps : site.KeepsKey r options target pk key)
    (turn : Turn (stop.make r options) items e item t)
    (done : stop.make r options item t = (.ok made, t'))
    (live : (t'.database.openTable target.name).HasLive pk key) :
    (e'.database.openTable target.name).HasLive pk key := by
  obtain ⟨stops, s, stored, connected⟩ := settles
  have performed (c : Command) (e : Engine) (performs : site.Performs r options c e)
      (live : (e.database.openTable target.name).HasLive pk key) :
      ((c.perform e).2.database.openTable target.name).HasLive pk key :=
    performs.hasLive fits named registered keyed keeps live
  have made : (s.database.openTable target.name).HasLive pk key := by
    have kept := holds_mapM_of_turn
      (J := fun e : Engine => (e.database.openTable target.name).HasLive pk key) turn
      (by rw [done]; exact live) fun item' s' turn' live =>
        Site.Supplies.holds_make (.intro stops turn') performed live
    rwa [stored] at kept
  have linked := performed _ s (.connecting stops stored) made
  rwa [Command.perform, connected] at linked

end Keeps

end Cascade

end RecordGraph
