import RecordGraph.Proofs.Write.Footprint
import RecordGraph.Proofs.Write.Inserted
import RecordGraph.Proofs.Write.Naming
import RecordGraph.Proofs.Write.ReadBack

/-!
# Rows that a walk makes are linked

At each include of a walk all supplied rows are stored before the row in hand is connected with
them, and connecting takes all of them: whatever was made for an include is linked with the row
when the walk goes on. Later includes may undo this, since connecting replaces what was connected
before. They do so only by writing what the connection hangs on, or by taking away the key of a
row, and they write no other tables than those that they lead to.
-/

namespace RecordGraph

namespace Cascade

variable {r : Registry} {options : PersistOptions} {m : Model} {draft : Draft} {mode : WriteMode}
variable {pk : String} {row row' : Row} {e e' : Engine}

/-- The walk of a site with some includes left, from the row and the store as they are then. -/
def Site.onward (site : Site Engine) (includes : List Include) (here : Row) (s : Engine) :
    Site Engine :=
  { site with includes, row := here, store := s }

/-- Whatever is inserted at a stop is among some rows, live at once, and has a property. -/
def Stop.Covers (r : Registry) (options : PersistOptions) (stop : Stop) (items : List Item)
    (e : Engine) (rows : List Row) (holds : Row → Prop) : Prop :=
  ∀ item s, Turn (stop.make r options) items e item s → Visit.Inserts ⟨stop, item, s⟩ →
    ∃ made ∈ rows, holds made ∧ ∃ s', stop.make r options item s = (.ok made, s') ∧
      made.data ∈ (s'.database.openTable stop.target.name).liveRecords

/-- If the walk of a site keeps the key of a row that was made for a target, this is a key of a
live row in a store. -/
def Site.Preserves (r : Registry) (options : PersistOptions) (site : Site Engine) (target : Model)
    (e : Engine) (made : Row) : Prop :=
  ∀ pk key, Loading.primaryKey target = .ok pk → made.get? pk = some key →
    site.KeepsKey r options target pk key → (e.database.openTable target.name).HasLive pk key

section Settles

variable {site : Site Engine} {stop : Stop} {items : List Item} {rows : List Row}
variable {after : List Include} {i : Include} {here next : Row} {s s' : Engine} {c : Command}

/-- Wherever a walk has come, the rest of it starts from such a row, too. -/
theorem Site.Fits.onward (fits : site.Fits r)
    (arrives : Arrives r options site.model site.draft site.mode pk site.includes site.row
      site.store i here s) (includes : List Include) : (site.onward includes here s).Fits r := by
  obtain ⟨⟨model, ordered⟩, sound⟩ :=
    arrives.upheld (upkeep_sound r).ordered ⟨⟨fits.model, fits.ordered⟩, fits.sound⟩
  exact ⟨sound, model, ordered, fits.draft⟩

/-- So it does when an include has been written. -/
theorem Site.Fits.written (fits : (site.onward (i :: after) here s).Fits r)
    (done : writeOne r options site.model site.draft site.mode pk i here s =
      ((.ok (), next), s')) : (site.onward after next s').Fits r := by
  obtain ⟨⟨model, ordered⟩, sound⟩ := ((upkeep_sound r).ordered i).after
    ⟨⟨fits.model, fits.ordered⟩, fits.sound⟩ done
  exact ⟨sound, model, ordered, fits.draft⟩

/-- The rest of a walk settles the stop that it has come to. -/
theorem Site.Settles.onward (settles : site.Settles r options stop items s rows next s')
    (after : List Include) :
    (site.onward (stop.asked :: after) stop.source s).Settles r options stop items s rows next
      s' := by
  obtain ⟨⟨keyed, -, given, association, registered, free⟩, connected⟩ := settles
  exact ⟨.intro keyed (.first _ _ _ _) given association registered free, connected⟩

/-- What is performed for later includes is performed on the walk. -/
theorem Site.Performs.later (keyed : primaryKey site.model = .ok pk)
    (written : writeOne r options site.model site.draft site.mode pk i here s =
      ((.ok (), next), s'))
    (performs : (site.onward after next s').Performs r options c e) :
    (site.onward (i :: after) here s).Performs r options c e := by
  have stops {stop : Stop} {items : List Item} {e : Engine}
      (stops : (site.onward after next s').Stops r options stop items e) :
      (site.onward (i :: after) here s).Stops r options stop items e := by
    obtain ⟨keyed', arrives, given, association, registered, free⟩ := stops
    obtain rfl := Except.ok.inj (keyed.symm.trans keyed')
    exact .intro keyed (.later written arrives) given association registered free
  have supplies {visit : Visit Engine}
      (supplies : (site.onward after next s').Supplies r options visit) :
      (site.onward (i :: after) here s).Supplies r options visit := by
    obtain ⟨stops', turn⟩ := supplies
    exact .intro (stops stops') turn
  cases performs with
  | saving supplies' writes => exact .saving (supplies supplies') writes
  | connecting stops' made => exact .connecting (stops stops') made
  | down supplies' descends performs => exact .down (supplies supplies') descends performs

/-- Where a stop has been settled, whatever is inserted is among the rows that have been made, and
it is there as long as its key is kept. -/
theorem Site.Settles.covers (settles : site.Settles r options stop items s rows next s')
    (named : r.Named) (fits : site.Fits r) (keyed : primaryKey site.model = .ok pk)
    (written : writeOne r options site.model site.draft site.mode pk stop.asked stop.source s =
      ((.ok (), next), s'))
    (rest : (writeAll r options site.model site.draft site.mode pk after next s').2 = e') :
    stop.Covers r options items s rows fun made =>
      (site.onward [stop.asked] stop.source s).Preserves r options stop.target s' made ∧
        (site.onward (stop.asked :: after) stop.source s).Preserves r options stop.target e'
          made := by
  intro item t turn inserts
  obtain ⟨-, arrives, association, registered, supplied, given, rfl⟩ := settles.stops.known
  have onward := fits.onward arrives
  have target : r.get? stop.target.name = some stop.target :=
    (named _ _ registered).symm ▸ registered
  obtain ⟨_, stored, -⟩ := settles.connected
  obtain ⟨made, among, t', done⟩ := turn.exists_mem stored
  have known : t.registry = r :=
    turn.upheld (J := fun e : Engine => e.registry = r) ((upkeep_registry r).make stop)
      (onward []).sound.1
  have live := stop.live_of_make target known (by
    rintro whole rfl
    exact (fits.draft _ _ _ _ association registered given whole turn.mem).1) inserts done
  have settled (after : List Include) {targetPk : String} {key : Value}
      (targetKeyed : Loading.primaryKey stop.target = .ok targetPk)
      (found : made.get? targetPk = some key)
      (keeps : (site.onward (stop.asked :: after) stop.source s).KeepsKey r options stop.target
        targetPk key) : (s'.database.openTable stop.target.name).HasLive targetPk key :=
    (settles.onward after).hasLive (onward _) named target targetKeyed keeps turn done
      ⟨made.data, live, holdsAny_self found⟩
  refine ⟨made, among, ⟨fun _ _ => settled [], fun targetPk key targetKeyed found keeps => ?_⟩,
    t', done, live⟩
  rw [← rest]
  refine (site.onward after next s').holds_writeAll
    (J := fun e : Engine => (e.database.openTable stop.target.name).HasLive targetPk key)
    keyed (fun c e performs live => ?_) (settled after targetKeyed found keeps)
  exact (performs.later keyed written).hasLive (onward _) named target targetKeyed keeps live

/-- Where a stop has been settled, the row in hand and all that its items have been made into have
keys, and their connection hangs on something, if there is room for all of them. -/
theorem Site.Settles.anchored (settles : site.Settles r options stop items e rows row' e')
    (model : site.row.model = site.model) (ordered : site.row.data.Ascending)
    (registry : site.store.registry = r)
    (single : stop.association.kind.isToMany = false → rows.length ≤ 1) :
    ∃ targetPk key, Loading.primaryKey stop.target = .ok targetPk ∧
      Value.present? (row'.get? stop.pk) = some key ∧
      rows.map (·.get? targetPk) = (Linking.keysOf targetPk rows).map some ∧
      (∀ k ∈ Linking.keysOf targetPk rows, k ≠ .null) ∧
      (Linking.Anchorable r site.model stop.association →
        Linking.Anchored r e'.database site.model stop.association stop.target stop.pk targetPk key
          (Linking.keysOf targetPk rows)) := by
  obtain ⟨stops, s, made, connected⟩ := settles
  obtain ⟨keyed, arrives, association, registered, -⟩ := stops.known
  obtain ⟨⟨model, ordered⟩, registry⟩ := arrives.known ⟨model, ordered⟩ registry
  have registry : s.registry = r :=
    (Upholds.mapM ((upkeep_registry r).make stop) items).after registry made
  obtain ⟨linked, connects, rfl⟩ := Linking.setAssociation_ok_iff.mp connected
  obtain ⟨a, target, targetPk, wanted, ends, connects⟩ := Linking.connect_ok connects
  have sameAssociation := ends.association
  rw [model] at sameAssociation
  obtain rfl := Option.some.inj (association.symm.trans sameAssociation)
  have sameTarget := ends.registered
  rw [registry] at sameTarget
  obtain rfl := Option.some.inj (registered.symm.trans sameTarget)
  have keys := ends.keys
  rw [Linked.toList_ofList single] at keys
  obtain ⟨keys, nonnull⟩ := Linking.itemKeys_ok keys
  have size : wanted.length = rows.length := by
    simpa using (congrArg List.length keys).symm
  have sourceKeyed : Loading.primaryKey stop.source.model = .ok stop.pk := by
    rw [model]
    exact mapError_eq_ok_iff.mpr (mapError_eq_ok_iff.mp keyed)
  obtain ⟨key, present, anchored⟩ :=
    connects.anchored ordered sourceKeyed nonnull (size ▸ single)
  rw [model, registry] at anchored
  refine ⟨targetPk, key, ends.primaryKey, present, ?_⟩
  rw [Linking.keysOf_eq keys]
  exact ⟨keys, nonnull, anchored⟩

end Settles

section Shelf

open Linking (author book books)

/-- An author lives in a city. -/
def home : Association :=
  { key := "home", kind := .belongsTo, target := "City", foreignKey := some "cityId" }

/-- An author with books and a home. -/
def resident : Model :=
  { name := "Author"
    attributes :=
      [.identity "id", { name := "cityId", dataType := .integer, allowNull := true }]
    associations := [books, home] }

def city : Model :=
  { name := "City", attributes := [.identity "id"] }

def town : Registry :=
  [("Author", resident), ("Book", book), ("City", city)]

end Shelf

end Cascade

end RecordGraph
