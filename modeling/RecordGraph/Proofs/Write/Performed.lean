import RecordGraph.Proofs.Store.RowWrites
import RecordGraph.Proofs.Write.Stamping

/-!
# What a walk performs

A walk writes the store by two commands only. It stores a supplied row that it has come to, unless
that is just attached, and it connects a row that it walks from with what was supplied for it.
What each of these commands keeps, on the store on which it is performed, is kept by the walk,
whether that fails or not.

The rows that are stored are rows of the targets of the includes, and those that are connected
are rows of their sources, provided that this is so of the rows that are supplied whole.
-/

namespace RecordGraph

/-- Some includes lead to a target under a label of a source, at whatever depth. -/
inductive Include.LeadsTo (r : Registry) :
    Model → List Include → Model → String → Model → Prop where
  | here {m target : Model} {includes : List Include} {i : Include} {a : Association}
      (asked : i ∈ includes) (association : m.association? i.label = some a)
      (registered : r.get? a.target = some target) : LeadsTo r m includes m i.label target
  | down {m inner source target : Model} {includes : List Include} {i : Include} {a : Association}
      {label : String} (asked : i ∈ includes) (association : m.association? i.label = some a)
      (registered : r.get? a.target = some inner)
      (rest : LeadsTo r inner i.children source label target) :
      LeadsTo r m includes source label target

section LeadsTo

variable {r : Registry} {m inner source target : Model} {includes : List Include} {i : Include}
variable {a : Association} {label : String} {c : Command} {row : Row}

/-- Without includes, nothing is led to. -/
theorem Include.not_leadsTo_nil : ¬ LeadsTo r m [] source label target := by
  rintro (⟨asked, -, -⟩ | ⟨asked, -, -, -⟩) <;> cases asked

/-- Includes lead from their model or from registered ones to registered models. -/
theorem Include.LeadsTo.known (leads : LeadsTo r m includes source label target) (named : r.Named) :
    (source = m ∨ r.get? source.name = some source) ∧ r.get? target.name = some target := by
  induction leads with
  | here asked association registered =>
      exact ⟨.inl rfl, (named _ _ registered).symm ▸ registered⟩
  | down asked association registered rest ih =>
      obtain ⟨start, ends⟩ := ih
      refine ⟨.inr ?_, ends⟩
      rcases start with rfl | known
      · exact (named _ _ registered).symm ▸ registered
      · exact known

/-- What they lead to is the target of the association. -/
theorem Include.LeadsTo.target_eq {other : Model}
    (leads : LeadsTo r m includes source label target)
    (association : source.association? label = some a)
    (registered : r.get? a.target = some other) : other = target := by
  induction leads with
  | here _ association' registered' =>
      obtain rfl := Option.some.inj (association'.symm.trans association)
      exact Option.some.inj (registered.symm.trans registered')
  | down _ _ _ _ ih => exact ih association

/-- A command stores a row that some includes lead to, or it connects one that they start from. -/
inductive Command.Asked (r : Registry) (m : Model) (includes : List Include) : Command → Prop where
  | save {row : Row} {validate : Bool} {source : Model} {label : String}
      (leads : Include.LeadsTo r m includes source label row.model) (ordered : row.data.Ascending) :
      Asked r m includes (.save row validate)
  | setAssociation {row : Row} {label : String} {linked : Linked Row} {target : Model}
      (leads : Include.LeadsTo r m includes row.model label target) (ordered : row.data.Ascending) :
      Asked r m includes (.setAssociation row label linked)

/-- What includes below ask for is asked for. -/
theorem Command.Asked.down (asked : i ∈ includes) (association : m.association? i.label = some a)
    (registered : r.get? a.target = some inner) (rest : c.Asked r inner i.children) :
    c.Asked r m includes := by
  cases rest with
  | save leads ordered => exact .save (.down asked association registered leads) ordered
  | setAssociation leads ordered =>
      exact .setAssociation (.down asked association registered leads) ordered

/-- It is about a row in key order. -/
theorem Command.Asked.exists_row (asked : c.Asked r m includes) :
    ∃ row, c.row? = some row ∧ row.data.Ascending := by
  cases asked with
  | save _ ordered | setAssociation _ ordered => exact ⟨_, rfl, ordered⟩

/-- A row in the table of a registered model is one of that model, if the includes do not start
from another model of the same name. -/
theorem Command.Asked.own (asked : c.Asked r m includes) (named : r.Named)
    (on : c.row? = some row) (registered : r.get? target.name = some target)
    (start : m.name = target.name → m = target) (same : row.model.name = target.name) :
    row.model = target := by
  have of_registered (known : r.get? row.model.name = some row.model) : row.model = target :=
    Option.some.inj ((same ▸ known).symm.trans registered)
  cases asked with
  | save leads =>
      cases on
      exact of_registered (leads.known named).2
  | setAssociation leads =>
      cases on
      rcases (leads.known named).1 with rfl | known
      · exact start same
      · exact of_registered known

end LeadsTo

/-- The rows that a draft supplies whole are rows of the targets of their labels. -/
def Draft.Fits (r : Registry) (m : Model) (draft : Draft) : Prop :=
  ∀ label a target supplied, m.association? label = some a → r.get? a.target = some target →
    draft.associations.get? label = some supplied →
      ∀ row, Item.row row ∈ supplied.toList → row.model = target ∧ row.data.Ascending

/-- A value never supplies a whole row. -/
theorem Linked.row_notMem_ofValue (v : Value) (row : Row) :
    Item.row row ∉ (Linked.ofValue v).toList := by
  have single (w : Value) : Item.row row ≠ Item.ofValue w := by
    cases w <;> exact Item.noConfusion
  cases v with
  | null => exact List.not_mem_nil
  | arr items =>
      intro member
      obtain ⟨w, -, same⟩ := List.mem_map.mp member
      exact single w same.symm
  | _ => exact fun member => single _ (List.mem_singleton.mp member)

/-- Nor does a record. -/
theorem Draft.fits_ofRecord (r : Registry) (m : Model) (record : Record) :
    (Draft.ofRecord m record).Fits r m := by
  intro label a target supplied association registered given row member
  suffices without : ∀ draft : Draft,
      (∀ label supplied, draft.associations.get? label = some supplied →
        Item.row row ∉ supplied.toList) →
      ∀ label supplied, (record.foldl (addEntry m) draft).associations.get? label = some supplied →
        Item.row row ∉ supplied.toList from
    absurd member (without {} (fun _ _ found => nomatch found) label supplied given)
  clear member given
  induction record with
  | nil => exact fun _ without => without
  | cons entry rest ih =>
      intro draft without
      refine ih (draft.addEntry m entry) fun label supplied found => ?_
      rw [addEntry] at found
      split at found
      · rw [link, Dict.get?_insert] at found
        split at found
        · cases found
          exact Linked.row_notMem_ofValue entry.2 row
        · exact without label supplied found
      · exact without label supplied found

namespace Cascade

variable (r : Registry) (options : PersistOptions)

/-- The walk of a site performs a command on a store: a row that was supplied for it, or for a walk
below, is stored there, or a row that is walked from is connected with the rows that were made. -/
inductive Site.Performs : Site Engine → Command → Engine → Prop where
  | saving {site : Site Engine} {visit : Visit Engine} {row : Row} {record : Record} {e : Engine}
      (supplies : site.Supplies r options visit) (writes : visit.Writes row record e) :
      Performs site (.save row options.validate) e
  | connecting {site : Site Engine} {stop : Stop} {items : List Item} {rows : List Row}
      {e e' : Engine} (stops : site.Stops r options stop items e)
      (made : items.mapM (stop.make r options) e = (.ok rows, e')) :
      Performs site (.setAssociation stop.source stop.asked.label
        (.ofList stop.association.kind.isToMany rows)) e'
  | down {site inner : Site Engine} {visit : Visit Engine} {c : Command} {e : Engine}
      (supplies : site.Supplies r options visit) (descends : visit.Descends options inner)
      (performs : Performs inner c e) : Performs site c e

section Steps

variable {σ ε α β : Type} {J : σ → Prop} {s : σ} {row : Row}

/-- A property of the state holds after two steps if it holds after the first one and the second
one keeps it where the first has an answer. -/
theorem holds_bind {x : ExceptT ε (StateM σ) α} {f : α → ExceptT ε (StateM σ) β}
    (first : J (x s).2) (rest : ∀ a s₁, x s = (.ok a, s₁) → J s₁ → J (f a s₁).2) :
    J ((x >>= f) s).2 := by
  rw [Action.bind_run]
  generalize run : x s = left at first ⊢
  obtain ⟨result, s₁⟩ := left
  cases result with
  | error err => exact first
  | ok a => exact rest a s₁ run first

theorem holds_row_bind {x : ExceptT ε (StateT Row (StateM σ)) α}
    {f : α → ExceptT ε (StateT Row (StateM σ)) β} (first : J (x row s).2)
    (rest : ∀ a row₁ s₁, x row s = ((.ok a, row₁), s₁) → J s₁ → J (f a row₁ s₁).2) :
    J ((x >>= f) row s).2 := by
  rw [RowAction.bind_run]
  generalize run : x row s = left at first ⊢
  obtain ⟨⟨result, row₁⟩, s₁⟩ := left
  cases result with
  | error err => exact first
  | ok a => exact rest a row₁ s₁ run first

/-- What every run of a list keeps when its turn has come is kept by all of them. -/
theorem holds_mapM {f : α → Run σ β} {items : List α}
    (each : ∀ a s', Turn f items s a s' → J s' → J (f a s').2) (holds : J s) :
    J (items.mapM f s).2 := by
  induction items generalizing s with
  | nil => exact holds
  | cons a rest ih =>
      rw [List.mapM_cons]
      refine holds_bind (each a s (.first a rest s) holds) fun b s₁ done kept => ?_
      refine holds_bind (ih (fun a' s' turn => each a' s' (.later done turn)) kept) ?_
      exact fun _ _ _ kept => kept

/-- What one of them has brought about is kept by those after it. -/
theorem holds_mapM_of_turn {f : α → Run σ β} {items : List α} {a : α} {t : σ}
    (turn : Turn f items s a t) (here : J (f a t).2)
    (each : ∀ a s', Turn f items s a s' → J s' → J (f a s').2) : J (items.mapM f s).2 := by
  induction turn with
  | first a rest s =>
      rw [List.mapM_cons]
      refine holds_bind here fun b s₁ done kept => ?_
      refine holds_bind (holds_mapM (fun a' s' turn => each a' s' (.later done turn)) kept) ?_
      exact fun _ _ _ kept => kept
  | later done _ ih =>
      rw [List.mapM_cons, Action.bind_run_ok done]
      refine holds_bind (ih here fun a' s' turn => each a' s' (.later done turn)) ?_
      exact fun _ _ _ kept => kept

end Steps

variable {r options} {J : Engine → Prop} {site : Site Engine} {visit : Visit Engine}
variable {pk : String} {row : Row} {e : Engine} {i : Include}

/-- Making a supplied row into a stored one keeps what storing it keeps, and its own walk. -/
theorem Visit.holds_make
    (saves : ∀ row record e, visit.Writes row record e → J e →
      J (Linking.save options.validate row e).2)
    (walks : ∀ inner, visit.Descends options inner → J inner.store → J (inner.walk r options).2)
    (holds : J visit.store) : J (visit.toStop.make r options visit.item visit.store).2 := by
  obtain ⟨stop, item, e⟩ := visit
  rw [Stop.make, coerce]
  refine holds_bind holds fun pk e₀ lifted _ => ?_
  obtain ⟨keyed, rfl⟩ := Prod.ext_iff.mp lifted
  refine holds_bind (upholds_supply _ _ _ _ _ e holds) fun supplied e₁ made kept => ?_
  obtain ⟨row, record⟩ := supplied
  dsimp only
  split
  · exact kept
  · rename_i writes
    have written : Visit.Writes ⟨stop, item, e⟩ row record e₁ :=
      .intro keyed made (Bool.eq_false_iff.mpr writes)
    change J ((RowRun.ofAction _ _ >>= _) row e₁).2
    refine holds_row_bind (saves row record e₁ written kept) fun _ row' e₂ saved kept => ?_
    split
    · rename_i more
      exact walks _ (.intro written (RowRun.ofAction_ok_iff.mp saved) more) kept
    · exact kept

/-- An include that a walk has come to keeps what each command keeps that the walk performs. -/
theorem Site.holds_writeOne_of_walks (keyed : primaryKey site.model = .ok pk)
    (arrives : Arrives r options site.model site.draft site.mode pk site.includes site.row
      site.store i row e)
    (keeps : ∀ c e, site.Performs r options c e → J e → J (c.perform e).2)
    (walks : ∀ visit inner, site.Supplies r options visit → visit.Descends options inner →
      J inner.store → J (inner.walk r options).2)
    (holds : J e) : J (writeOne r options site.model site.draft site.mode pk i row e).2 := by
  generalize written : (writeOne r options site.model site.draft site.mode pk i :
    RowRun Engine Unit) = run
  rw [writeOne_eq, writeEdge] at written
  split at written
  · rename_i supplied a given association
    split at written
    · subst written
      exact holds
    rename_i target registered
    dsimp only at written
    split at written
    · subst written
      exact holds
    rename_i free
    subst written
    have stops := Site.Stops.intro keyed arrives given association registered
      (Bool.eq_false_iff.mpr free)
    refine holds_row_bind holds fun here row₁ e₀ found _ => ?_
    cases found
    refine holds_row_bind ?_ fun rows row₂ e₂ made kept => ?_
    · refine holds_mapM (fun item e' turn kept => ?_) holds
      have supplies := Site.Supplies.intro stops turn
      refine Visit.holds_make (fun row record e writes kept => ?_)
        (fun inner descends => walks _ inner supplies descends) kept
      exact keeps _ e (.saving supplies writes) kept
    · obtain ⟨rfl, stored⟩ := RowRun.ofRun_ok_iff.mp made
      exact keeps _ _ (.connecting stops stored) kept
  · subst written
    exact holds

/-- A walk over includes keeps what each command keeps that it performs. -/
theorem Site.holds_writeAll_of_walks (keyed : primaryKey site.model = .ok pk)
    (keeps : ∀ c e, site.Performs r options c e → J e → J (c.perform e).2)
    (walks : ∀ visit inner, site.Supplies r options visit → visit.Descends options inner →
      J inner.store → J (inner.walk r options).2)
    (holds : J site.store) :
    J (writeAll r options site.model site.draft site.mode pk site.includes site.row
      site.store).2 := by
  -- the induction is on the includes that the walk has still to come to
  suffices onward : ∀ (includes : List Include) (row : Row) (e : Engine),
      (∀ i row' e', Arrives r options site.model site.draft site.mode pk includes row e i row' e' →
        Arrives r options site.model site.draft site.mode pk site.includes site.row site.store
          i row' e') →
      J e → J (writeAll r options site.model site.draft site.mode pk includes row e).2 from
    onward _ _ _ (fun _ _ _ arrives => arrives) holds
  intro includes
  induction includes with
  | nil =>
      intro row e _ holds
      rw [writeAll]
      exact holds
  | cons i rest ih =>
      intro row e arrives holds
      rw [writeAll]
      have here := arrives i row e (.first i rest row e)
      refine holds_row_bind (Site.holds_writeOne_of_walks keyed here keeps walks holds) ?_
      exact fun _ row₁ e₁ done kept =>
        ih row₁ e₁ (fun j row' e' later => arrives j row' e' (.later done later)) kept

/-- A walk keeps what each command keeps that it performs, whether it fails or not. -/
theorem Site.holds_walk (site : Site Engine)
    (keeps : ∀ c e, site.Performs r options c e → J e → J (c.perform e).2)
    (holds : J site.store) : J (site.walk r options).2 := by
  have walks (visit : Visit Engine) (inner : Site Engine)
      (supplies : site.Supplies r options visit) (descends : visit.Descends options inner)
      (holds : J inner.store) : J (inner.walk r options).2 :=
    have smaller := descends.sizeOf_includes supplies.known.1
    inner.holds_walk (fun c e performs => keeps c e (.down supplies descends performs)) holds
  generalize walked : site.walk r options = left
  rw [walk, persist, enclose] at walked
  split at walked
  · subst walked
    exact holds
  · subst walked
    refine holds_row_bind holds fun pk row e lifted _ => ?_
    obtain ⟨answer, rfl⟩ := Prod.ext_iff.mp lifted
    obtain ⟨keyed, rfl⟩ := Prod.ext_iff.mp answer
    refine holds_row_bind (Site.holds_writeAll_of_walks keyed keeps walks holds) ?_
    intro _ row e _ kept
    have rereads : RowUpholds (fun _ => True) J (Linking.reload
        (.ofIncludes (Include.toRequests site.includes) options.transaction)) :=
      rowUpholds_reload (fun _ _ _ own => own) _
    exact rereads.state trivial kept
termination_by sizeOf site.includes

/-- So does what it does before the row is read again. -/
theorem Site.holds_writeAll (keyed : primaryKey site.model = .ok pk)
    (keeps : ∀ c e, site.Performs r options c e → J e → J (c.perform e).2)
    (holds : J site.store) :
    J (writeAll r options site.model site.draft site.mode pk site.includes site.row
      site.store).2 :=
  site.holds_writeAll_of_walks keyed keeps (fun _ inner supplies descends holds =>
    inner.holds_walk (fun c e performs => keeps c e (.down supplies descends performs)) holds) holds

/-- And so does making a supplied row that it has come to. -/
theorem Site.Supplies.holds_make (supplies : site.Supplies r options visit)
    (keeps : ∀ c e, site.Performs r options c e → J e → J (c.perform e).2)
    (holds : J visit.store) : J (visit.toStop.make r options visit.item visit.store).2 :=
  Visit.holds_make (fun _ _ e writes => keeps _ e (.saving supplies writes)) (fun inner descends =>
    inner.holds_walk fun c e performs => keeps c e (.down supplies descends performs)) holds

section Fits

variable {row : Row} {record : Record} {c : Command}

/-- A row to walk from, on a sound store: it is a row of the model, and the rows that are supplied
whole for it are rows of the targets. -/
structure Site.Fits (r : Registry) (site : Site Engine) : Prop where
  sound : Sound r site.store
  model : site.row.model = site.model
  ordered : site.row.data.Ascending
  draft : site.draft.Fits r site.model

/-- A supplied row that the walk of such a row has come to is one of its target if it is supplied
whole, and the store is still sound. -/
theorem Site.Supplies.fits (supplies : site.Supplies r options visit) (fits : site.Fits r) :
    Sound r visit.store ∧
      ∀ row, visit.item = .row row → row.model = visit.target ∧ row.data.Ascending := by
  refine ⟨supplies.upheld (upkeep_sound r) fits.sound, ?_⟩
  obtain ⟨stops, turn⟩ := supplies
  obtain ⟨-, -, association, registered, supplied, given, rfl⟩ := stops.known
  rintro row rfl
  exact fits.draft _ _ _ _ association registered given row turn.mem

/-- What is to be stored for a supplied row is in key order if that is. -/
theorem Visit.Writes.ordered (writes : visit.Writes row record e)
    (whole : ∀ row, visit.item = .row row → row.data.Ascending) : row.data.Ascending := by
  obtain ⟨-, made, -⟩ := writes
  cases item : visit.item with
  | row given =>
      rw [item] at made
      cases made
      exact ascending_stampRecord (whole given item) _
  | record fields =>
      rw [item] at made
      obtain ⟨_, _, built, last⟩ := Action.bind_ok made
      cases last
      rw [(Engine.build_ok (Run.ofAction_ok_iff.mp built)).2.2, Draft.fields_ofRecord]
      exact Dict.ascending_ofList _
  | key key =>
      rw [item] at made
      obtain ⟨_, _, built, last⟩ := Action.bind_ok made
      cases last
      rw [(Engine.build_ok (Run.ofAction_ok_iff.mp built)).2.2]
      exact Dict.ascending_single _ _

/-- It is a row of the target then, too. -/
theorem Site.Supplies.writes (supplies : site.Supplies r options visit) (fits : site.Fits r)
    (named : r.Named) (writes : visit.Writes row record e) :
    row.model = visit.target ∧ row.data.Ascending ∧ Sound r e := by
  obtain ⟨sound, whole⟩ := supplies.fits fits
  have known : visit.store.registry.get? visit.target.name = some visit.target := by
    rw [sound.1]
    exact supplies.registered named
  exact ⟨writes.model_eq known fun row given => (whole row given).1,
    writes.ordered fun row given => (whole row given).2, writes.upheld sound⟩

/-- So a walk below starts from such a row, too. -/
theorem Site.Supplies.descends (supplies : site.Supplies r options visit) (fits : site.Fits r)
    (named : r.Named) {inner : Site Engine} (descends : visit.Descends options inner) :
    inner.Fits r := by
  have sound := descends.upheld (upkeep_sound r) (supplies.fits fits).1
  obtain ⟨writes, saved, -⟩ := descends
  obtain ⟨model, -, before⟩ := supplies.writes fits named writes
  obtain ⟨same, ordered⟩ := Linking.ordered_of_save before.2 saved
  exact ⟨sound, same.trans model, ordered, Draft.fits_ofRecord r _ _⟩

/-- All commands that the walk of such a row performs are asked for by its includes. -/
theorem Site.Performs.asked (performs : site.Performs r options c e) (fits : site.Fits r)
    (named : r.Named) : c.Asked r site.model site.includes ∧ e.registry = r := by
  induction performs with
  | saving supplies writes =>
      obtain ⟨model, ordered, sound⟩ := supplies.writes fits named writes
      obtain ⟨asked, association, registered⟩ := supplies.known
      rw [← model] at registered
      exact ⟨.save (.here asked association registered) ordered, sound.1⟩
  | @connecting site stop items rows e e' stops made =>
      obtain ⟨-, arrives, association, registered, -⟩ := stops.known
      obtain ⟨⟨model, ordered⟩, -⟩ := arrives.known ⟨fits.model, fits.ordered⟩ fits.sound.1
      have leads : Include.LeadsTo r site.model site.includes stop.source.model stop.asked.label
          stop.target := by
        rw [model]
        exact .here arrives.mem association registered
      exact ⟨.setAssociation leads ordered,
        ((stops.upheld (upkeep_sound r) fits.sound).mapM_make made).1⟩
  | down supplies descends _ ih =>
      obtain ⟨asked, registry⟩ := ih (supplies.descends fits named descends)
      obtain ⟨among, association, registered⟩ := supplies.known
      obtain ⟨⟩ := descends
      exact ⟨asked.down among association registered, registry⟩

end Fits

end Cascade

end RecordGraph
