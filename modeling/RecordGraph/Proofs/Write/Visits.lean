import RecordGraph.Proofs.Write.Blame
import RecordGraph.Proofs.Write.Run

/-!
# The places of a walk

A walk stops at one include after the other, and at each of them it takes its turn at the rows
that are supplied there. A row that is stored may have a walk of its own below. So a place of
a walk is given by what has been done so far: the relations here follow the run step by step,
and each of them says which runs before it have succeeded.

A walk is refused at one place. Either it is the row in hand that is refused, where it is
connected or read again, or it is a supplied row that the walk has come to, at whatever depth;
the error is then the one that its refusal makes, with the labels that lead there in front.
-/

namespace RecordGraph

namespace Cascade

variable {σ α β : Type}

/-- A list of runs has come to one of its members: all before it have succeeded. -/
inductive Turn (f : α → Run σ β) : List α → σ → α → σ → Prop where
  | first (a : α) (rest : List α) (s : σ) : Turn f (a :: rest) s a s
  | later {a a' : α} {rest : List α} {b : β} {s s₁ s' : σ} (done : f a s = (.ok b, s₁))
      (turn : Turn f rest s₁ a' s') : Turn f (a :: rest) s a' s'

/-- A list of runs fails with what one of its members fails with when its turn has come. -/
theorem exists_turn_of_mapM {f : α → Run σ β} {items : List α} {s : σ} {err : Failure}
    (failed : (items.mapM f s).1 = .error err) :
    ∃ a s', Turn f items s a s' ∧ (f a s').1 = .error err := by
  induction items generalizing s with
  | nil => cases failed
  | cons a rest ih =>
      rw [List.mapM_cons] at failed
      rcases Action.bind_error failed with here | ⟨b, s₁, done, failed⟩
      · exact ⟨a, s, .first a rest s, here⟩
      · rcases Action.bind_error failed with later | ⟨_, _, _, answered⟩
        · obtain ⟨a', s', turn, failed⟩ := ih later
          exact ⟨a', s', .later done turn, failed⟩
        · cases answered

theorem Turn.mem {f : α → Run σ β} {items : List α} {a : α} {s s' : σ}
    (turn : Turn f items s a s') : a ∈ items := by
  induction turn with
  | first => exact List.mem_cons_self
  | later _ _ ih => exact List.mem_cons_of_mem _ ih

/-- A list of runs that has an answer has one from each member whose turn has come. -/
theorem Turn.exists_mem {f : α → Run σ β} {items : List α} {answers : List β} {a : α}
    {s s' s₁ : σ} (turn : Turn f items s a s₁) (done : items.mapM f s = (.ok answers, s')) :
    ∃ b ∈ answers, ∃ s₂, f a s₁ = (.ok b, s₂) := by
  induction turn generalizing answers s' with
  | first a rest s =>
      rw [List.mapM_cons] at done
      obtain ⟨b, s₂, here, done⟩ := Action.bind_ok done
      obtain ⟨bs, _, _, last⟩ := Action.bind_ok done
      cases last
      exact ⟨b, List.mem_cons_self, s₂, here⟩
  | later first _ ih =>
      rw [List.mapM_cons, Action.bind_run_ok first] at done
      obtain ⟨bs, _, rest, last⟩ := Action.bind_ok done
      cases last
      obtain ⟨b, among, there⟩ := ih rest
      exact ⟨b, List.mem_cons_of_mem _ among, there⟩

variable [Backend σ]

/-- A row to walk from: what is supplied for it, whether it was just created, the includes of
the walk, and the row and the store as the walk finds them. -/
structure Site (σ : Type) where
  model : Model
  draft : Draft
  mode : WriteMode
  includes : List Include
  row : Row
  store : σ

/-- An include at which something is to be connected with a row. -/
structure Stop where
  asked : Include
  association : Association
  target : Model
  /-- The key column of the association. -/
  column : String
  /-- The primary key of the row that supplied rows are to be connected with. -/
  pk : String
  source : Row
  mode : WriteMode

/-- A supplied row whose turn has come. -/
structure Visit (σ : Type) extends Stop where
  item : Item
  store : σ

/-- What is written in advance into the rows of a stop. -/
def Stop.stamp (stop : Stop) : Stamp :=
  Cascade.stamp stop.mode stop.association stop.column stop.pk stop.source

variable (r : Registry) (options : PersistOptions)

/-- The walk of a site. -/
def Site.walk (site : Site σ) : (Except Failure Unit × Row) × σ :=
  persist r options site.model site.draft site.mode site.includes site.row site.store

/-- Make a row that is supplied at a stop into a stored one. -/
def Stop.make (stop : Stop) : Item → Run σ Row :=
  coerce options stop.asked.edge (Include.depthOf stop.asked.children)
    (fun target draft mode => persist r options target draft mode stop.asked.children)
    stop.target stop.stamp

/-- A walk has come to one of its includes: all before it have been written. -/
inductive Arrives (m : Model) (draft : Draft) (mode : WriteMode) (pk : String) :
    List Include → Row → σ → Include → Row → σ → Prop where
  | first (i : Include) (rest : List Include) (row : Row) (s : σ) :
      Arrives m draft mode pk (i :: rest) row s i row s
  | later {i j : Include} {rest : List Include} {row row₁ row' : Row} {s s₁ s' : σ}
      (done : writeOne r options m draft mode pk i row s = ((.ok (), row₁), s₁))
      (arrives : Arrives m draft mode pk rest row₁ s₁ j row' s') :
      Arrives m draft mode pk (i :: rest) row s j row' s'

/-- The walk of a site has come to a stop, with the rows that are supplied there. -/
inductive Site.Stops (site : Site σ) : Stop → List Item → σ → Prop where
  | intro {pk : String} {i : Include} {row : Row} {s : σ} {supplied : Linked Item}
      {a : Association} {target : Model}
      (keyed : primaryKey site.model = .ok pk)
      (arrives : Arrives r options site.model site.draft site.mode pk site.includes site.row
        site.store i row s)
      (given : site.draft.associations.get? i.label = some supplied)
      (association : site.model.association? i.label = some a)
      (registered : r.get? a.target = some target)
      (free : keyIsWritten a (r.foreignKey site.model a) site.draft = false) :
      Stops site ⟨i, a, target, r.foreignKey site.model a, pk, row, site.mode⟩ supplied.toList s

/-- The walk of a site has come to a row that is supplied for it. -/
inductive Site.Supplies (site : Site σ) : Visit σ → Prop where
  | intro {stop : Stop} {items : List Item} {item : Item} {s s' : σ}
      (stops : site.Stops r options stop items s)
      (turn : Turn (stop.make r options) items s item s') : Supplies site ⟨stop, item, s'⟩

/-- The row of a site is refused where it is connected or read again. -/
inductive Site.Refused (site : Site σ) (refusal : Refusal) : Prop where
  | connecting {stop : Stop} {items : List Item} {rows : List Row} {s s' : σ}
      (stops : site.Stops r options stop items s)
      (made : items.mapM (stop.make r options) s = (.ok rows, s'))
      (refused : (Backend.setAssociation stop.asked.label
        (.ofList stop.association.kind.isToMany rows) options.transaction stop.source s').1.1 =
          .error (.validation refusal))
  | rereading {pk : String} {row : Row} {s : σ} (keyed : primaryKey site.model = .ok pk)
      (walked : writeAll r options site.model site.draft site.mode pk site.includes site.row
        site.store = ((.ok (), row), s))
      (refused : (Backend.reload
        (.ofIncludes (Include.toRequests site.includes) options.transaction) row s).1.1 =
          .error (.validation refusal))

/-- A supplied row is not only attached: the row that is to be stored, the record that was
supplied for it, and the store. -/
inductive Visit.Writes (visit : Visit σ) : Row → Record → σ → Prop where
  | intro {pk : String} {row : Row} {record : Record} {s : σ}
      (keyed : primaryKey visit.target = .ok pk)
      (made : supply visit.target pk (Include.depthOf visit.asked.children) visit.stamp visit.item
        visit.store = (.ok (row, record), s))
      (writes : attachesOnly visit.asked.edge pk row record = false) : Writes visit row record s

/-- A supplied row was stored, and something is supplied for it. -/
inductive Visit.Descends (visit : Visit σ) : Site σ → Prop where
  | intro {row row' : Row} {record : Record} {s s' : σ} (writes : visit.Writes row record s)
      (saved : Backend.save options.toWrite row s = ((.ok (), row'), s'))
      (more : (Draft.ofRecord visit.target record).hasAssociations = true) :
      Descends visit ⟨visit.target, Draft.ofRecord visit.target record,
        if row.isNew then .create else .update, visit.asked.children, row', s'⟩

/-- A supplied row is refused where it is stored, or later in its own walk. -/
inductive Visit.Refused (visit : Visit σ) (refusal : Refusal) : Prop where
  | saving {row : Row} {record : Record} {s : σ} (writes : visit.Writes row record s)
      (refused : (Backend.save options.toWrite row s).1.1 = .error (.validation refusal))
  | walking {site : Site σ} (descends : visit.Descends options site)
      (refused : site.Refused r options refusal)

/-- The walk of a site has come to a supplied row below a path of labels. -/
inductive Site.Reaches : Site σ → List String → Visit σ → Prop where
  | here {site : Site σ} {visit : Visit σ} (supplies : site.Supplies r options visit) :
      Reaches site [visit.asked.label] visit
  | down {site inner : Site σ} {visit last : Visit σ} {path : List String}
      (supplies : site.Supplies r options visit) (descends : visit.Descends options inner)
      (rest : Reaches inner path last) : Reaches site (visit.asked.label :: path) last

/-- An error is that of the row of a site or that of a row that its walk has come to. -/
def Site.Blames (site : Site σ) (err : ValidationError) : Prop :=
  (∃ refusal, site.Refused r options refusal ∧ err = .ofRefusal site.model refusal) ∨
    ∃ path visit refusal, site.Reaches r options path visit ∧ visit.Refused r options refusal ∧
      err = (ValidationError.ofRefusal visit.target refusal).prefixed path

section Account

variable {r options} {m target : Model} {draft : Draft} {mode : WriteMode} {pk : String}
variable {includes : List Include} {row : Row} {s : σ} {err : ValidationError}

/-- An include is written as its edge is, with a walk below that goes over its children. -/
theorem writeOne_eq (i : Include) : (writeOne r options m draft mode pk i : RowRun σ Unit) =
    writeEdge r options m draft mode pk i.edge (Include.depthOf i.children)
      fun target draft mode => persist r options target draft mode i.children := by
  cases i with
  | plain edge => rfl
  | nested edge selection children => rw [writeOne]; rfl

/-- A walk fails with what one of its includes fails with when it has come there. -/
theorem exists_arrives_of_writeAll {err : Failure}
    (failed : (writeAll r options m draft mode pk includes row s).1.1 = .error err) :
    ∃ i ∈ includes, ∃ row' s', Arrives r options m draft mode pk includes row s i row' s' ∧
      (writeOne r options m draft mode pk i row' s').1.1 = .error err := by
  induction includes generalizing row s with
  | nil =>
      rw [writeAll] at failed
      cases failed
  | cons i rest ih =>
      rw [writeAll] at failed
      rcases RowAction.bind_error failed with here | ⟨_, row₁, s₁, done, later⟩
      · exact ⟨i, List.mem_cons_self, row, s, .first i rest row s, here⟩
      · obtain ⟨j, among, row', s', arrives, failed⟩ := ih later
        exact ⟨j, List.mem_cons_of_mem _ among, row', s', .later done arrives, failed⟩

/-- A walk comes to its own includes only. -/
theorem Arrives.mem {i : Include} {row' : Row} {s' : σ}
    (arrives : Arrives r options m draft mode pk includes row s i row' s') : i ∈ includes := by
  induction arrives with
  | first => exact List.mem_cons_self
  | later _ _ ih => exact List.mem_cons_of_mem _ ih

/-- What a walk knows of a stop that it has come to. -/
theorem Site.Stops.known {site : Site σ} {stop : Stop} {items : List Item}
    (stops : site.Stops r options stop items s) :
    primaryKey site.model = .ok stop.pk ∧
      Arrives r options site.model site.draft site.mode stop.pk site.includes site.row site.store
        stop.asked stop.source s ∧
      site.model.association? stop.asked.label = some stop.association ∧
      r.get? stop.association.target = some stop.target ∧
      ∃ supplied, site.draft.associations.get? stop.asked.label = some supplied ∧
        supplied.toList = items := by
  obtain ⟨keyed, arrives, given, association, registered, -⟩ := stops
  exact ⟨keyed, arrives, association, registered, _, given, rfl⟩

/-- A row is supplied for the target of an include of the walk. -/
theorem Site.Supplies.known {site : Site σ} {visit : Visit σ}
    (supplies : site.Supplies r options visit) :
    visit.asked ∈ site.includes ∧
      site.model.association? visit.asked.label = some visit.association ∧
      r.get? visit.association.target = some visit.target := by
  obtain ⟨stops, -⟩ := supplies
  obtain ⟨-, arrives, association, registered, -⟩ := stops.known
  exact ⟨arrives.mem, association, registered⟩

/-- A supplied row is refused where it is stored, or in its own walk. -/
theorem Stop.exists_refused_of_make (freely : Backend.BuildsFreely σ) {stop : Stop} {item : Item}
    (failed : (stop.make r options item s).1 = .error (.validation err)) :
    (∃ row record s' refusal, Visit.Writes ⟨stop, item, s⟩ row record s' ∧
      (Backend.save options.toWrite row s').1.1 = .error (.validation refusal) ∧
      err = (ValidationError.ofRefusal stop.target refusal).under stop.asked.label) ∨
    ∃ site inner, Visit.Descends options ⟨stop, item, s⟩ site ∧
      (site.walk r options).1.1 = .error (.validation inner) ∧
      err = inner.under stop.asked.label := by
  rw [Stop.make, coerce] at failed
  rcases Run.lift_bind_error failed with unkeyed | ⟨pk, keyed, failed⟩
  · exact absurd unkeyed primaryKey_ne_validation
  rcases Action.bind_error failed with unmade | ⟨⟨row, record⟩, s', made, failed⟩
  · exact absurd unmade (supply_ne_validation freely _ _ _ _ _)
  dsimp only at failed
  split at failed
  · cases failed
  rename_i writes
  have written : Visit.Writes ⟨stop, item, s⟩ row record s' :=
    .intro keyed made (Bool.eq_false_iff.mpr writes)
  rcases RowAction.bind_error (Run.onRow_error_iff.mp failed) with
    unsaved | ⟨_, row', s'', saved, failed⟩
  · obtain ⟨error, refused, under⟩ := mapError_eq_error_iff.mp unsaved
    obtain ⟨refusal, rfl, rfl⟩ := Failure.ofStorageUnder_eq_validation under
    exact .inl ⟨row, record, s', refusal, written, refused, rfl⟩
  · split at failed
    · rename_i more
      obtain ⟨failure, result, under⟩ := mapError_eq_error_iff.mp failed
      cases failure with
      | validation inner =>
          cases under
          exact .inr ⟨_, inner, .intro written (RowRun.ofAction_ok_iff.mp saved) more, result, rfl⟩
      | _ => cases under
    · cases failed

/-- An include fails where one of the rows supplied there does, or where the row in hand is
connected with them. -/
theorem Site.exists_refused_of_writeOne {site : Site σ} {i : Include}
    (keyed : primaryKey site.model = .ok pk)
    (arrives : Arrives r options site.model site.draft site.mode pk site.includes site.row
      site.store i row s)
    (failed : (writeOne r options site.model site.draft site.mode pk i row s).1.1 =
      .error (.validation err)) :
    (∃ refusal, site.Refused r options refusal ∧ err = .ofRefusal site.model refusal) ∨
      ∃ stop item s', stop.asked = i ∧ site.Supplies r options ⟨stop, item, s'⟩ ∧
        (stop.make r options item s').1 = .error (.validation err) := by
  generalize written : (writeOne r options site.model site.draft site.mode pk i : RowRun σ Unit) =
    run at failed
  rw [writeOne_eq, writeEdge] at written
  split at written
  · rename_i supplied a given association
    split at written
    · subst written
      cases failed
    rename_i target registered
    dsimp only at written
    split at written
    · subst written
      cases failed
    rename_i free
    subst written
    have stops := Site.Stops.intro keyed arrives given association registered
      (Bool.eq_false_iff.mpr free)
    rcases RowAction.bind_error failed with impossible | ⟨_, _, _, found, failed⟩
    · cases impossible
    cases found
    rcases RowAction.bind_error failed with unmade | ⟨rows, row', s', made, failed⟩
    · obtain ⟨item, s', turn, refused⟩ := exists_turn_of_mapM (RowRun.ofRun_error_iff.mp unmade)
      exact .inr ⟨_, item, s', rfl, .intro stops turn, refused⟩
    · obtain ⟨error, refused, known⟩ := mapError_eq_error_iff.mp failed
      obtain ⟨refusal, rfl, rfl⟩ := Failure.ofStorage_eq_validation known
      obtain ⟨rfl, stored⟩ := RowRun.ofRun_ok_iff.mp made
      exact .inl ⟨refusal, .connecting stops stored refused, rfl⟩
  · subst written
    cases failed

theorem Visit.Descends.model {visit : Visit σ} {site : Site σ}
    (descends : visit.Descends options site) : site.model = visit.target := by
  obtain ⟨⟩ := descends
  rfl

/-- The walk of a supplied row goes over fewer includes. -/
theorem Visit.Descends.sizeOf_includes {visit : Visit σ} {site : Site σ}
    (descends : visit.Descends options site) (asked : visit.asked ∈ includes) :
    sizeOf site.includes < sizeOf includes := by
  obtain ⟨⟩ := descends
  have within := List.sizeOf_lt_of_mem asked
  refine Nat.lt_of_le_of_lt ?_ within
  cases visit.asked with
  | plain edge => simp [Include.children]
  | nested edge selection children => simp [Include.children]

/-- The walk of a site is refused for the row in hand or for a row that it has come to. -/
theorem Site.blames_of_walk (freely : Backend.BuildsFreely σ) (site : Site σ)
    {err : ValidationError} (failed : (site.walk r options).1.1 = .error (.validation err)) :
    site.Blames r options err := by
  rw [walk, persist, enclose] at failed
  split at failed
  · cases failed
  rcases RowRun.lift_bind_error failed with unkeyed | ⟨pk, keyed, failed⟩
  · exact absurd unkeyed primaryKey_ne_validation
  rcases RowAction.bind_error failed with unwritten | ⟨_, row, s, walked, failed⟩
  · obtain ⟨i, among, row, s, arrives, failed⟩ := exists_arrives_of_writeAll unwritten
    rcases exists_refused_of_writeOne keyed arrives failed with
      own | ⟨stop, item, s', rfl, supplies, failed⟩
    · exact .inl own
    rcases stop.exists_refused_of_make freely failed with
      ⟨row, record, s'', refusal, writes, refused, rfl⟩ | ⟨inner, below, descends, deeper, rfl⟩
    · refine .inr ⟨_, _, refusal, .here supplies, .saving writes refused, ?_⟩
      rw [← ValidationError.under_prefixed, ValidationError.prefixed_nil]
    · have smaller := descends.sizeOf_includes among
      rcases inner.blames_of_walk freely deeper with
        ⟨refusal, refused, rfl⟩ | ⟨path, visit, refusal, reaches, refused, rfl⟩
      · refine .inr ⟨_, _, refusal, .here supplies, .walking descends refused, ?_⟩
        rw [← ValidationError.under_prefixed, ValidationError.prefixed_nil, descends.model]
      · refine .inr ⟨_, visit, refusal, .down supplies descends reaches, refused, ?_⟩
        exact ValidationError.under_prefixed ..
  · obtain ⟨error, refused, known⟩ := mapError_eq_error_iff.mp failed
    obtain ⟨refusal, rfl, rfl⟩ := Failure.ofStorage_eq_validation known
    exact .inl ⟨refusal, .rereading keyed walked refused, rfl⟩
termination_by sizeOf site.includes

end Account

end Cascade

end RecordGraph
