import RecordGraph.Proofs.Filter.Clauses
import RecordGraph.Proofs.Text.Dotted
import RecordGraph.Select.Query

/-!
# One name for an association

An attribute of a related model is reached through associations in three ways. Sorting by
it resolves a list of keys; filtering by it renames the steps of a key that is one dotted
text; and rows are included association by association. All three walk from model to model
and answer with aliases, so what a sort key is called through is what a filter on the same
attribute is renamed to, and what the rows on the way are filed under.
-/

namespace RecordGraph

open RecordGraph.Filter

/-- The model that a chain of associations leads to. -/
def Registry.reached? (r : Registry) (m : Model) : List String → Option Model
  | [] => some m
  | key :: rest => do
    let a ← m.association? key
    let target ← r.get? a.target
    reached? r target rest

/-- A condition is in key order, and so are all its clauses. -/
structure Condition.ClausesOrdered (c : Condition) : Prop extends c.Ordered where
  clauses : ∀ {way clause}, ClauseAt c.fields way clause → clause.Ascending

namespace Renaming

variable {r : Registry} {m : Model} {fields : Record}

/-! ### Renaming entries -/

/-- Rename one entry of a filter. -/
def entry (r : Registry) (m : Model) (e : String × Value) : String × Value :=
  if isJunction e.1 then (e.1, junction r m e.2) else (key r m e.1, e.2)

theorem entries_eq_map (fields : List (String × Value)) :
    entries r m fields = fields.map (entry r m) := by
  induction fields with
  | nil => rfl
  | cons e rest ih => rw [entries, ih, List.map_cons, entry]

/-- A single entry is renamed on its own. -/
theorem filter_single (e : String × Value) : filter r m [e] = [entry r m e] := by
  rw [filter, entries_eq_map]
  rfl

theorem clauses_eq_map (items : List Value) : clauses r m items = items.map (clause r m) := by
  induction items with
  | nil => rfl
  | cons v rest ih => rw [clauses, ih, List.map_cons]

/-- What a filter has under a key stands under the renamed key, if no other key becomes the
same. -/
theorem get?_filter (ascending : fields.Ascending) {k : String} {v : Value}
    (found : fields.get? k = some v)
    (alone : ∀ e ∈ fields, (entry r m e).1 = (entry r m (k, v)).1 → e.1 = k) :
    (filter r m fields).get? (entry r m (k, v)).1 = some (entry r m (k, v)).2 := by
  rw [filter, entries_eq_map, Dict.ofList]
  refine Dict.get?_extend_of_unique (.inl ?_) fun w member => ?_
  · exact List.mem_map_of_mem (Dict.mem_of_get? found)
  · obtain ⟨e, there, renamed⟩ := List.mem_map.mp member
    have same : e.1 = k := alone e there (by rw [renamed])
    have value : fields.get? e.1 = some e.2 := (Dict.get?_eq_some_iff_mem ascending).mpr there
    have equal : e = (k, v) := by
      rw [same, found] at value
      exact Prod.ext same (Option.some.inj value).symm
    rw [equal] at renamed
    exact (congrArg Prod.snd renamed).symm

theorem isJunction_of_dollars (s : String) : isJunction ("$" ++ s ++ "$") = false := by
  have enclosed := Text.betweenDollars?_dollars s
  have ne : ∀ k, Text.betweenDollars? k = none → "$" ++ s ++ "$" ≠ k := by
    rintro k none rfl
    rw [enclosed] at none
    cases none
  have notAnd : "$" ++ s ++ "$" ≠ andKey := ne _ (by decide)
  have notOr : "$" ++ s ++ "$" ≠ orKey := ne _ (by decide)
  simp [isJunction, notAnd, notOr]

theorem isJunction_key {k : String} (h : isJunction k = false) :
    isJunction (key r m k) = false := by
  rw [key]
  split
  · split
    · exact isJunction_of_dollars _
    · exact h
  · exact h

theorem get?_filter_junction (ascending : fields.Ascending) {joint : String} {v : Value}
    (joins : isJunction joint = true) (found : fields.get? joint = some v) :
    (filter r m fields).get? joint = some (junction r m v) := by
  have self : entry r m (joint, v) = (joint, junction r m v) := by simp [entry, joins]
  have renamed := get?_filter (r := r) (m := m) ascending found fun e _ same => ?_
  · rwa [self] at renamed
  · rw [self] at same
    cases kept : isJunction e.1 with
    | true => simpa [entry, kept] using same
    | false =>
        -- a key that does not join is not renamed to one that does
        have other := isJunction_key (r := r) (m := m) kept
        have same : key r m e.1 = joint := by simpa [entry, kept] using same
        rw [same, joins] at other
        cases other

theorem clausesUnder_junction (v : Value) :
    clausesUnder (junction r m v) = (clausesUnder v).map (filter r m) := by
  cases v with
  | arr items =>
      simp only [junction, clausesUnder, clauses_eq_map, List.filterMap_map, List.map_filterMap]
      congr 1
      funext item
      cases item <;> rfl
  | _ => rfl

/-- Each clause of a filter is renamed in its place. -/
theorem clauseAt_filter {way : List (String × Nat)} {clause : Record}
    (ascending : ∀ {way clause}, ClauseAt fields way clause → clause.Ascending)
    (found : ClauseAt fields way clause) :
    ClauseAt (filter r m fields) way (filter r m clause) := by
  induction found with
  | top => exact .top
  | under above joins there member ih =>
      refine .under ih joins (get?_filter_junction (ascending above) joins there) ?_
      rw [clausesUnder_junction, List.getElem?_map, member, Option.map_some]

/-- Renaming leaves a condition in order. -/
theorem ordered_filter {c : Condition} (ordered : c.Ordered) :
    Condition.Ordered ⟨filter r m c.fields⟩ := by
  refine ⟨Dict.ascending_ofList _, fun e member => ?_⟩
  rcases Dict.mem_of_mem_extend member with old | new
  · cases old
  · rw [entries_eq_map] at new
    obtain ⟨⟨k, v⟩, there, rfl⟩ := List.mem_map.mp new
    have inOrder : Condition.InOrder v := ordered.objects _ there
    cases joins : isJunction k with
    | false => simpa [entry, joins] using inOrder
    | true =>
        cases v with
        | obj inner =>
            simp only [entry, joins, junction, if_true]
            exact Dict.ascending_ofList _
        | _ => simp [entry, joins, junction, Condition.InOrder]

end Renaming

/-! ### Walking along associations -/

section Walk

variable {r : Registry} {m : Model} {key name : String} {path before after : List String}
variable {hops : List Request.Hop}

/-- Sorting resolves a chain one association after the other. -/
theorem Expr.hops_cons_ok (done : Expr.hops r m (key :: path) = .ok hops) :
    ∃ a target others, m.association? key = some a ∧ r.get? a.target = some target ∧
      Expr.hops r target path = .ok others ∧
      hops = ⟨target.name, a.canonicalAlias⟩ :: others := by
  obtain ⟨a, association, done⟩ := bind_eq_ok_iff.mp done
  obtain ⟨target, registered, done⟩ := bind_eq_ok_iff.mp done
  obtain ⟨others, later, done⟩ := bind_eq_ok_iff.mp done
  cases done
  refine ⟨a, target, others, ?_, ?_, later, rfl⟩
  · rw [Model.association] at association
    split at association
    · cases association
      assumption
    · cases association
  · rw [Registry.target] at registered
    split at registered
    · cases registered
      assumption
    · cases registered

/-- A chain that sorting resolves leads to a model at any association on it. -/
theorem Expr.hops_append_ok (done : Expr.hops r m (before ++ after) = .ok hops) :
    ∃ m' first last, r.reached? m before = some m' ∧ first.length = before.length ∧
      Expr.hops r m' after = .ok last ∧ hops = first ++ last := by
  induction before generalizing m hops with
  | nil => exact ⟨m, [], hops, rfl, rfl, done, rfl⟩
  | cons key rest ih =>
      obtain ⟨a, target, others, association, registered, later, rfl⟩ := Expr.hops_cons_ok done
      obtain ⟨m', first, last, reached, length, resolved, rfl⟩ := ih later
      refine ⟨m', ⟨target.name, a.canonicalAlias⟩ :: first, last, ?_, ?_, resolved, rfl⟩
      · simp [Registry.reached?, association, registered, reached]
      · simp [length]

theorem Renaming.path_cons {a : Association} {target : Model} {rest : List String}
    (association : m.association? key = some a) (registered : r.get? a.target = some target)
    (more : rest ≠ []) :
    Renaming.path r m (key :: rest) = a.canonicalAlias :: Renaming.path r target rest := by
  cases rest with
  | nil => exact absurd rfl more
  | cons next rest => simp only [Renaming.path, association, registered]

/-- Filtering renames a chain that sorting resolves to the labels that this finds, and goes
on from the model that the chain leads to. -/
theorem Renaming.path_append (done : Expr.hops r m path = .ok hops) {rest : List String}
    (more : rest ≠ []) : ∃ last, r.reached? m path = some last ∧
      Renaming.path r m (path ++ rest) = hops.map (·.label) ++ Renaming.path r last rest := by
  induction path generalizing m hops with
  | nil =>
      cases done
      exact ⟨m, rfl, rfl⟩
  | cons key path ih =>
      obtain ⟨a, target, others, association, registered, later, rfl⟩ := Expr.hops_cons_ok done
      obtain ⟨last, reached, renamed⟩ := ih later
      refine ⟨last, ?_, ?_⟩
      · simp [Registry.reached?, association, registered, reached]
      · rw [List.cons_append, Renaming.path_cons association registered (by simp [more]), renamed]
        rfl

theorem OrderTerm.toRequest_ok {model name : String} {direction : Request.Direction}
    {term : Request.SortTerm} (nonempty : path ≠ []) (registered : r.get? model = some m)
    (done : OrderTerm.toRequest r model ⟨.attribute path name, direction⟩ = .ok term) :
    ∃ hops, Expr.hops r m path = .ok hops ∧
      term = { path := hops, target := .str name, direction } := by
  obtain ⟨key, rest, rfl⟩ := List.exists_cons_of_ne_nil nonempty
  have found : r.model model = .ok m := by simp [Registry.model, registered]
  obtain ⟨source, model, done⟩ := bind_eq_ok_iff.mp done
  obtain ⟨hops, resolved, done⟩ := bind_eq_ok_iff.mp done
  cases done
  obtain rfl : m = source := Except.ok.inj (found.symm.trans (mapError_eq_ok_iff.mp model))
  exact ⟨hops, mapError_eq_ok_iff.mp resolved, rfl⟩

end Walk

/-! ### Keys of attributes -/

section Key

variable {r : Registry} {m : Model} {name : String} {path : List String}
variable {hops : List Request.Hop}

theorem Expr.attributeKey_of_ne (nonempty : path ≠ []) :
    Expr.attributeKey path name = "$" ++ Text.dotted (path ++ [name]) ++ "$" := by
  simp [Expr.attributeKey, Expr.dottedName, nonempty]

/-- The key of an attribute that is reached through a chain is renamed to the key that it
has through the labels of the chain, where its name is not taken for more of the chain. -/
theorem Renaming.key_attributeKey (nonempty : path ≠ [])
    (dotless : ∀ key ∈ path, Text.hasDot key = false)
    (plain : ∀ last, r.reached? m path = some last →
      Renaming.path r last (Text.segments name) = Text.segments name)
    (done : Expr.hops r m path = .ok hops) :
    Renaming.key r m (Expr.attributeKey path name) =
      Expr.attributeKey (hops.map (·.label)) name := by
  have labelled : hops.map (·.label) ≠ [] := by
    obtain ⟨key, rest, rfl⟩ := List.exists_cons_of_ne_nil nonempty
    obtain ⟨a, target, others, -, -, -, rfl⟩ := Expr.hops_cons_ok done
    simp
  obtain ⟨last, reached, renamed⟩ := Renaming.path_append done (Text.segments_ne_nil name)
  rw [Expr.attributeKey_of_ne nonempty, Expr.attributeKey_of_ne labelled, Renaming.key,
    Text.betweenDollars?_dollars]
  dsimp only
  rw [if_pos (Text.hasDot_dotted nonempty name), Text.segments_dotted dotless, renamed,
    plain last reached, ← Text.dotted_append_dotted (Text.segments_ne_nil name),
    Text.dotted_segments]

end Key

/-! ### Includes -/

theorem Include.label_withEdge (i : Include) (edge : Edge) :
    (i.withEdge edge).label = edge.label := by
  cases i <;> rfl

namespace Descriptor

theorem extract_some {label : String} {includes others : List Include} {i : Include}
    (found : extract label includes = some (i, others)) :
    i.label = label ∧
      ∃ before after, includes = before ++ i :: after ∧ others = before ++ after := by
  induction includes generalizing others with
  | nil => cases found
  | cons first rest ih =>
      rw [extract] at found
      split at found
      · next same =>
          cases found
          exact ⟨same, [], rest, rfl, rfl⟩
      · obtain ⟨⟨j, later⟩, extracted, split⟩ := Option.map_eq_some_iff.mp found
        cases split
        obtain ⟨same, before, after, rfl, rfl⟩ := ih extracted
        exact ⟨same, first :: before, after, rfl, rfl⟩

theorem label_ne_of_extract {label : String} {includes : List Include}
    (absent : extract label includes = none) : ∀ i ∈ includes, i.label ≠ label := by
  induction includes with
  | nil => nofun
  | cons first rest ih =>
      rw [extract] at absent
      split at absent
      · cases absent
      · next other =>
          exact List.forall_mem_cons.mpr ⟨other, ih (Option.map_eq_none_iff.mp absent)⟩

/-- Asking for an association leaves one include of its label, at the end, and no other
include that was not there. -/
theorem includes_addInclude (d : Descriptor) (i : Include) (o : Overrides) :
    ∃ others last, (d.addInclude i o).includes = others ++ [last] ∧
      others.Sublist d.includes ∧ last.label = i.label := by
  rw [addInclude]
  cases found : extract i.label d.includes with
  | none => exact ⟨d.includes, _, rfl, .refl _, Include.label_withEdge i _⟩
  | some split =>
      obtain ⟨existing, others⟩ := split
      obtain ⟨same, before, after, whole, rfl⟩ := extract_some found
      have sub : (before ++ after).Sublist d.includes := by
        rw [whole]
        exact (List.Sublist.refl before).append (List.sublist_cons_self existing after)
      exact ⟨before ++ after, _, rfl, sub, (Include.label_withEdge _ _).trans same⟩

end Descriptor

namespace Query

/-- Including an association of a model files rows under a label: it is never refused,
unless for a nested query on another model than the association leads to. -/
def FilesUnder (r : Registry) (m : Model) (key : String) (hop : Request.Hop) : Prop :=
  ∀ (q : Query) (route : Route) (nested : Option Query), q.registry = r → q.model = m →
    route.key = key → (∀ n, nested = some n → n.model.name = hop.model) →
    ∃ asked others last, q.including route nested = .ok asked ∧
      asked.descriptor.includes = others ++ [last] ∧
      others.Sublist q.descriptor.includes ∧ last.label = hop.label

/-- Filtering by an entry under one key compiles it under another: wherever the entry
stands in a condition, it stands in the same place of the condition that the query gets,
and the filter that the query is read with names the other key. What becomes of entries
that another key of their clause is renamed onto is not said. -/
def FiltersUnder (q : Query) (old new : String) : Prop :=
  ∀ c : Condition, c.ClausesOrdered → ∀ way clause operand, ClauseAt c.fields way clause →
    clause.get? old = some operand →
    (∀ other ∈ clause.keys, Renaming.key q.registry q.model other = new → other = old) →
    (∃ added renamed, (q.filter c).descriptor.selection.conditions =
        q.descriptor.selection.conditions ++ [added] ∧
      ClauseAt added.fields way renamed ∧ renamed.get? new = some operand) ∧
    Names new (q.filter c).descriptor.selection.filter

theorem filesUnder_of_association {r : Registry} {m target : Model} {key : String}
    {a : Association} (association : m.association? key = some a)
    (registered : r.get? a.target = some target) :
    FilesUnder r m key ⟨target.name, a.canonicalAlias⟩ := by
  rintro q route nested rfl rfl rfl fits
  have found : (q.model.association route.key).mapError Failure.association = .ok a :=
    mapError_eq_ok_iff.mpr (by simp [Model.association, association])
  have resolved : (q.registry.target q.model a).mapError Failure.association = .ok target :=
    mapError_eq_ok_iff.mpr (by simp [Registry.target, registered])
  have checked : checkNested a.canonicalAlias target nested = .ok () := by
    cases nested with
    | none => rfl
    | some n => simp [checkNested, fits n rfl]
  let edge : Edge := { target := target.name, label := a.canonicalAlias }
  let asked := q.descriptor.addInclude (.of edge (nested.map (·.descriptor))) route.overrides
  obtain ⟨others, last, filed, sub, label⟩ :=
    q.descriptor.includes_addInclude (.of edge (nested.map (·.descriptor))) route.overrides
  refine ⟨{ q with descriptor := asked }, others, last, ?_, filed, sub, ?_⟩
  · simp only [including, found, resolved, checked, ok_bind, pure_eq_ok]
    rfl
  · exact label.trans (congrArg Edge.label (Include.edge_of edge _))

/-- Including an association on a chain that sorting resolves, from the model that the ones
before it lead to, files rows under the label that sorting finds for it. -/
theorem filesUnder_of_hops {r : Registry} {m : Model} {before after : List String} {key : String}
    {hops : List Request.Hop} (resolved : Expr.hops r m (before ++ key :: after) = .ok hops) :
    ∃ m' hop, r.reached? m before = some m' ∧ hops[before.length]? = some hop ∧
      FilesUnder r m' key hop := by
  obtain ⟨m', first, last, reached, length, later, rfl⟩ := Expr.hops_append_ok resolved
  obtain ⟨a, target, others, association, known, -, rfl⟩ := Expr.hops_cons_ok later
  refine ⟨m', ⟨target.name, a.canonicalAlias⟩, reached, ?_,
    filesUnder_of_association association known⟩
  simp [← length]

/-- An entry under a key that does not join clauses is compiled under the renamed key. -/
theorem filtersUnder_of_key {q : Query} {old new : String}
    (ordered : ∀ c ∈ q.descriptor.selection.conditions, c.Ordered)
    (single : Renaming.isJunction old = false)
    (renamed : Renaming.key q.registry q.model old = new) : q.FiltersUnder old new := by
  intro c clauses way clause operand found there alone
  have ascending : clause.Ascending := clauses.clauses found
  have self : Renaming.entry q.registry q.model (old, operand) = (new, operand) := by
    simp [Renaming.entry, single, renamed]
  have other_ne : Renaming.isJunction new = false := renamed ▸ Renaming.isJunction_key single
  have moved : (Renaming.filter q.registry q.model clause).get? new = some operand := by
    have kept := Renaming.get?_filter (r := q.registry) (m := q.model) ascending there
      fun e member same => ?_
    · rwa [self] at kept
    · rw [self] at same
      refine alone e.1 (List.mem_map_of_mem member) ?_
      cases joins : Renaming.isJunction e.1 with
      | false => simpa [Renaming.entry, joins] using same
      | true =>
          have equal : e.1 = new := by simpa [Renaming.entry, joins] using same
          rw [equal, other_ne] at joins
          cases joins
  let added : Condition := ⟨Renaming.filter q.registry q.model c.fields⟩
  have placed : ClauseAt added.fields way (Renaming.filter q.registry q.model clause) :=
    Renaming.clauseAt_filter clauses.clauses found
  have conditions : (q.filter c).descriptor.selection.conditions =
      q.descriptor.selection.conditions ++ [added] := rfl
  refine ⟨⟨added, _, conditions, placed, moved⟩, ?_⟩
  have notAnd : new ≠ andKey := by
    rintro rfl
    cases other_ne
  have inOrder : ∀ c' ∈ (q.filter c).descriptor.selection.conditions, c'.Ordered := by
    rw [conditions, List.forall_mem_append, List.forall_mem_singleton]
    exact ⟨ordered, Renaming.ordered_filter clauses.toOrdered⟩
  rw [Condition.names_filter_iff notAnd inOrder, conditions]
  exact ⟨added, by simp, placed.names (.here moved)⟩

/-- An attribute of a related model goes by the same names however it is reached. Where
sorting by it resolves the associations on the way, a filter on it, anywhere in a condition,
is compiled under the labels that sorting has found; and including each association, from
the model that the ones before it lead to, files rows under its label. The name of the
attribute must not read as one more association and a name at the end of that way. -/
theorem filter_order_include_agree {q : Query} {path : List String} {name : String}
    {direction : Request.Direction} {term : Request.SortTerm}
    (ordered : ∀ c ∈ q.descriptor.selection.conditions, c.Ordered)
    (registered : q.registry.get? q.model.name = some q.model) (nonempty : path ≠ [])
    (dotless : ∀ key ∈ path, Text.hasDot key = false)
    (plain : ∀ last, q.registry.reached? q.model path = some last →
      Renaming.path q.registry last (Text.segments name) = Text.segments name)
    (sorted : OrderTerm.toRequest q.registry q.model.name ⟨.attribute path name, direction⟩ =
      .ok term) :
    term.target = .str name ∧
    q.FiltersUnder (Expr.attributeKey path name)
      (Expr.attributeKey (term.path.map (·.label)) name) ∧
    ∀ before key after, path = before ++ key :: after → ∃ m hop,
      q.registry.reached? q.model before = some m ∧ term.path[before.length]? = some hop ∧
      FilesUnder q.registry m key hop := by
  obtain ⟨hops, resolved, rfl⟩ := OrderTerm.toRequest_ok nonempty registered sorted
  refine ⟨rfl, ?_, ?_⟩
  · refine filtersUnder_of_key ordered ?_
      (Renaming.key_attributeKey nonempty dotless plain resolved)
    rw [Expr.attributeKey_of_ne nonempty]
    exact Renaming.isJunction_of_dollars _
  · rintro before key after rfl
    exact filesUnder_of_hops resolved

section Crossing

/-- A model that belongs to another one. -/
def left : Model :=
  { name := "A", attributes := [.identity "id"],
    associations := [{ key := "b", kind := .belongsTo, target := "B" }] }

/-- A model that belongs to the one that belongs to it, under an alias, and that has an
attribute whose name starts like the key of this association. -/
def right : Model :=
  { name := "B", attributes := [.identity "id", { name := "c.x", dataType := .integer }],
    associations := [
      { key := "c", kind := .belongsTo, target := "A", declaredAlias := some "d" }] }

/-- Everything of the first of two models that belong to each other. -/
def crossing : Query :=
  { registry := [("A", left), ("B", right)], model := left, descriptor := .ofModel "A" }

/-- A disjunction with one member, which is on an attribute at the end of both associations. -/
def roundTrip : Condition :=
  ⟨[("$or", .arr [.obj [("$b.c.id$", .ofInt 1)]])]⟩

theorem clausesOrdered_roundTrip : roundTrip.ClausesOrdered where
  ascending := by decide
  objects := by decide
  clauses := by
    have either : ∀ {way clause}, ClauseAt roundTrip.fields way clause →
        clause = roundTrip.fields ∨ clause = [("$b.c.id$", .ofInt 1)] := by
      intro way clause found
      induction found with
      | top => exact .inl rfl
      | under _ joins there member ih =>
          rcases ih with rfl | rfl
          · obtain ⟨rfl, rfl⟩ : "$or" = _ ∧ Value.arr _ = _ := by
              simpa [roundTrip] using there
            exact .inr (by simpa [clausesUnder, Value.fields?] using List.mem_of_getElem? member)
          · obtain ⟨rfl, -⟩ : "$b.c.id$" = _ ∧ Value.ofInt 1 = _ := by simpa using there
            exact absurd joins (by decide)
    intro way clause found
    rcases either found with rfl | rfl <;> decide

/-- The key of the second association is replaced by its alias in the sort key, as it is in
the member of the disjunction, and rows are filed under the alias. -/
theorem filter_order_include_agree_crossing :
    OrderTerm.toRequest crossing.registry "A" ⟨.attribute ["b", "c"] "id", .asc⟩ =
      .ok { path := [⟨"B", "b"⟩, ⟨"A", "d"⟩], target := .str "id", direction := .asc } ∧
    Names "$b.d.id$" (crossing.filter roundTrip).descriptor.selection.filter ∧
    FilesUnder crossing.registry right "c" ⟨"A", "d"⟩ := by
  have sorted : OrderTerm.toRequest crossing.registry "A" ⟨.attribute ["b", "c"] "id", .asc⟩ =
      .ok { path := [⟨"B", "b"⟩, ⟨"A", "d"⟩], target := .str "id", direction := .asc } := rfl
  have dotless : ∀ key ∈ ["b", "c"], Text.hasDot key = false := by decide
  have plain : ∀ last, crossing.registry.reached? crossing.model ["b", "c"] = some last →
      Renaming.path crossing.registry last (Text.segments "id") = Text.segments "id" := by
    intro last _
    rw [Text.segments_of_dotless (by decide), Renaming.path]
  obtain ⟨-, filters, files⟩ := filter_order_include_agree (q := crossing)
    (fun c member => nomatch member) rfl (by simp) dotless plain sorted
  refine ⟨sorted, ?_, ?_⟩
  · have member : ClauseAt roundTrip.fields [("$or", 0)] [("$b.c.id$", .ofInt 1)] :=
      .under .top (by decide) rfl rfl
    exact (filters roundTrip clausesOrdered_roundTrip _ _ _ member rfl (by decide)).2
  · obtain ⟨m, hop, reached, at_c, filed⟩ := files ["b"] "c" [] rfl
    obtain rfl : right = m := Option.some.inj reached
    obtain rfl : ⟨"A", "d"⟩ = hop := Option.some.inj at_c
    exact filed

/-- The name of an attribute is taken for an association and a name, and is renamed. -/
theorem filter_order_differ_dotted :
    (Registry.register [] left >>= fun r => r.register right) = .ok crossing.registry ∧
    Query.ofModel crossing.registry "A" = .ok crossing ∧
    OrderTerm.toRequest crossing.registry "A" ⟨.attribute ["b"] "c.x", .asc⟩ =
      .ok { path := [⟨"B", "b"⟩], target := .str "c.x", direction := .asc } ∧
    Text.hasDot "b" = false ∧
    Condition.compare (.attribute ["b"] "c.x") .eq (.value (.ofInt 1)) =
      .ok ⟨[(Expr.attributeKey ["b"] "c.x", .ofInt 1)]⟩ ∧
    (crossing.filter ⟨[(Expr.attributeKey ["b"] "c.x", .ofInt 1)]⟩).descriptor.selection.filter =
      [("$b.d.x$", .ofInt 1)] ∧
    ¬ Names (Expr.attributeKey ["b"] "c.x") [("$b.d.x$", .ofInt 1)] := by
  refine ⟨rfl, rfl, rfl, ?_, rfl, ?_, ?_⟩
  · decide
  · rfl
  · rw [names_single]
    rintro (same | ⟨joins, -⟩)
    · exact absurd same (by decide)
    · exact absurd joins (by decide)

end Crossing

end Query

end RecordGraph
