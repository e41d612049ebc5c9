import RecordGraph.Proofs.Select.Building

/-!
# Chains of associations

A route is put together from single associations, each named on the model that the one before
it leads to. An attribute at its end is reached through all of them, in order: its key and its
reference print the whole chain, and a sort key by it resolves every association where it is
declared. Asking for the rows at its end does none of this. The last association is looked up
on the model of the query itself, and its rows are asked for there. So a single association
asks for what it denotes, and a longer chain does so only where nothing was left to ask for.
-/

namespace RecordGraph

open Include (Asks asks_single_iff)

/-- Associations lead from a model along hops: each of them is declared on the model that the
one before it leads to, and its hop is its target with its alias. -/
inductive Registry.Passes (r : Registry) : Model → List String → List Request.Hop → Prop where
  | here {m : Model} : Passes r m [] []
  | along {m target : Model} {a : Association} {key : String} {rest : List String}
      {hops : List Request.Hop} (declared : m.association? key = some a)
      (registered : r.get? a.target = some target) (onward : Passes r target rest hops) :
      Passes r m (key :: rest) (⟨target.name, a.canonicalAlias⟩ :: hops)

/-- A route is made of single associations, put one after the other in any grouping; flags may
be stated anywhere on the way. -/
inductive Route.Chain : Route → List String → Prop where
  | single (key : String) : Chain (.ofKey key) [key]
  | flagged {route : Route} {keys : List String} (chain : Chain route keys) (o : Overrides) :
      Chain { route with overrides := o } keys
  | andThen {route next : Route} {keys later : List String} (chain : Chain route keys)
      (onward : Chain next later) : Chain (route.andThen next) (keys ++ later)

namespace Route.Chain

variable {route : Route} {keys : List String}

/-- The associations of a chain are the ones that its route was made of, in their order. -/
theorem toList (chain : route.Chain keys) : route.toList = keys := by
  induction chain with
  | single key => rfl
  | flagged _ _ ih => exact ih
  | andThen _ _ first later => rw [toList_andThen, first, later]

theorem ne_nil (chain : route.Chain keys) : keys ≠ [] := by
  rw [← chain.toList]
  exact List.append_ne_nil_of_right_ne_nil route.steps (List.cons_ne_nil route.key [])

theorem eq_singleton (chain : route.Chain keys) (single : keys.length = 1) :
    keys = [route.key] := by
  rw [← chain.toList] at single ⊢
  simpa [Route.toList] using single

end Route.Chain

/-! ### Attributes at the end of a chain -/

section Attribute

variable {r : Registry} {m : Model} {model name : String} {keys : List String}
variable {hops : List Request.Hop} {direction : Request.Direction} {term : Request.SortTerm}

theorem Registry.Passes.length (passes : r.Passes m keys hops) : hops.length = keys.length := by
  induction passes with
  | here => rfl
  | along _ _ _ ih => simp [ih]

theorem Model.association_eq_ok_iff {a : Association} {key : String} :
    m.association key = .ok a ↔ m.association? key = some a := by
  rw [Model.association]
  cases m.association? key <;> simp

theorem Registry.target_eq_ok_iff {a : Association} {target : Model} :
    r.target m a = .ok target ↔ r.get? a.target = some target := by
  rw [Registry.target]
  cases r.get? a.target <;> simp

/-- Sorting resolves a chain to the hops that it leads along. -/
theorem Expr.hops_ok_iff : Expr.hops r m keys = .ok hops ↔ r.Passes m keys hops := by
  constructor
  · intro done
    induction keys generalizing m hops with
    | nil =>
        cases done
        exact .here
    | cons key rest ih =>
        obtain ⟨a, target, others, declared, registered, later, rfl⟩ := Expr.hops_cons_ok done
        exact .along declared registered (ih later)
  · intro passes
    induction passes with
    | here => rfl
    | along declared registered _ ih =>
        simp [Expr.hops, Model.association, Registry.target, declared, registered, ih]

theorem Registry.Passes.unique {others : List Request.Hop} (passes : r.Passes m keys hops)
    (also : r.Passes m keys others) : hops = others :=
  Except.ok.inj ((Expr.hops_ok_iff.mpr passes).symm.trans (Expr.hops_ok_iff.mpr also))

/-- A sort key by an attribute behind associations is one along the hops that they lead along,
and is refused if they lead nowhere. -/
theorem OrderTerm.toRequest_attribute_iff (nonempty : keys ≠ [])
    (registered : r.get? model = some m) :
    OrderTerm.toRequest r model ⟨.attribute keys name, direction⟩ = .ok term ↔
      ∃ hops, r.Passes m keys hops ∧ term = { path := hops, target := .str name, direction } := by
  constructor
  · intro done
    obtain ⟨hops, resolved, made⟩ := OrderTerm.toRequest_ok nonempty registered done
    exact ⟨hops, Expr.hops_ok_iff.mp resolved, made⟩
  · rintro ⟨hops, passes, rfl⟩
    obtain ⟨key, rest, rfl⟩ := List.exists_cons_of_ne_nil nonempty
    have found : (r.model model).mapError Failure.schema = .ok m :=
      mapError_eq_ok_iff.mpr (by simp [Registry.model, registered])
    have resolved : (Expr.hops r m (key :: rest)).mapError Failure.association = .ok hops :=
      mapError_eq_ok_iff.mpr (Expr.hops_ok_iff.mpr passes)
    simp only [OrderTerm.toRequest, found, resolved, ok_bind, pure_eq_ok]

end Attribute

/-! ### How far labels lead down includes -/

namespace Include

variable {includes : List Include} {i : Include} {path rest : List String}

theorem depth_eq (i : Include) : i.depth = 1 + depthOf i.children := by
  cases i with
  | plain edge => rfl
  | nested edge selection below => rfl

theorem depth_le_depthOf (member : i ∈ includes) : i.depth ≤ depthOf includes := by
  induction includes with
  | nil => cases member
  | cons first others ih =>
      rw [depthOf]
      rcases List.mem_cons.mp member with rfl | later
      · exact Nat.le_max_left _ _
      · exact Nat.le_trans (ih later) (Nat.le_max_right _ _)

/-- Labels do not lead further down than the includes are deep. -/
theorem Asks.length_le (asks : Asks includes path) : path.length ≤ depthOf includes := by
  induction path generalizing includes with
  | nil => exact Nat.zero_le _
  | cons label rest ih =>
      obtain ⟨i, member, -, below⟩ := asks
      have here := depth_le_depthOf member
      rw [depth_eq] at here
      have further := ih below
      rw [List.length_cons]
      omega

/-- Labels that lead down includes do so up to any of them. -/
theorem Asks.of_append (asks : Asks includes (path ++ rest)) : Asks includes path := by
  induction path generalizing includes with
  | nil => trivial
  | cons label path ih =>
      obtain ⟨i, member, same, below⟩ := asks
      exact ⟨i, member, same, ih below⟩

end Include

/-- Asking for an association asks for its label, and for what a nested descriptor asks for
below it. -/
theorem Descriptor.asks_addInclude_of_iff {d : Descriptor} {edge : Edge}
    {nested : Option Descriptor} {o : Overrides} {path : List String} :
    Asks (d.addInclude (.of edge nested) o).includes path ↔ Asks d.includes path ∨
      ∃ rest, path = edge.label :: rest ∧ Asks ((nested.map (·.includes)).getD []) rest := by
  rw [asks_addInclude_iff]
  cases path with
  | nil => simp [Asks]
  | cons label rest =>
      rw [asks_single_iff, Include.label, Include.edge_of, Include.children_of]
      grind

/-! ### Rows at the end of a chain -/

namespace Query

variable {q asked : Query} {route : Route} {nested : Option Query} {keys : List String}

/-- What a nested query asks for below the rows that it is on. -/
def below (nested : Option Query) : List Include :=
  (nested.map (·.descriptor.includes)).getD []

/-- A query asks for what another one does, for the rows that labels lead to one after the
other, for what a nested query asks for below the last of them, and for nothing else. -/
def AsksAlong (q asked : Query) (labels : List String) (nested : Option Query) : Prop :=
  ∀ path, Asks asked.descriptor.includes path ↔ Asks q.descriptor.includes path ∨
    path <+: labels ∨ ∃ rest, path = labels ++ rest ∧ Asks (below nested) rest

/-- A query asks for the rows that a chain of associations leads to from its model, on top of
what another query asks for. -/
def AsksFor (q asked : Query) (keys : List String) (nested : Option Query) : Prop :=
  ∃ hops, q.registry.Passes q.model keys hops ∧ q.AsksAlong asked (hops.map (·.label)) nested

/-- A query asks already for the rows that a chain of associations leads to from its model. -/
def HasAsked (q : Query) (keys : List String) : Prop :=
  ∃ hops, q.registry.Passes q.model keys hops ∧
    Asks q.descriptor.includes (hops.map (·.label))

/-- Including a route asks for the rows of its last association, as one of the model of the
query, whatever comes before it on the route. -/
theorem asksFor_including (done : q.including route nested = .ok asked) :
    q.AsksFor asked [route.key] nested := by
  obtain ⟨a, association, done⟩ := bind_eq_ok_iff.mp done
  obtain ⟨target, registered, done⟩ := bind_eq_ok_iff.mp done
  obtain ⟨-, -, done⟩ := bind_eq_ok_iff.mp done
  have declared := Model.association_eq_ok_iff.mp (mapError_eq_ok_iff.mp association)
  have known := Registry.target_eq_ok_iff.mp (mapError_eq_ok_iff.mp registered)
  cases done
  refine ⟨_, .along declared known .here, fun path => ?_⟩
  rw [Descriptor.asks_addInclude_of_iff, Option.map_map]
  cases path with
  | nil => simp [Asks]
  | cons label rest =>
      -- on the way along a single label there is that label alone
      refine or_congr_right ⟨.inr, ?_⟩
      rintro (onTheWay | further)
      · obtain ⟨rfl, ended⟩ := List.cons_prefix_cons.mp onTheWay
        exact ⟨rest, rfl, List.prefix_nil.mp ended ▸ trivial⟩
      · exact further

/-- What a query is asked for along few labels is what it would be asked for along more only if it
has asked for those before. Otherwise what the nested query asks for would have no end: of each
path of it, put behind the many labels, what comes after the few would be a longer one. -/
theorem asks_of_asksAlong {few many : List String} (short : q.AsksAlong asked few nested)
    (long : q.AsksAlong asked many nested) (more : few.length < many.length) :
    Asks q.descriptor.includes many := by
  refine Classical.byContradiction fun fresh => ?_
  have endless : ∀ n, ∃ path, Asks (below nested) path ∧ n ≤ path.length := by
    intro n
    induction n with
    | zero => exact ⟨[], trivial, Nat.zero_le _⟩
    | succ n ih =>
        obtain ⟨path, leads, length⟩ := ih
        have wanted : Asks asked.descriptor.includes (many ++ path) :=
          (long _).mpr (.inr (.inr ⟨path, rfl, leads⟩))
        rcases (short _).mp wanted with before | onTheWay | ⟨rest, split, further⟩
        · exact absurd before.of_append fresh
        · have lengths := onTheWay.length_le
          rw [List.length_append] at lengths
          omega
        · have lengths := congrArg List.length split
          rw [List.length_append, List.length_append] at lengths
          exact ⟨rest, further, by omega⟩
  obtain ⟨path, leads, length⟩ := endless (Include.depthOf (below nested) + 1)
  have bounded := leads.length_le
  omega

/-- An attribute behind a chain of associations is named by all of them, in order, and sorting by
it goes along the hops that they lead along. Including the chain, where it is not refused, asks
for the rows of its last association as if it stood alone, as one of the model of the query.
These are the rows that the chain leads to if it is a single association, and otherwise not,
unless the query has asked for those already. -/
theorem chain_asks_iff_single (chain : route.Chain keys)
    (registered : q.registry.get? q.model.name = some q.model) :
    (∀ path name, (route.field (.attribute path name)).leftKey? =
        some ("$" ++ Text.dotted (keys ++ path ++ [name]) ++ "$") ∧
      (route.field (.attribute path name)).operand =
        Expr.reference (Text.dotted (keys ++ path ++ [name])) ∧
      ∀ direction term, OrderTerm.toRequest q.registry q.model.name
          ⟨route.field (.attribute path name), direction⟩ = .ok term ↔
        ∃ hops, q.registry.Passes q.model (keys ++ path) hops ∧
          term = { path := hops, target := .str name, direction }) ∧
    ∀ nested asked, q.including route nested = .ok asked →
      q.AsksFor asked [route.key] nested ∧
      (keys.length = 1 → q.AsksFor asked keys nested) ∧
      (q.AsksFor asked keys nested → keys.length = 1 ∨ q.HasAsked keys) := by
  constructor
  · intro path name
    have reached : route.field (.attribute path name) = .attribute (keys ++ path) name := by
      rw [Route.field, Expr.through_attribute, chain.toList]
    have nonempty : keys ++ path ≠ [] := List.append_ne_nil_of_left_ne_nil chain.ne_nil path
    rw [reached]
    refine ⟨?_, rfl, fun direction term => OrderTerm.toRequest_attribute_iff nonempty registered⟩
    rw [Expr.leftKey?, Expr.attributeKey_of_ne nonempty]
  · intro nested asked done
    have own := asksFor_including done
    refine ⟨own, fun single => chain.eq_singleton single ▸ own, ?_⟩
    rintro ⟨hops, passes, along⟩
    obtain ⟨last, passesLast, alone⟩ := own
    by_cases single : keys.length = 1
    · exact .inl single
    · refine .inr ⟨hops, passes, asks_of_asksAlong alone along ?_⟩
      have nonempty := List.length_pos_iff.mpr chain.ne_nil
      rw [List.length_map, List.length_map, passesLast.length, passes.length,
        List.length_singleton]
      omega

section Tagged

/-- An article, which has tags and belongs to a writer. -/
def taggedArticle : Model :=
  { name := "Article", attributes := [.identity "id"],
    associations := [{ key := "writer", kind := .belongsTo, target := "Writer" },
      { key := "tags", kind := .hasMany, target := "Tag" }] }

/-- A writer, who has tags too. -/
def taggedWriter : Model :=
  { name := "Writer", attributes := [.identity "id"],
    associations := [{ key := "tags", kind := .hasMany, target := "Tag" }] }

/-- A tag, which is a word. -/
def tagModel : Model :=
  { name := "Tag", attributes := [.identity "id", { name := "word" }] }

/-- All articles. -/
def taggedArticles : Query :=
  { registry := [("Article", taggedArticle), ("Tag", tagModel), ("Writer", taggedWriter)]
    model := taggedArticle, descriptor := .ofModel "Article" }

/-- The tags of the writer of an article. -/
def writersTags : Route :=
  (Route.ofKey "writer").andThen (.ofKey "tags")

/-- Writers with their tags. -/
def taggedWriters : Query :=
  { registry := taggedArticles.registry, model := taggedWriter,
    descriptor := { selection := { model := "Writer" },
                    includes := [.plain { target := "Tag", label := "tags" }] } }

theorem chain_writersTags : writersTags.Chain ["writer", "tags"] :=
  .andThen (.single "writer") (.single "tags")

/-- Articles are sorted along the writer and the tag. Their writers with tags are asked for in
two steps: by the writer alone, with a query for writers and their tags nested in it. -/
theorem chain_asks_iff_single_writer :
    OrderTerm.toRequest taggedArticles.registry "Article"
        ⟨writersTags.field (.attribute [] "word"), .desc⟩ =
      .ok { path := [⟨"Writer", "writer"⟩, ⟨"Tag", "tags"⟩], target := .str "word",
            direction := .desc } ∧
    ∃ asked, taggedArticles.including (.ofKey "writer") (some taggedWriters) = .ok asked ∧
      taggedArticles.AsksFor asked ["writer"] (some taggedWriters) ∧
      Asks asked.descriptor.includes ["writer", "tags"] := by
  have registered : taggedArticles.registry.get? "Article" = some taggedArticle := rfl
  obtain ⟨attributes, -⟩ := chain_asks_iff_single chain_writersTags registered
  obtain ⟨-, -, sorts⟩ := attributes [] "word"
  have passes : taggedArticles.registry.Passes taggedArticle ["writer", "tags"]
      [⟨"Writer", "writer"⟩, ⟨"Tag", "tags"⟩] := Expr.hops_ok_iff.mp rfl
  obtain ⟨asked, done⟩ : ∃ asked,
      taggedArticles.including (.ofKey "writer") (some taggedWriters) = .ok asked := ⟨_, rfl⟩
  obtain ⟨-, includes⟩ := chain_asks_iff_single (.single "writer") registered
  obtain ⟨-, denoted, -⟩ := includes _ _ done
  have writers := denoted rfl
  refine ⟨(sorts _ _).mpr ⟨_, passes, rfl⟩, asked, done, writers, ?_⟩
  obtain ⟨hops, passes, along⟩ := writers
  obtain rfl : [⟨"Writer", "writer"⟩] = hops := (Expr.hops_ok_iff.mp rfl).unique passes
  exact (along _).mpr (.inr (.inr ⟨["tags"], rfl, _, List.mem_cons_self, rfl, trivial⟩))

/-- Asking for the tags of the writers of articles asks for the tags of the articles, and not
for any writer. -/
theorem writersTags_ask_for_own :
    (Registry.register [] taggedArticle >>= fun r => r.register taggedWriter >>= fun r =>
      r.register tagModel) = .ok taggedArticles.registry ∧
    Query.ofModel taggedArticles.registry "Article" = .ok taggedArticles ∧
    writersTags.Chain ["writer", "tags"] ∧
    ∃ asked, taggedArticles.including writersTags none = .ok asked ∧
      Asks asked.descriptor.includes ["tags"] ∧
      ¬ Asks asked.descriptor.includes ["writer"] ∧
      ¬ taggedArticles.AsksFor asked ["writer", "tags"] none := by
  have written : ¬ Asks [.plain { target := "Tag", label := "tags" }] ["writer"] := by
    rw [asks_single_iff]
    exact fun asks => absurd asks.1 (by decide)
  refine ⟨rfl, rfl, chain_writersTags, _, rfl, ⟨_, List.mem_cons_self, rfl, trivial⟩, written, ?_⟩
  rintro ⟨hops, passes, along⟩
  obtain rfl : [⟨"Writer", "writer"⟩, ⟨"Tag", "tags"⟩] = hops :=
    (Expr.hops_ok_iff.mp rfl).unique passes
  exact written ((along ["writer"]).mpr (.inr (.inl ⟨["tags"], rfl⟩)))

end Tagged

end Query

end RecordGraph
