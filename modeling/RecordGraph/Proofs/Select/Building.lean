import RecordGraph.Proofs.Select.Merging
import RecordGraph.Proofs.Select.Paths

/-!
# The includes of built queries

Includes get into a query in two ways: asking for an association takes out the include of its
label, if there is one, and appends what it becomes; merging changes it in its place. Below the
include both go on in the second way. Neither ever leaves two includes of one label next to each
other, at any depth, in whatever order a query is built; and neither loses one, since the labels
that lead down the includes afterwards are those of before together with those that are added.
-/

namespace RecordGraph

namespace Include

/-- Labels lead down a list of includes: an include of the first label is in the list, and the
other labels lead down the includes below it. A single label does if it is one of the list. -/
def Asks : List Include → List String → Prop
  | _, [] => True
  | includes, label :: rest => ∃ i ∈ includes, i.label = label ∧ Asks i.children rest

variable {a b : List Include} {i x y : Include} {label : String} {path rest : List String}

/-! ### The labels that lead down a merge -/

theorem asks_cons_iff : Asks (x :: a) (label :: rest) ↔
    x.label = label ∧ Asks x.children rest ∨ Asks a (label :: rest) := by
  simp [Asks]

theorem asks_single_iff : Asks [i] (label :: rest) ↔ i.label = label ∧ Asks i.children rest := by
  simp [Asks]

theorem asks_append_iff : Asks (a ++ b) path ↔ Asks a path ∨ Asks b path := by
  cases path with
  | nil => simp [Asks]
  | cons label rest => simp [Asks, or_and_right, exists_or]

/-- What leads down the include of a label after a change leads there before, or is new. -/
theorem asks_alter_iff {change : Include → Include} (keeps : ∀ x, (change x).label = i.label)
    (below : ∀ x, Asks (change x).children rest ↔ Asks x.children rest ∨ Asks i.children rest) :
    Asks (alter i.label change i a) (label :: rest) ↔
      Asks a (label :: rest) ∨ i.label = label ∧ Asks i.children rest := by
  induction a with
  | nil => simp [alter, Asks]
  | cons x a ih =>
      rw [alter]
      by_cases here : x.label = i.label
      · rw [if_pos here, asks_cons_iff, asks_cons_iff, keeps, below, here]
        grind
      · rw [if_neg here, asks_cons_iff, asks_cons_iff, ih]
        grind

@[simp] theorem children_withEdge (x : Include) (edge : Edge) :
    (x.withEdge edge).children = x.children := by
  cases x <;> rfl

/-- Labels lead down the includes below a merge if they lead down those below either side, where
this holds of merged lists. -/
theorem asks_children_merge_iff
    (lists : ∀ a b, Asks (mergeAll a b) path ↔ Asks a path ∨ Asks b path) :
    Asks (merge x i).children path ↔ Asks x.children path ∨ Asks i.children path := by
  have none : Asks [] path → ∀ includes, Asks includes path := by
    cases path with
    | nil => exact fun _ _ => trivial
    | cons label rest => simp [Asks]
  cases i with
  | plain edge =>
      show Asks (x.withEdge edge).children path ↔ _ ∨ Asks [] path
      rw [children_withEdge]
      exact ⟨.inl, fun either => either.elim id fun nothing => none nothing _⟩
  | nested edge selection children =>
      cases x with
      | plain => exact ⟨.inr, fun either => either.elim (fun nothing => none nothing _) id⟩
      | nested => exact lists _ children

/-- Labels lead down merged lists of includes if they lead down one of the lists: the induction
is on the labels, and on the later list for the first of them. -/
theorem asks_mergeAll_iff : Asks (mergeAll a b) path ↔ Asks a path ∨ Asks b path := by
  induction path generalizing a b with
  | nil => simp [Asks]
  | cons label rest ih =>
      induction b generalizing a with
      | nil => simp [mergeAll, Asks]
      | cons i b later =>
          rw [mergeAll, later, asks_alter_iff (fun x => label_merge x i)
            (fun x => asks_children_merge_iff fun _ _ => ih), asks_cons_iff, or_assoc]

/-! ### No label twice -/

theorem under?_of_mem (distinct : (labels a).Nodup) (member : i ∈ a) :
    under? a i.label = some i := by
  induction a with
  | nil => cases member
  | cons x a ih =>
      obtain ⟨fresh, distinct⟩ := List.nodup_cons.mp distinct
      rw [under?_cons]
      rcases List.mem_cons.mp member with rfl | later
      · exact if_pos rfl
      · have other : x.label ≠ i.label := fun same => fresh (same ▸ List.mem_map_of_mem later)
        rw [if_neg other, ih distinct later]

/-- An include of a merge is one of either side, or the merge of one of each. -/
theorem exists_of_mem_mergeAll (ha : (labels a).Nodup) (hb : (labels b).Nodup)
    (member : i ∈ mergeAll a b) : i ∈ a ∨ i ∈ b ∨ ∃ x ∈ a, ∃ y ∈ b, i = merge x y := by
  have distinct : (labels (mergeAll a b)).Nodup := by
    rw [labels_mergeAll]
    exact Selection.nodup_union ha
  have found := under?_of_mem distinct member
  rw [under?_mergeAll hb] at found
  cases hx : under? a i.label with
  | none =>
      rw [hx, Option.merge_none_left] at found
      exact .inr (.inl (mem_of_under? found))
  | some x =>
      cases hy : under? b i.label with
      | none =>
          rw [hx, hy, Option.merge_none_right] at found
          exact .inl (mem_of_under? (hx.trans found))
      | some y =>
          rw [hx, hy] at found
          exact .inr (.inr ⟨x, mem_of_under? hx, y, mem_of_under? hy, (Option.some.inj found).symm⟩)

theorem UniqueAll.mergeAll_of (ha : UniqueAll a) (hb : UniqueAll b)
    (each : ∀ x ∈ a, ∀ y ∈ b, (merge x y).Unique) : UniqueAll (mergeAll a b) where
  distinct := by
    rw [labels_mergeAll]
    exact Selection.nodup_union ha.distinct
  below i member := by
    obtain left | right | ⟨x, hx, y, hy, rfl⟩ :=
      exists_of_mem_mergeAll ha.distinct hb.distinct member
    · exact ha.below i left
    · exact hb.below i right
    · exact each x hx y hy

theorem Unique.withEdge (hx : x.Unique) (edge : Edge) : (x.withEdge edge).Unique := by
  cases hx with
  | plain => exact .plain edge
  | nested distinct below => exact .nested distinct below

theorem Unique.merge (hx : x.Unique) (hy : y.Unique) : (merge x y).Unique := by
  induction hy generalizing x with
  | plain edge => exact hx.withEdge edge
  | nested distinct below ih =>
      cases hx with
      | plain => exact .nested distinct below
      | nested distinct_x below_x =>
          have merged : UniqueAll (mergeAll _ _) :=
            UniqueAll.mergeAll_of ⟨distinct_x, below_x⟩ ⟨distinct, below⟩
              fun x hx y hy => ih y hy (below_x x hx)
          exact .nested merged.distinct merged.below

theorem UniqueAll.mergeAll (ha : UniqueAll a) (hb : UniqueAll b) : UniqueAll (mergeAll a b) :=
  ha.mergeAll_of hb fun x hx y hy => (ha.below x hx).merge (hb.below y hy)

/-- An include of a new label may be appended. -/
theorem UniqueAll.concat (ha : UniqueAll a) (fresh : i.label ∉ labels a) (hi : i.Unique) :
    UniqueAll (a ++ [i]) where
  distinct := by
    rw [labels, List.map_append]
    exact (List.perm_append_singleton _ _).nodup_iff.mpr (List.nodup_cons.mpr ⟨fresh, ha.distinct⟩)
  below j member := by
    rcases List.mem_append.mp member with old | new
    · exact ha.below j old
    · rw [List.mem_singleton.mp new]
      exact hi

/-- Where one include is taken out, the others do not have its label. -/
theorem UniqueAll.split {before after : List Include} (h : UniqueAll (before ++ x :: after)) :
    UniqueAll (before ++ after) ∧ x.label ∉ labels (before ++ after) ∧ x.Unique := by
  have distinct : (labels (x :: (before ++ after))).Nodup :=
    (List.perm_middle.map label).nodup_iff.mp h.distinct
  obtain ⟨fresh, distinct⟩ := List.nodup_cons.mp distinct
  have others : (before ++ after).Sublist (before ++ x :: after) :=
    (List.Sublist.refl before).append (List.sublist_cons_self x after)
  exact ⟨⟨distinct, fun j member => h.below j (others.subset member)⟩, fresh,
    h.below x (by simp)⟩

end Include

namespace Descriptor

open RecordGraph.Include

variable {d : Descriptor} {i : Include} {o : Overrides} {path : List String}

theorem asks_withEdge_iff {edge : Edge} (label : edge.label = i.label) :
    Asks [i.withEdge edge] path ↔ Asks [i] path := by
  cases path with
  | nil => exact Iff.rfl
  | cons name rest =>
      rw [asks_single_iff, asks_single_iff, label_withEdge, label, children_withEdge]

/-- Asking for an association leads to it and to what is asked for below it, and to whatever the
includes led to before. -/
theorem asks_addInclude_iff :
    Asks (d.addInclude i o).includes path ↔ Asks d.includes path ∨ Asks [i] path := by
  rw [addInclude]
  cases found : extract i.label d.includes with
  | none => exact asks_append_iff.trans (or_congr_right (asks_withEdge_iff rfl))
  | some split =>
      obtain ⟨existing, others⟩ := split
      obtain ⟨same, before, after, whole, rfl⟩ := extract_some found
      have edge : (existing.edge.withOverrides o).label = (Include.merge existing i).label :=
        same.trans (label_merge existing i).symm
      have merged : Asks [Include.merge existing i] path ↔ Asks [existing] path ∨ Asks [i] path := by
        cases path with
        | nil => simp [Asks]
        | cons label rest =>
            rw [asks_single_iff, asks_single_iff, asks_single_iff, label_merge, same,
              asks_children_merge_iff fun _ _ => asks_mergeAll_iff, and_or_left]
      have middle : Asks d.includes path ↔
          Asks (before ++ after) path ∨ Asks [existing] path := by
        rw [whole, List.append_cons, asks_append_iff, asks_append_iff, asks_append_iff]
        exact or_right_comm
      rw [middle, or_assoc, ← merged]
      exact asks_append_iff.trans (or_congr_right (asks_withEdge_iff edge))

theorem Unique.addInclude (hd : d.Unique) (hi : i.Unique) : (d.addInclude i o).Unique := by
  rw [Descriptor.addInclude]
  cases found : extract i.label d.includes with
  | none =>
      apply UniqueAll.concat hd _ (hi.withEdge _)
      rw [label_withEdge]
      intro member
      obtain ⟨j, there, same⟩ := List.mem_map.mp member
      exact label_ne_of_extract found j there same
  | some split =>
      obtain ⟨existing, others⟩ := split
      obtain ⟨same, before, after, whole, rfl⟩ := extract_some found
      rw [Unique, whole] at hd
      obtain ⟨others, fresh, known⟩ := hd.split
      apply UniqueAll.concat others _ ((known.merge hi).withEdge _)
      rw [label_withEdge]
      exact fresh

end Descriptor

namespace Query

open RecordGraph.Include

variable {q asked : Query}

/-- A query is built from the one for everything of a registered model, by any steps in any order;
what it is merged with and what is nested in it is built so, too. -/
inductive Built : Query → Prop where
  | ofModel {r : Registry} {name : String} {q : Query} (known : Query.ofModel r name = .ok q) :
      Built q
  | filter {q : Query} (built : Built q) (c : Condition) : Built (q.filter c)
  | attributes {q : Query} (built : Built q) (exprs : List Expr) : Built (q.attributes exprs)
  | order {q : Query} (built : Built q) (terms : List OrderTerm) : Built (q.order terms)
  | groupBy {q : Query} (built : Built q) (exprs : List Expr) : Built (q.groupBy exprs)
  | skip {q : Query} (built : Built q) (n : Nat) : Built (q.skip n)
  | take {q : Query} (built : Built q) (n : Nat) : Built (q.take n)
  | merge {q later : Query} (built : Built q) (other : Built later) : Built (q.merge later)
  | including {q asked : Query} {route : Route} {nested : Option Query} (built : Built q)
      (inner : ∀ n, nested = some n → Built n) (done : q.including route nested = .ok asked) :
      Built asked
  | includeAll {q asked : Query} (built : Built q) (done : q.includeAll = .ok asked) : Built asked

/-- Asking for the end of a route asks for the association of its last key. -/
theorem including_eq {route : Route} {nested : Option Query}
    (done : q.including route nested = .ok asked) :
    ∃ a edge, q.model.association route.key = .ok a ∧ edge.label = a.canonicalAlias ∧
      asked.descriptor =
        q.descriptor.addInclude (.of edge (nested.map (·.descriptor))) route.overrides := by
  obtain ⟨a, association, done⟩ := bind_eq_ok_iff.mp done
  obtain ⟨target, -, done⟩ := bind_eq_ok_iff.mp done
  obtain ⟨-, -, done⟩ := bind_eq_ok_iff.mp done
  cases done
  exact ⟨a, _, mapError_eq_ok_iff.mp association, rfl, rfl⟩

/-- Asking for all associations asks for one after the other. -/
theorem includeAll_eq (done : q.includeAll = .ok asked) :
    ∃ edges : List Edge, edges.map (·.label) = q.model.associations.map (·.canonicalAlias) ∧
      asked.descriptor = edges.foldl
        (fun d edge => d.addInclude (.plain edge) { associateOnly := some true }) q.descriptor := by
  obtain ⟨all, walked, done⟩ := bind_eq_ok_iff.mp done
  cases done
  show ∃ edges, _ ∧ all = _
  generalize q.descriptor = d at walked ⊢
  generalize q.model.associations = associations at walked ⊢
  induction associations generalizing d with
  | nil =>
      cases walked
      exact ⟨[], rfl, rfl⟩
  | cons a rest ih =>
      rw [List.foldlM_cons] at walked
      obtain ⟨first, here, walked⟩ := bind_eq_ok_iff.mp walked
      obtain ⟨target, -, here⟩ := bind_eq_ok_iff.mp here
      cases here
      obtain ⟨edges, labels, rfl⟩ := ih _ walked
      refine ⟨{ target := _, label := a.canonicalAlias } :: edges, ?_, rfl⟩
      rw [List.map_cons, List.map_cons, labels]

/-- No two includes of a built query have the same label, at any depth. -/
theorem Built.unique (built : q.Built) : q.descriptor.Unique := by
  induction built with
  | ofModel known =>
      obtain ⟨m, -, made⟩ := bind_eq_ok_iff.mp known
      cases made
      exact ⟨.nil, nofun⟩
  | filter _ _ ih => exact ih
  | attributes _ _ ih => exact ih
  | order _ _ ih => exact ih
  | groupBy _ _ ih => exact ih
  | skip _ _ ih => exact ih
  | take _ _ ih => exact ih
  | merge _ _ ih other => exact UniqueAll.mergeAll ih other
  | @including q asked route nested _ _ done ih inner =>
      obtain ⟨a, edge, -, -, made⟩ := including_eq done
      rw [made]
      apply ih.addInclude
      cases nested with
      | none => exact .plain edge
      | some n =>
          obtain ⟨distinct, below⟩ := inner n rfl
          exact .nested distinct below
  | includeAll _ done ih =>
      obtain ⟨edges, -, made⟩ := includeAll_eq done
      rw [made]
      exact List.foldlRecOn edges _ ih fun d unique edge _ => unique.addInclude (.plain edge)

/-- What asking for all associations leads to: besides what was there, one label for each. -/
theorem asks_foldl_plain_iff {edges : List Edge} {o : Overrides} {d : Descriptor}
    {path : List String} :
    Asks (edges.foldl (fun d edge => d.addInclude (.plain edge) o) d).includes path ↔
      Asks d.includes path ∨ ∃ label ∈ edges.map (·.label), path = [label] := by
  induction edges generalizing d with
  | nil => simp
  | cons edge rest ih =>
      rw [List.foldl_cons, ih, Descriptor.asks_addInclude_iff]
      have here : Asks d.includes path ∨ Asks [Include.plain edge] path ↔
          Asks d.includes path ∨ path = [edge.label] := by
        cases path with
        | nil => simp [Asks]
        | cons label below =>
            have deepest : Asks [] below ↔ below = [] := by
              cases below <;> simp [Asks]
            rw [asks_single_iff, List.cons.injEq, ← deepest, eq_comm (a := label)]
            exact Iff.rfl
      rw [here, or_assoc]
      simp only [List.map_cons, List.mem_cons, exists_eq_or_imp]

/-- Includes of a built query are told apart by their labels at every depth, and none gets lost.
After a merge the labels that lead down the includes are those of both sides; after an
association is asked for they are those of before, the alias of the association, and what leads
down the nested query behind it; and after all are asked for, those of before and all aliases. -/
theorem includes_once_and_kept (built : q.Built) :
    q.descriptor.Unique ∧
    (∀ later path, Asks (q.merge later).descriptor.includes path ↔
      Asks q.descriptor.includes path ∨ Asks later.descriptor.includes path) ∧
    (∀ route nested asked, q.including route nested = .ok asked →
      ∃ a, q.model.association route.key = .ok a ∧
        ∀ path, Asks asked.descriptor.includes path ↔ Asks q.descriptor.includes path ∨
          ∃ rest, path = a.canonicalAlias :: rest ∧
            Asks ((nested.map (·.descriptor.includes)).getD []) rest) ∧
    ∀ asked, q.includeAll = .ok asked → ∀ path, Asks asked.descriptor.includes path ↔
      Asks q.descriptor.includes path ∨ ∃ a ∈ q.model.associations, path = [a.canonicalAlias] := by
  refine ⟨built.unique, fun later path => asks_mergeAll_iff, ?_, ?_⟩
  · intro route nested asked done
    obtain ⟨a, edge, association, label, made⟩ := including_eq done
    refine ⟨a, association, fun path => ?_⟩
    rw [made, Descriptor.asks_addInclude_iff]
    cases path with
    | nil => simp [Asks]
    | cons name rest =>
        have there : Asks [Include.of edge (nested.map (·.descriptor))] (name :: rest) ↔
            a.canonicalAlias = name ∧
              Asks ((nested.map (·.descriptor.includes)).getD []) rest := by
          rw [asks_single_iff, Include.label, edge_of, label, children_of, Option.map_map]
          exact Iff.rfl
        rw [there]
        grind
  · intro asked done path
    obtain ⟨edges, labels, made⟩ := includeAll_eq done
    rw [made, asks_foldl_plain_iff, labels]
    simp

/-- The second of two models that belong to each other, with the first one below it. -/
def returning : Query :=
  { registry := crossing.registry, model := right,
    descriptor := { selection := { model := "B" },
                    includes := [.plain { target := "A", label := "d" }] } }

/-- The first of them, with the second one and what is asked for below it. -/
def roundAbout : Query :=
  { crossing with
    descriptor := { selection := { model := "A" },
                    includes := [.nested { target := "B", label := "b" } { model := "B" }
                      [.plain { target := "A", label := "d" }]] } }

/-- After everything is asked for as well, the second model is still there once, and still with
the first one below it. -/
theorem includes_once_and_kept_roundAbout :
    roundAbout.Built ∧ ∃ all, roundAbout.includeAll = .ok all ∧ all.descriptor.Unique ∧
      Asks all.descriptor.includes ["b", "d"] := by
  have second : Query.ofModel crossing.registry "B" =
      .ok { returning with descriptor := .ofModel "B" } := rfl
  have back : including { returning with descriptor := .ofModel "B" } (.ofKey "c") none =
      .ok returning := rfl
  have inner : returning.Built := by
    apply Built.including (.ofModel second) _ back
    exact nofun
  have first : Query.ofModel crossing.registry "A" = .ok crossing := rfl
  have asked : crossing.including (.ofKey "b") (some returning) = .ok roundAbout := rfl
  have built : roundAbout.Built := by
    apply Built.including (.ofModel first) _ asked
    intro n given
    exact Option.some.inj given ▸ inner
  obtain ⟨all, done⟩ : ∃ all, roundAbout.includeAll = .ok all := ⟨_, rfl⟩
  have below : Asks roundAbout.descriptor.includes ["b", "d"] :=
    ⟨_, List.mem_cons_self, rfl, _, List.mem_cons_self, rfl, trivial⟩
  obtain ⟨-, -, -, everything⟩ := includes_once_and_kept built
  obtain ⟨unique, -⟩ := includes_once_and_kept (.includeAll built done)
  exact ⟨built, all, done, unique, (everything all done _).mpr (.inl below)⟩

end Query

end RecordGraph
