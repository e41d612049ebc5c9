import RecordGraph.Proofs.Select.Equality
import RecordGraph.Select.Descriptor

/-!
# The laws of merging

Descriptors merge part by part, and every part follows the same three laws: merging is
associative, a part merged with itself is itself, and merging the same part once more adds
nothing. For a list this is so because its union with another one keeps of equal elements
the first that stood there, and keeps the order.

A list of includes is a map from labels to includes that remembers an order: its labels
unite as lists do, and under a label stands the merge of what both sides have there. A list
with distinct labels is determined by these two, so the laws for lists of includes follow
from those for the includes in them, by induction on how deep the includes are nested.
-/

namespace RecordGraph

namespace Selection

section Union

variable {α : Type} [BEq α] {xs ys zs : List α} {x : α}

theorem union_append : union xs (ys ++ zs) = union (union xs ys) zs :=
  List.foldl_append

theorem union_singleton : union xs [x] = if xs.contains x then xs else xs ++ [x] := rfl

theorem union_eq_left (inside : ∀ y ∈ ys, xs.contains y = true) : union xs ys = xs := by
  induction ys with
  | nil => rfl
  | cons y ys ih =>
      obtain ⟨first, others⟩ := List.forall_mem_cons.mp inside
      rw [union_cons, if_pos first]
      exact ih others

variable [EquivBEq α]

/-- An element is in the union if it is in one of the lists. -/
theorem contains_union : (union xs ys).contains x = (xs.contains x || ys.contains x) := by
  induction ys generalizing xs with
  | nil => simp
  | cons y ys ih =>
      rw [union_cons, ih, List.contains_cons]
      by_cases there : xs.contains y = true
      · rw [if_pos there]
        cases same : x == y with
        | false => rw [Bool.false_or]
        | true =>
            have equal : xs.contains x = xs.contains y := List.contains_congr same
            rw [equal, there, Bool.true_or, Bool.true_or]
      · rw [if_neg there]
        simp [List.contains_eq_any_beq, Bool.or_assoc]

theorem union_self (xs : List α) : union xs xs = xs := by
  apply union_eq_left
  intro y member
  exact List.contains_iff_exists_mem_beq.mpr ⟨y, member, BEq.rfl⟩

/-- Uniting lists one after the other is uniting the first with the union of the others. -/
theorem union_assoc (xs ys zs : List α) : union (union xs ys) zs = union xs (union ys zs) := by
  induction zs generalizing ys with
  | nil => rfl
  | cons z zs ih =>
      have step : union xs (if ys.contains z then ys else ys ++ [z]) =
          if (union xs ys).contains z then union xs ys else union xs ys ++ [z] := by
        by_cases there : ys.contains z = true
        · rw [if_pos there, contains_union, there, Bool.or_true, if_pos rfl]
        · rw [if_neg there, union_append, union_singleton]
      rw [union_cons, union_cons, ← ih, step]

/-- The union of distinct labels with any others has distinct labels. -/
theorem nodup_union {labels others : List String} (distinct : labels.Nodup) :
    (union labels others).Nodup := by
  induction others generalizing labels with
  | nil => exact distinct
  | cons label rest ih =>
      rw [union_cons]
      apply ih
      split
      · exact distinct
      · rename_i absent
        rw [List.contains_iff_mem] at absent
        exact List.nodup_append.mpr ⟨distinct, List.pairwise_singleton _ _, by grind⟩

end Union

theorem laterCount_self (n : Nat) : laterCount n n = n := by
  rw [laterCount]
  split <;> rfl

theorem laterCount_assoc (m n k : Nat) :
    laterCount (laterCount m n) k = laterCount m (laterCount n k) := by
  unfold laterCount
  by_cases later : k ≠ 0
  · rw [if_pos later, if_pos later, if_pos later]
  · rw [if_neg later, if_neg later]

theorem merge_self (s : Selection) : s.merge s = s := by
  simp only [merge, union_self, laterCount_self]

theorem merge_assoc (s t u : Selection) : (s.merge t).merge u = s.merge (t.merge u) := by
  simp only [merge, union_assoc, laterCount_assoc]

end Selection

namespace Include

/-- The labels of a list of includes, in order. -/
def labels (includes : List Include) : List String :=
  includes.map label

/-- The first include of a label. -/
def under? (includes : List Include) (name : String) : Option Include :=
  includes.find? (·.label == name)

variable {a b c : List Include} {i x y z : Include} {name other : String}

@[simp] theorem labels_cons : labels (i :: a) = i.label :: labels a := rfl

@[simp] theorem under?_nil : under? [] name = none := rfl

theorem under?_cons : under? (i :: a) name = if i.label = name then some i else under? a name := by
  by_cases here : i.label = name
  · simp [under?, here]
  · simp [under?, here]

theorem mem_of_under? (found : under? a name = some i) : i ∈ a :=
  List.mem_of_find?_eq_some found

theorem under?_eq_none_iff : under? a name = none ↔ name ∉ labels a := by
  simp [under?, labels]

/-- A list with distinct labels is its labels with what stands under them. -/
theorem ext_under? (distinct : (labels a).Nodup) (same : labels a = labels b)
    (under : ∀ name, under? a name = under? b name) : a = b := by
  induction a generalizing b with
  | nil => exact (List.map_eq_nil_iff.mp same.symm).symm
  | cons i a ih =>
      cases b with
      | nil => cases same
      | cons j b =>
          obtain ⟨label, rest⟩ := List.cons.inj same
          obtain ⟨fresh, distinct⟩ := List.nodup_cons.mp distinct
          have first := under i.label
          rw [under?_cons, under?_cons, if_pos rfl, if_pos label.symm] at first
          obtain rfl := Option.some.inj first
          congr 1
          apply ih distinct rest
          intro name
          by_cases here : i.label = name
          · subst here
            have absent : i.label ∉ labels b := by
              rw [show labels b = labels a from rest.symm]
              exact fresh
            rw [under?_eq_none_iff.mpr fresh, under?_eq_none_iff.mpr absent]
          · have later := under name
            rw [under?_cons, under?_cons, if_neg here, if_neg here] at later
            exact later

@[simp] theorem label_merge (x i : Include) : (merge x i).label = i.label := by
  rw [label, edge_merge, label]

section Alter

variable {change : Include → Include}

/-- Changing the include of a label adds at most this label, at the end. -/
theorem labels_alter (keeps : ∀ x, (change x).label = i.label) :
    labels (alter i.label change i a) = Selection.union (labels a) [i.label] := by
  induction a with
  | nil => rfl
  | cons x a ih =>
      rw [Selection.union_singleton] at ih ⊢
      rw [alter]
      by_cases here : x.label = i.label
      · simp [here, keeps]
      · have elsewhere : ¬ i.label = x.label := fun same => here same.symm
        rw [if_neg here, labels_cons, ih]
        split <;> simp_all

theorem under?_alter (keeps : ∀ x, (change x).label = i.label) :
    under? (alter i.label change i a) name =
      if i.label = name then some (((under? a name).map change).getD i) else under? a name := by
  induction a with
  | nil => exact under?_cons
  | cons x a ih =>
      rw [alter]
      by_cases here : x.label = i.label
      · rw [if_pos here, under?_cons, under?_cons, keeps, here]
        split <;> rfl
      · rw [if_neg here, under?_cons, under?_cons, ih]
        by_cases asked : x.label = name
        · have elsewhere : i.label ≠ name := fun same => here (asked.trans same.symm)
          rw [if_pos asked, if_neg elsewhere, if_pos asked]
        · rw [if_neg asked, if_neg asked]

end Alter

/-- Merging lists of includes unites their labels. -/
theorem labels_mergeAll : labels (mergeAll a b) = Selection.union (labels a) (labels b) := by
  induction b generalizing a with
  | nil => rfl
  | cons i b ih =>
      rw [mergeAll, ih, labels_alter fun x => label_merge x i, ← Selection.union_append]
      rfl

/-- Under a label stands the merge of what both lists have there. -/
theorem under?_mergeAll (distinct : (labels b).Nodup) :
    under? (mergeAll a b) name = (under? a name).merge merge (under? b name) := by
  induction b generalizing a with
  | nil => rw [mergeAll, under?_nil, Option.merge_none_right]
  | cons i b ih =>
      obtain ⟨fresh, distinct⟩ := List.nodup_cons.mp distinct
      rw [mergeAll, ih distinct, under?_alter fun x => label_merge x i, under?_cons]
      by_cases here : i.label = name
      · subst here
        rw [if_pos rfl, if_pos rfl, under?_eq_none_iff.mpr fresh]
        cases under? a i.label <;> rfl
      · rw [if_neg here, if_neg here]

/-- No two includes of one list, at any level below an include, have the same label. -/
inductive Unique : Include → Prop where
  | plain (edge : Edge) : Unique (.plain edge)
  | nested {edge : Edge} {selection : Selection} {children : List Include}
      (distinct : (labels children).Nodup) (below : ∀ child ∈ children, Unique child) :
      Unique (.nested edge selection children)

/-- No two includes of a list have the same label, nor do any below them. -/
structure UniqueAll (includes : List Include) : Prop where
  distinct : (labels includes).Nodup
  below : ∀ i ∈ includes, i.Unique

/-- Lists of includes merge associatively if the includes in them do. -/
theorem mergeAll_assoc (ha : (labels a).Nodup) (hb : (labels b).Nodup) (hc : (labels c).Nodup)
    (each : ∀ x ∈ a, ∀ y ∈ b, ∀ z ∈ c, merge (merge x y) z = merge x (merge y z)) :
    mergeAll (mergeAll a b) c = mergeAll a (mergeAll b c) := by
  have left : (labels (mergeAll a b)).Nodup := by
    rw [labels_mergeAll]
    exact Selection.nodup_union ha
  have right : (labels (mergeAll b c)).Nodup := by
    rw [labels_mergeAll]
    exact Selection.nodup_union hb
  apply ext_under?
  · rw [labels_mergeAll]
    exact Selection.nodup_union left
  · simp only [labels_mergeAll, Selection.union_assoc]
  · intro name
    rw [under?_mergeAll hc, under?_mergeAll hb, under?_mergeAll right, under?_mergeAll hc]
    cases hx : under? a name with
    | none => simp only [Option.merge_none_left]
    | some x =>
        cases hy : under? b name with
        | none => simp only [Option.merge_none_left, Option.merge_none_right]
        | some y =>
            cases hz : under? c name with
            | none => simp only [Option.merge_none_right]
            | some z =>
                have at_name :=
                  each x (mem_of_under? hx) y (mem_of_under? hy) z (mem_of_under? hz)
                exact congrArg some at_name

theorem mergeAll_self (distinct : (labels a).Nodup) (each : ∀ x ∈ a, merge x x = x) :
    mergeAll a a = a := by
  have labels_eq : labels (mergeAll a a) = labels a := by
    rw [labels_mergeAll, Selection.union_self]
  apply ext_under?
  · rw [labels_eq]
    exact distinct
  · exact labels_eq
  · intro name
    rw [under?_mergeAll distinct]
    cases found : under? a name with
    | none => rfl
    | some x => exact congrArg some (each x (mem_of_under? found))

/-- The edge of the earlier include does not matter. -/
theorem merge_withEdge_left (edge : Edge) : merge (x.withEdge edge) y = merge x y := by
  cases y <;> cases x <;> rfl

/-- The edge of the later include is that of the merge. -/
theorem merge_withEdge_right (edge : Edge) :
    merge x (y.withEdge edge) = (merge x y).withEdge edge := by
  cases y <;> cases x <;> rfl

/-- Only the lists below the later includes have to be gone through: the induction is on
the last one, and what stands below it meets what stands below the others. -/
theorem Unique.merge_assoc (hx : x.Unique) (hy : y.Unique) (hz : z.Unique) :
    merge (merge x y) z = merge x (merge y z) := by
  induction hz generalizing x y with
  | plain edge =>
      simp only [merge]
      exact (merge_withEdge_right edge).symm
  | nested distinct _ ih =>
      cases hy with
      | plain edge =>
          show merge (x.withEdge edge) _ = _
          rw [merge_withEdge_left]
          rfl
      | nested distinct_y below_y =>
          cases hx with
          | plain edge => rfl
          | nested distinct_x below_x =>
              simp only [merge, Selection.merge_assoc]
              congr 1
              apply mergeAll_assoc distinct_x distinct_y distinct
              intro x hx y hy z hz
              exact ih z hz (below_x x hx) (below_y y hy)

theorem Unique.merge_self (hx : x.Unique) : merge x x = x := by
  induction hx with
  | plain edge => rfl
  | nested distinct _ ih =>
      simp only [merge, Selection.merge_self]
      rw [mergeAll_self distinct ih]

end Include

namespace Descriptor

/-- At no level of a descriptor do two includes have the same label. -/
def Unique (d : Descriptor) : Prop :=
  Include.UniqueAll d.includes

variable {a b c : Descriptor}

theorem Unique.merge_assoc (ha : a.Unique) (hb : b.Unique) (hc : c.Unique) :
    (a.merge b).merge c = a.merge (b.merge c) := by
  have includes : Include.mergeAll (Include.mergeAll a.includes b.includes) c.includes =
      Include.mergeAll a.includes (Include.mergeAll b.includes c.includes) := by
    apply Include.mergeAll_assoc ha.distinct hb.distinct hc.distinct
    intro x hx y hy z hz
    exact (ha.below x hx).merge_assoc (hb.below y hy) (hc.below z hz)
  simp only [merge, Selection.merge_assoc, includes]

theorem Unique.merge_self (ha : a.Unique) : a.merge a = a := by
  have includes : Include.mergeAll a.includes a.includes = a.includes := by
    apply Include.mergeAll_self ha.distinct
    intro x hx
    exact (ha.below x hx).merge_self
  simp only [merge, Selection.merge_self, includes]

/-- Merging descriptors is associative and idempotent, and merging the same descriptor once
more changes nothing: not the order of any list, not a flag, and nothing in the queries nested
in the includes. -/
theorem merge_laws (ha : a.Unique) (hb : b.Unique) (hc : c.Unique) :
    (a.merge b).merge c = a.merge (b.merge c) ∧ a.merge a = a ∧
      (a.merge b).merge b = a.merge b := by
  refine ⟨ha.merge_assoc hb hc, ha.merge_self, ?_⟩
  rw [ha.merge_assoc hb hb, hb.merge_self]

/-- Some authors, with related rows. -/
def someAuthors (count : Nat) (includes : List Include) : Descriptor :=
  { selection := { model := "Author", attributes := [.column "name"], taken := count }, includes }

/-- Books of an author, with related rows. -/
def someBooks (count : Nat) (required : Bool) (children : List Include) : Include :=
  .nested { target := "Book", label := "books", required }
    { model := "Book", orderings := [⟨.column "title", .asc⟩], taken := count } children

/-- The shelves of a book. -/
def allShelves : Include :=
  .plain { target := "Shelf", label := "shelves", associateOnly := true }

theorem unique_someBooks {count : Nat} {required : Bool} :
    (someBooks count required [allShelves]).Unique := by
  apply Include.Unique.nested
  · exact List.pairwise_singleton _ _
  · intro child member
    rw [List.mem_singleton.mp member]
    exact .plain _

/-- All three descriptors have an include of the books, two of them with the shelves. -/
theorem merge_laws_books :
    let a := someAuthors 3 [.plain { target := "Book", label := "books" }]
    let b := someAuthors 0 [someBooks 5 true [allShelves]]
    let c := someAuthors 7 [allShelves, someBooks 0 false [allShelves]]
    (a.merge b).merge c = a.merge (b.merge c) ∧ a.merge a = a ∧
      (a.merge b).merge b = a.merge b := by
  apply merge_laws
  · refine ⟨by decide, ?_⟩
    intro i member
    rw [List.mem_singleton.mp member]
    exact .plain _
  · refine ⟨by decide, ?_⟩
    intro i member
    rw [List.mem_singleton.mp member]
    exact unique_someBooks
  · refine ⟨by decide, ?_⟩
    intro i member
    obtain rfl | rfl : i = allShelves ∨ i = someBooks 0 false [allShelves] := by
      simpa [someAuthors] using member
    · exact .plain _
    · exact unique_someBooks

end Descriptor

end RecordGraph
