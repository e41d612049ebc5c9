import Mathlib.Data.List.Basic

/-!
# Sorting by a comparison that is an order only on some items

A comparison of values of any kind need not be an order: values that cannot be compared count
as equal, and then three values may go around in a circle. What a sort promises is therefore
stated for the items that are sorted. `Keeps` says of a relation that the comparison respects it
on these items, which is enough for the sorted list to follow it. If the comparison itself is
`Consistent` on the items, the sort is stable, and it commutes with leaving items out.
-/

namespace RecordGraph.Sorting

variable {α : Type} {le : α → α → Bool} {R before tie before' tie' : α → α → Prop}
variable {items xs ys : List α}

/-- A comparison keeps a relation among some items: which of two items it puts first, the
relation allows, and it is transitive among them. -/
structure Keeps (le : α → α → Bool) (R : α → α → Prop) (items : List α) : Prop where
  first : ∀ a ∈ items, ∀ b ∈ items, le a b = true → R a b
  second : ∀ a ∈ items, ∀ b ∈ items, le a b = false → R b a
  trans : ∀ a ∈ items, ∀ b ∈ items, ∀ c ∈ items, R a b → R b c → R a c

/-- Merging two lists that follow a relation makes one that follows it. -/
theorem Keeps.pairwise_merge (keeps : Keeps le R items) (left : ∀ a ∈ xs, a ∈ items)
    (right : ∀ a ∈ ys, a ∈ items) (hx : xs.Pairwise R) (hy : ys.Pairwise R) :
    (xs.merge ys le).Pairwise R := by
  induction xs, ys using List.merge.induct le with
  | case1 ys => rwa [List.nil_merge]
  | case2 xs => rwa [List.merge_right]
  | case3 x xs y ys less ih =>
      obtain ⟨hereX, laterX⟩ := List.forall_mem_cons.mp left
      obtain ⟨hereY, laterY⟩ := List.forall_mem_cons.mp right
      obtain ⟨headX, tailX⟩ := List.pairwise_cons.mp hx
      obtain ⟨headY, -⟩ := List.pairwise_cons.mp hy
      have step : R x y := keeps.first x hereX y hereY less
      rw [List.cons_merge_cons_pos _ _ _ less]
      refine List.pairwise_cons.mpr ⟨fun z member => ?_, ih laterX right tailX hy⟩
      rcases List.mem_merge.mp member with member | member
      · exact headX z member
      · rcases List.mem_cons.mp member with rfl | member
        · exact step
        · exact keeps.trans x hereX y hereY z (laterY z member) step (headY z member)
  | case4 x xs y ys greater ih =>
      obtain ⟨hereX, laterX⟩ := List.forall_mem_cons.mp left
      obtain ⟨hereY, laterY⟩ := List.forall_mem_cons.mp right
      obtain ⟨headX, -⟩ := List.pairwise_cons.mp hx
      obtain ⟨headY, tailY⟩ := List.pairwise_cons.mp hy
      have step : R y x := keeps.second x hereX y hereY (Bool.not_eq_true _ ▸ greater)
      rw [List.cons_merge_cons_neg _ _ _ greater]
      refine List.pairwise_cons.mpr ⟨fun z member => ?_, ih left laterY hx tailY⟩
      rcases List.mem_merge.mp member with member | member
      · rcases List.mem_cons.mp member with rfl | member
        · exact step
        · exact keeps.trans y hereY x hereX z (laterX z member) step (headX z member)
      · exact headY z member

/-- A sorted list follows every relation that the comparison keeps among its items. -/
theorem Keeps.pairwise_mergeSort (keeps : Keeps le R items) : (items.mergeSort le).Pairwise R := by
  have inner (xs : List α) (inside : ∀ a ∈ xs, a ∈ items) : (xs.mergeSort le).Pairwise R := by
    induction xs, le using List.mergeSort.induct with
    | case1 le => simp
    | case2 le a => simp
    | case3 a b xs le lr _ _ ihLeft ihRight =>
        have left : ∀ c ∈ lr.1.1, c ∈ items := fun c member => inside c (by
          rw [List.MergeSort.Internal.splitInTwo_fst] at member
          exact List.mem_of_mem_take member)
        have right : ∀ c ∈ lr.2.1, c ∈ items := fun c member => inside c (by
          rw [List.MergeSort.Internal.splitInTwo_snd] at member
          exact List.mem_of_mem_drop member)
        rw [List.mergeSort]
        apply keeps.pairwise_merge
        · exact fun c member => left c (List.mem_mergeSort.mp member)
        · exact fun c member => right c (List.mem_mergeSort.mp member)
        · exact ihLeft keeps left
        · exact ihRight keeps right
  exact inner items fun _ member => member

/-- A comparison orders some items: any two of them one way or the other, and transitively. -/
structure Consistent (le : α → α → Bool) (items : List α) : Prop where
  total : ∀ a ∈ items, ∀ b ∈ items, (le a b || le b a) = true
  trans : ∀ a ∈ items, ∀ b ∈ items, ∀ c ∈ items,
    le a b = true → le b c = true → le a c = true

/-- A comparison that orders some items agrees on them with one that orders everything: the one
that puts all else behind them. -/
theorem Consistent.exists_everywhere (consistent : Consistent le items) :
    ∃ le' : α → α → Bool, (∀ a b c, le' a b = true → le' b c = true → le' a c = true) ∧
      (∀ a b, (le' a b || le' b a) = true) ∧ ∀ a ∈ items, ∀ b ∈ items, le a b = le' a b := by
  classical
  refine ⟨fun a b => decide (b ∈ items → a ∈ items ∧ le a b = true), ?_, ?_, ?_⟩
  · intro a b c ab bc
    rw [decide_eq_true_eq] at ab bc ⊢
    intro hc
    obtain ⟨hb, bc⟩ := bc hc
    obtain ⟨ha, ab⟩ := ab hb
    exact ⟨ha, consistent.trans a ha b hb c hc ab bc⟩
  · intro a b
    rw [Bool.or_eq_true, decide_eq_true_eq, decide_eq_true_eq]
    by_cases ha : a ∈ items
    · by_cases hb : b ∈ items
      · have either := consistent.total a ha b hb
        rw [Bool.or_eq_true] at either
        exact either.imp (fun ab _ => ⟨ha, ab⟩) fun ba _ => ⟨hb, ba⟩
      · exact .inl fun inside => absurd inside hb
    · exact .inr fun inside => absurd inside ha
  · intro a ha b hb
    simp [ha, hb]

/-- The same items are sorted alike by comparisons that agree on them. -/
theorem mergeSort_congr {le' : α → α → Bool}
    (same : ∀ a ∈ items, ∀ b ∈ items, le a b = le' a b) :
    items.mergeSort le = items.mergeSort le' := by
  simpa using List.map_mergeSort (f := id) same

section Everywhere

variable (trans : ∀ a b c, le a b = true → le b c = true → le a c = true)
variable (total : ∀ a b, (le a b || le b a) = true)
include trans total

/-- Sorting puts the first item before those that it may stand before and behind all others, and
leaves these as they are sorted without it. -/
theorem mergeSort_parts (a : α) (items : List α) :
    (a :: items).mergeSort le = (items.mergeSort le).filter (fun b => !le a b) ++
        a :: (items.mergeSort le).filter (fun b => le a b) ∧
      items.mergeSort le = (items.mergeSort le).filter (fun b => !le a b) ++
        (items.mergeSort le).filter fun b => le a b := by
  obtain ⟨before, behind, whole, others, early⟩ := List.mergeSort_cons trans total a items
  have ordered := List.pairwise_mergeSort trans total (a :: items)
  rw [whole] at ordered
  have late : ∀ b ∈ behind, le a b = true :=
    (List.pairwise_cons.mp (List.pairwise_append.mp ordered).2.1).1
  have noneBefore : before.filter (fun b => le a b) = [] :=
    List.filter_eq_nil_iff.mpr fun b member => by simpa using early b member
  have noneBehind : behind.filter (fun b => !le a b) = [] :=
    List.filter_eq_nil_iff.mpr fun b member => by simpa using late b member
  rw [whole, others, List.filter_append, List.filter_append, noneBefore, noneBehind,
    List.filter_eq_self.mpr early, List.filter_eq_self.mpr late, List.append_nil, List.nil_append]
  exact ⟨rfl, rfl⟩

theorem filter_mergeSort_of_trans (p : α → Bool) (items : List α) :
    (items.mergeSort le).filter p = (items.filter p).mergeSort le := by
  induction items with
  | nil => simp
  | cons a rest ih =>
      have swap (q : α → Bool) : ((rest.mergeSort le).filter q).filter p =
          ((rest.filter p).mergeSort le).filter q := by
        rw [← ih, List.filter_filter, List.filter_filter]
        congr 1
        funext b
        exact Bool.and_comm _ _
      obtain ⟨with_a, without_a⟩ := mergeSort_parts trans total a (rest.filter p)
      rw [(mergeSort_parts trans total a rest).1, List.filter_append, swap]
      cases keep : p a with
      | true => rw [List.filter_cons_of_pos keep, List.filter_cons_of_pos keep, swap, with_a]
      | false =>
          have out : ¬ p a = true := by simp [keep]
          rw [List.filter_cons_of_neg out, List.filter_cons_of_neg out, swap, ← without_a]

end Everywhere

/-- Leaving items out of a sorted list is sorting without them. -/
theorem Consistent.filter_mergeSort (consistent : Consistent le items) (p : α → Bool) :
    (items.mergeSort le).filter p = (items.filter p).mergeSort le := by
  obtain ⟨le', trans, total, same⟩ := consistent.exists_everywhere
  have samePart : ∀ a ∈ items.filter p, ∀ b ∈ items.filter p, le a b = le' a b :=
    fun a ha b hb => same a (List.mem_of_mem_filter ha) b (List.mem_of_mem_filter hb)
  rw [mergeSort_congr same, mergeSort_congr samePart, filter_mergeSort_of_trans trans total]

/-- A list is a stable arrangement of some items: each of them at its place stands in it once,
and of two items the one that stands first comes before the other, or they tie and it has come
first among the items. -/
def Arranged (before tie : α → α → Prop) (items sorted : List α) : Prop :=
  ∃ order : List (α × Nat), order.Perm items.zipIdx ∧ sorted = order.map Prod.fst ∧
    order.Pairwise fun a b => before a.1 b.1 ∨ tie a.1 b.1 ∧ a.2 < b.2

/-- Sorting by a comparison that orders the items arranges them. -/
theorem Consistent.arranged (consistent : Consistent le items)
    (before_of : ∀ a ∈ items, ∀ b ∈ items, le a b = true → le b a = false → before a b)
    (tie_of : ∀ a ∈ items, ∀ b ∈ items, le a b = true → le b a = true → tie a b) :
    Arranged before tie items (items.mergeSort le) := by
  obtain ⟨le', trans, total, same⟩ := consistent.exists_everywhere
  have perm := List.mergeSort_perm items.zipIdx (List.zipIdxLE le')
  have ordered := List.pairwise_mergeSort (List.zipIdxLE_trans trans) (List.zipIdxLE_total total)
    items.zipIdx
  have apart : (items.zipIdx.mergeSort (List.zipIdxLE le')).Pairwise fun a b => a.2 ≠ b.2 := by
    have places : (items.zipIdx.map Prod.snd).Nodup := by
      rw [List.zipIdx_map_snd]
      exact List.nodup_range'
    exact List.pairwise_map.mp ((perm.map Prod.snd).nodup_iff.mpr places)
  refine ⟨_, perm, by rw [mergeSort_congr same, List.mergeSort_zipIdx], ?_⟩
  refine (ordered.and apart).imp_of_mem fun {a b} ha hb both => ?_
  obtain ⟨less, ne⟩ := both
  have memA : a.1 ∈ items := List.fst_mem_of_mem_zipIdx (perm.mem_iff.mp ha)
  have memB : b.1 ∈ items := List.fst_mem_of_mem_zipIdx (perm.mem_iff.mp hb)
  rw [List.zipIdxLE, ← same a.1 memA b.1 memB, ← same b.1 memB a.1 memA] at less
  split at less
  · next ab =>
    split at less
    · next ba =>
      have le : a.2 ≤ b.2 := by simpa using less
      exact .inr ⟨tie_of _ memA _ memB ab ba, by omega⟩
    · next ba => exact .inl (before_of _ memA _ memB ab (by simpa using ba))
  · cases less

end RecordGraph.Sorting
