import Mathlib.Data.String.Basic
import RecordGraph.Proofs.Data.Equality
import RecordGraph.Proofs.Data.Sorting
import RecordGraph.Store.Result

/-!
# The order of records

Records are sorted by columns of their own. The relation that a sort follows is stated on the
values: of two records that one precedes which has the earlier value in the first column on which
they differ, in the direction of that column, where nothing comes after everything. On columns
that hold values of one kind the comparison of the store is this order, so sorting arranges the
records by it, and ties stay in their places.
-/

namespace RecordGraph

namespace Value

/-- Of two values of a column one comes before the other in ascending order: the smaller of two
integers, the earlier of two texts, what is false before what is true, and anything before
nothing. -/
inductive Before : Option Value → Option Value → Prop
  | integer {i j : Int} (less : i < j) : Before (some (.ofInt i)) (some (.ofInt j))
  | text {s t : String} (less : s < t) : Before (some (.str s)) (some (.str t))
  | truth : Before (some (.bool false)) (some (.bool true))
  | missing (v : Value) : Before (some v) none

theorem Before.trans {x y z : Option Value} (first : Before x y) (second : Before y z) :
    Before x z := by
  cases first with
  | integer less =>
      cases second with
      | integer more => exact .integer (Int.lt_trans less more)
      | missing => exact .missing _
  | text less =>
      cases second with
      | text more => exact .text (String.lt_trans less more)
      | missing => exact .missing _
  | truth =>
      cases second with
      | missing => exact .missing _
  | missing => cases second

theorem Before.irrefl {x : Option Value} (same : Before x x) : False := by
  cases same with
  | integer less => exact Int.lt_irrefl _ less
  | text less => exact String.lt_irrefl _ less

/-- Two values are both integers that fit a signed 64-bit word, both texts or both truth
values. -/
inductive Alike : Value → Value → Prop
  | integers {i j : Int} (left : (ofInt i).signed? = some i) (right : (ofInt j).signed? = some j) :
      Alike (.ofInt i) (.ofInt j)
  | texts (s t : String) : Alike (.str s) (.str t)
  | truths (b c : Bool) : Alike (.bool b) (.bool c)

end Value

/-- What the comparison of two things says of them: that one comes before the other, or that they
tie. -/
inductive Tells {α : Type} (before tie : α → α → Prop) (a b : α) : Ordering → Prop
  | lt (earlier : before a b) : Tells before tie a b .lt
  | eq (same : tie a b) : Tells before tie a b .eq
  | gt (later : before b a) : Tells before tie a b .gt

section Tells

variable {α : Type} {before tie : α → α → Prop} {a b : α} {order : Ordering}

theorem Tells.of_isLE (told : Tells before tie a b order) (le : order.isLE = true) :
    before a b ∨ tie a b := by
  cases told with
  | lt earlier => exact .inl earlier
  | eq same => exact .inr same
  | gt _ => cases le

/-- What may not stand the other way round comes before. -/
theorem Tells.of_not_ge (told : Tells before tie a b order) (less : order.swap.isLE = false) :
    before a b := by
  cases told with
  | lt earlier => exact earlier
  | eq _ => cases less
  | gt _ => cases less

/-- What may stand either way ties. -/
theorem Tells.of_both (told : Tells before tie a b order) (le : order.isLE = true)
    (ge : order.swap.isLE = true) : tie a b := by
  cases told with
  | lt _ => cases ge
  | eq same => exact same
  | gt _ => cases le

end Tells

namespace Value

theorem tells_compare? {v w : Value} (alike : Alike v w) :
    Tells Before Eq (some v) (some w) ((v.compare? w).getD .eq) := by
  cases alike with
  | @integers i j left right =>
      have exact : (ofInt i).compare? (ofInt j) = some (Ord.compare i j) :=
        congrArg some (Number.compare_of_signed left right)
      rw [exact, Option.getD_some]
      cases order : Ord.compare i j with
      | lt => exact .lt (.integer (compare_lt_iff_lt.mp order))
      | eq => exact .eq (by rw [Std.compare_eq_iff_eq.mp order])
      | gt => exact .gt (.integer (compare_gt_iff_gt.mp order))
  | texts s t =>
      rw [compare?, Option.getD_some]
      cases order : Ord.compare s t with
      | lt => exact .lt (.text (compare_lt_iff_lt.mp order))
      | eq => exact .eq (by rw [Std.compare_eq_iff_eq.mp order])
      | gt => exact .gt (.text (compare_gt_iff_gt.mp order))
  | truths b c =>
      cases b <;> cases c
      · exact .eq rfl
      · exact .lt .truth
      · exact .gt .truth
      · exact .eq rfl

end Value

namespace Result

/-- The ordering terms that name columns of the records themselves. -/
def columnTerms (keys : List SortKey) : List Request.SortTerm :=
  keys.map fun key => { target := .str key.1, direction := key.2 }

theorem sortKeys_columnTerms (keys : List SortKey) : sortKeys (columnTerms keys) = .ok keys := by
  induction keys with
  | nil => rfl
  | cons key rest ih =>
      rw [columnTerms, List.map_cons, sortKeys]
      show (do let others ← sortKeys (columnTerms rest); pure (key :: others)) = _
      rw [ih]
      rfl

/-- What a record has in a column to sort by. -/
def standing (key : SortKey) (record : Record) : Option Value :=
  Value.present? (record.get? key.1)

/-- Of two records one comes before the other in a column, in the direction of the column. -/
def Leads (key : SortKey) (a b : Record) : Prop :=
  match key.2 with
  | .asc => Value.Before (standing key a) (standing key b)
  | .desc => Value.Before (standing key b) (standing key a)

/-- Of two records one precedes the other: it comes before it in the first column on which they
differ. -/
inductive Precedes : List SortKey → Record → Record → Prop
  | here {key : SortKey} {rest : List SortKey} {a b : Record} (leads : Leads key a b) :
      Precedes (key :: rest) a b
  | later {key : SortKey} {rest : List SortKey} {a b : Record}
      (same : standing key a = standing key b) (precedes : Precedes rest a b) :
      Precedes (key :: rest) a b

/-- Two records have the same in every column to sort by. -/
def Ties (keys : List SortKey) (a b : Record) : Prop :=
  ∀ key ∈ keys, standing key a = standing key b

section Order

variable {key : SortKey} {keys : List SortKey} {a b c : Record}

theorem Leads.trans (first : Leads key a b) (second : Leads key b c) : Leads key a c := by
  obtain ⟨column, direction⟩ := key
  cases direction with
  | asc => exact Value.Before.trans first second
  | desc => exact Value.Before.trans second first

theorem Leads.irrefl (same : Leads key a a) : False := by
  obtain ⟨column, direction⟩ := key
  cases direction with
  | asc => exact Value.Before.irrefl same
  | desc => exact Value.Before.irrefl same

/-- Leading is a matter of what stands in the column. -/
theorem Leads.congr {a' b' : Record} (leads : Leads key a b)
    (sameA : standing key a = standing key a') (sameB : standing key b = standing key b') :
    Leads key a' b' := by
  unfold Leads at leads ⊢
  rwa [sameA, sameB] at leads

theorem Precedes.trans (first : Precedes keys a b) (second : Precedes keys b c) :
    Precedes keys a c := by
  induction first with
  | here leads =>
      cases second with
      | here further => exact .here (leads.trans further)
      | later same _ => exact .here (leads.congr rfl same)
  | later same _ ih =>
      cases second with
      | here leads => exact .here (leads.congr same.symm rfl)
      | later same' precedes => exact .later (same.trans same') (ih precedes)

theorem Precedes.irrefl (precedes : Precedes keys a a) : False := by
  induction keys with
  | nil => cases precedes
  | cons key rest ih =>
      cases precedes with
      | here leads => exact leads.irrefl
      | later _ precedes => exact ih precedes

/-- Preceding is a matter of what stands in the columns. -/
theorem Precedes.congr {a' b' : Record} (precedes : Precedes keys a b) (sameA : Ties keys a a')
    (sameB : Ties keys b b') : Precedes keys a' b' := by
  induction precedes with
  | here leads =>
      exact .here (leads.congr (sameA _ List.mem_cons_self) (sameB _ List.mem_cons_self))
  | later same _ ih =>
      refine .later ?_ (ih (fun key member => sameA key (List.mem_cons_of_mem _ member))
        fun key member => sameB key (List.mem_cons_of_mem _ member))
      exact ((sameA _ List.mem_cons_self).symm.trans same).trans (sameB _ List.mem_cons_self)

theorem Ties.refl (keys : List SortKey) (a : Record) : Ties keys a a :=
  fun _ _ => rfl

theorem Ties.symm (ties : Ties keys a b) : Ties keys b a :=
  fun key member => (ties key member).symm

theorem Ties.trans (first : Ties keys a b) (second : Ties keys b c) : Ties keys a c :=
  fun key member => (first key member).trans (second key member)

end Order

/-- All values in a column of some records, nulls apart, are integers that fit a signed 64-bit
word, or all are texts, or all are truth values. -/
def Uniform (column : String) (records : List Record) : Prop :=
  let values := records.filterMap fun record => Value.present? (record.get? column)
  (∀ v ∈ values, ∃ i, v.signed? = some i) ∨ (∀ v ∈ values, ∃ s, v = .str s) ∨
    ∀ v ∈ values, ∃ b, v = .bool b

theorem Uniform.alike {column : String} {records : List Record} {a b : Record} {v w : Value}
    (uniform : Uniform column records) (ha : a ∈ records) (hb : b ∈ records)
    (there : Value.present? (a.get? column) = some v)
    (there' : Value.present? (b.get? column) = some w) : Value.Alike v w := by
  have inV : v ∈ records.filterMap fun record => Value.present? (record.get? column) :=
    List.mem_filterMap.mpr ⟨a, ha, there⟩
  have inW : w ∈ records.filterMap fun record => Value.present? (record.get? column) :=
    List.mem_filterMap.mpr ⟨b, hb, there'⟩
  have asInteger {u : Value} {i : Int} (signed : u.signed? = some i) : u = .ofInt i := by
    cases u with
    | num n => exact congrArg Value.num (Number.eq_of_signed? signed)
    | _ => cases signed
  obtain integers | texts | truths := uniform
  · obtain ⟨i, signed⟩ := integers v inV
    obtain ⟨j, signed'⟩ := integers w inW
    obtain rfl := asInteger signed
    obtain rfl := asInteger signed'
    exact .integers signed signed'
  · obtain ⟨s, rfl⟩ := texts v inV
    obtain ⟨t, rfl⟩ := texts w inW
    exact .texts s t
  · obtain ⟨b, rfl⟩ := truths v inV
    obtain ⟨c, rfl⟩ := truths w inW
    exact .truths b c

theorem Uniform.sublist {column : String} {records part : List Record}
    (uniform : Uniform column records) (sub : part.Sublist records) : Uniform column part := by
  have inside : ∀ v ∈ part.filterMap (fun record => Value.present? (record.get? column)),
      v ∈ records.filterMap fun record => Value.present? (record.get? column) :=
    fun v member => (sub.filterMap _).subset member
  obtain integers | texts | truths := uniform
  · exact .inl fun v member => integers v (inside v member)
  · exact .inr (.inl fun v member => texts v (inside v member))
  · exact .inr (.inr fun v member => truths v (inside v member))

section Compare

variable {key : SortKey} {keys : List SortKey} {a b : Record} {records : List Record}

theorem tells_compareColumn (uniform : Uniform key.1 records) (ha : a ∈ records)
    (hb : b ∈ records) : Tells Value.Before Eq (standing key a) (standing key b)
      (compareColumn (a.get? key.1) (b.get? key.1)) := by
  unfold compareColumn standing
  cases left : Value.present? (a.get? key.1) with
  | none =>
      cases Value.present? (b.get? key.1) with
      | none => exact .eq rfl
      | some w => exact .gt (.missing w)
  | some v =>
      cases right : Value.present? (b.get? key.1) with
      | none => exact .lt (.missing v)
      | some w => exact Value.tells_compare? (uniform.alike ha hb left right)

/-- In the direction of a column the comparison tells who leads there. -/
theorem tells_directed (uniform : Uniform key.1 records) (ha : a ∈ records) (hb : b ∈ records) :
    Tells (Leads key) (fun a b => standing key a = standing key b) a b
      (directed key.2 (compareColumn (a.get? key.1) (b.get? key.1))) := by
  obtain ⟨column, direction⟩ := key
  have told : Tells Value.Before Eq (standing (column, direction) a) (standing (column, direction) b)
      (compareColumn (a.get? column) (b.get? column)) := tells_compareColumn uniform ha hb
  generalize compareColumn (a.get? column) (b.get? column) = order at told ⊢
  cases direction with
  | asc =>
      cases told with
      | lt earlier => exact .lt earlier
      | eq same => exact .eq same
      | gt later => exact .gt later
  | desc =>
      cases told with
      | lt earlier => exact .gt earlier
      | eq same => exact .eq same
      | gt later => exact .lt later

/-- On uniform columns the comparison of two records tells which of them precedes the other. -/
theorem tells_compareRecords (uniform : ∀ key ∈ keys, Uniform key.1 records) (ha : a ∈ records)
    (hb : b ∈ records) : Tells (Precedes keys) (Ties keys) a b (compareRecords keys a b) := by
  induction keys with
  | nil => exact .eq nofun
  | cons key rest ih =>
      obtain ⟨here, later⟩ := List.forall_mem_cons.mp uniform
      have told := tells_directed here ha hb
      have rest := ih later
      rw [compareRecords]
      generalize directed key.2 (compareColumn (a.get? key.1) (b.get? key.1)) = order at told
      cases told with
      | lt leads => exact .lt (.here leads)
      | gt leads => exact .gt (.here leads)
      | eq same =>
          dsimp only
          generalize compareRecords _ a b = order at rest
          cases rest with
          | lt precedes => exact .lt (.later same precedes)
          | eq ties => exact .eq (List.forall_mem_cons.mpr ⟨same, ties⟩)
          | gt precedes => exact .gt (.later same.symm precedes)

end Compare

/-! ### Sorting -/

section Sorted

variable {α β : Type} {keys : List SortKey} {records : List Record} {items : List α}

theorem compareColumn_swap (x y : Option Value) :
    compareColumn y x = (compareColumn x y).swap := by
  have values (v w : Value) : (w.compare? v).getD .eq = ((v.compare? w).getD .eq).swap := by
    rw [Value.compare?_swap v w]
    cases v.compare? w <;> rfl
  unfold compareColumn
  cases Value.present? x <;> cases Value.present? y
  case some.some v w => exact values v w
  all_goals rfl

theorem compareRecords_swap (keys : List SortKey) (a b : Record) :
    compareRecords keys b a = (compareRecords keys a b).swap := by
  induction keys with
  | nil => rfl
  | cons key rest ih =>
      obtain ⟨column, direction⟩ := key
      rw [compareRecords, compareRecords, ih, compareColumn_swap (a.get? column)]
      cases direction <;> cases compareColumn (a.get? column) (b.get? column) <;> rfl

/-- Some records are ordered by columns: what may stand before a record may also stand before all
that this one may stand before. Values that cannot be compared count as equal, so there are columns
for which this fails. -/
def Consistent (keys : List SortKey) (records : List Record) : Prop :=
  ∀ a ∈ records, ∀ b ∈ records, ∀ c ∈ records, (compareRecords keys a b).isLE = true →
    (compareRecords keys b c).isLE = true → (compareRecords keys a c).isLE = true

theorem Consistent.subset {part : List Record} (consistent : Consistent keys records)
    (sub : ∀ record ∈ part, record ∈ records) : Consistent keys part :=
  fun a ha b hb c hc => consistent a (sub a ha) b (sub b hb) c (sub c hc)

theorem Consistent.comparison {recordOf : α → Record}
    (consistent : Consistent keys (items.map recordOf)) :
    Sorting.Consistent (fun a b => (compareRecords keys (recordOf a) (recordOf b)).isLE) items where
  total a _ b _ := by
    rw [compareRecords_swap keys (recordOf a) (recordOf b)]
    cases compareRecords keys (recordOf a) (recordOf b) <;> rfl
  trans a ha b hb c hc := consistent _ (List.mem_map_of_mem ha) _ (List.mem_map_of_mem hb) _
    (List.mem_map_of_mem hc)

/-- On uniform columns records are ordered. -/
theorem consistent_of_uniform (uniform : ∀ key ∈ keys, Uniform key.1 records) :
    Consistent keys records := by
  have back {a b : Record} (ha : a ∈ records) (hb : b ∈ records)
      (either : Precedes keys a b ∨ Ties keys a b) : (compareRecords keys a b).isLE = true := by
    have told := tells_compareRecords uniform ha hb
    generalize compareRecords keys a b = order at told ⊢
    cases told with
    | lt _ => rfl
    | eq _ => rfl
    | gt behind =>
        rcases either with precedes | ties
        · exact (precedes.trans behind).irrefl.elim
        · exact (behind.congr (Ties.refl keys b) ties).irrefl.elim
  intro a ha b hb c hc first second
  apply back ha hc
  rcases (tells_compareRecords uniform ha hb).of_isLE first with precedes | ties
  · rcases (tells_compareRecords uniform hb hc).of_isLE second with further | ties
    · exact .inl (precedes.trans further)
    · exact .inl (precedes.congr (Ties.refl keys a) ties)
  · rcases (tells_compareRecords uniform hb hc).of_isLE second with precedes | further
    · exact .inl (precedes.congr ties.symm (Ties.refl keys c))
    · exact .inr (ties.trans further)

/-- On uniform columns a sort arranges the records. -/
theorem arranged_sort (uniform : ∀ key ∈ keys, Uniform key.1 records) :
    Sorting.Arranged (Precedes keys) (Ties keys) records (sort id keys records) := by
  have ordered : Consistent keys (records.map id) := by
    rw [List.map_id]
    exact consistent_of_uniform uniform
  apply ordered.comparison.arranged
  · intro a ha b hb _ less
    rw [id_eq, id_eq, compareRecords_swap keys a b] at less
    exact (tells_compareRecords uniform ha hb).of_not_ge less
  · intro a ha b hb le ge
    rw [id_eq, id_eq, compareRecords_swap keys a b] at ge
    exact (tells_compareRecords uniform ha hb).of_both le ge

/-- Sorting looks at the records of the items only. -/
theorem sort_map (recordOf : β → Record) (f : α → β) (keys : List SortKey) (items : List α) :
    sort recordOf keys (items.map f) = (sort (fun a => recordOf (f a)) keys items).map f :=
  (List.map_mergeSort (f := f) fun _ _ _ _ => rfl).symm

/-- Pages of one size, put one after the other, are the beginning of the list. -/
theorem flatMap_page (size count : Nat) (items : List α) :
    (List.range count).flatMap (fun k => page (some (k * size)) (some size) items) =
      items.take (count * size) := by
  induction count with
  | zero => simp
  | succ count ih =>
      rw [List.range_succ, List.flatMap_append, ih, List.flatMap_singleton, Nat.succ_mul,
        List.take_add]
      rfl

end Sorted

end Result

end RecordGraph
