import Mathlib.Tactic.ByContra
import RecordGraph.Proofs.Data.Equality
import RecordGraph.Proofs.Data.Rounding
import RecordGraph.Store.Result

/-!
# Least and greatest values

An aggregate that asks for the least or the greatest value keeps a value until one comes that
beats it. Values of different kinds do not compare, so which one is kept in the end is a matter of
their order. That nothing passed over on the way beats it is so because beating is transitive,
also where some numbers are compared exactly and others as floating-point numbers: rounding may
make two integers equal, but never turns them around.
-/

namespace RecordGraph

namespace Number

variable {a b c : Number} {i j : Int}

theorem rank_lt_of_unsigned (unsigned : a.signed? = none ∨ b.signed? = none)
    (less : a.compare b = .lt) : a.toBinary64.rank < b.toBinary64.rank := by
  rw [compare_of_unsigned unsigned] at less
  exact Int.compare_eq_lt.mp less

/-- The floating-point numbers of signed integers stand in the order of the integers. -/
theorem rank_le_of_signed (left : a.signed? = some i) (right : b.signed? = some j) (le : i ≤ j) :
    a.toBinary64.rank ≤ b.toBinary64.rank := by
  obtain rfl := eq_of_signed? left
  obtain rfl := eq_of_signed? right
  simp only [signed?, Option.ite_none_right_eq_some] at left right
  exact Binary64.rank_ofInt_mono (by omega) (by omega) le

theorem rank_le_of_less (less : a.compare b = .lt) : a.toBinary64.rank ≤ b.toBinary64.rank := by
  cases left : a.signed? with
  | none => exact Int.le_of_lt (rank_lt_of_unsigned (.inl left) less)
  | some i =>
      cases right : b.signed? with
      | none => exact Int.le_of_lt (rank_lt_of_unsigned (.inr right) less)
      | some j =>
          rw [compare_of_signed left right] at less
          exact rank_le_of_signed left right (Int.le_of_lt (Int.compare_eq_lt.mp less))

/-- Being less is transitive. If a number between two signed integers is not one itself, it lies
between their floating-point numbers and is neither of them. -/
theorem less_trans (first : a.compare b = .lt) (second : b.compare c = .lt) :
    a.compare c = .lt := by
  have lower := rank_le_of_less first
  have upper := rank_le_of_less second
  cases left : a.signed? with
  | none =>
      have below := rank_lt_of_unsigned (.inl left) first
      rw [compare_of_unsigned (.inl left)]
      exact Int.compare_eq_lt.mpr (Int.lt_of_lt_of_le below upper)
  | some i =>
      cases right : c.signed? with
      | none =>
          have above := rank_lt_of_unsigned (.inr right) second
          rw [compare_of_unsigned (.inr right)]
          exact Int.compare_eq_lt.mpr (Int.lt_of_le_of_lt lower above)
      | some k =>
          rw [compare_of_signed left right]
          apply Int.compare_eq_lt.mpr
          cases middle : b.signed? with
          | none =>
              have below := rank_lt_of_unsigned (.inr middle) first
              have above := rank_lt_of_unsigned (.inl middle) second
              apply Int.not_le.mp
              intro turned
              have reversed := rank_le_of_signed right left turned
              omega
          | some j =>
              rw [compare_of_signed left middle] at first
              rw [compare_of_signed middle right] at second
              exact Int.lt_trans (Int.compare_eq_lt.mp first) (Int.compare_eq_lt.mp second)

end Number

namespace Value

variable {u v w : Value} {wanted : Ordering}

theorem less_trans (first : u.compare? v = some .lt) (second : v.compare? w = some .lt) :
    u.compare? w = some .lt := by
  cases u with
  | num a =>
      cases v with
      | num b =>
          cases w with
          | num c =>
              have ordered : a.compare c = .lt :=
                Number.less_trans (Option.some.inj first) (Option.some.inj second)
              exact congrArg some ordered
          | _ => cases second
      | _ => cases first
  | str s =>
      cases v with
      | str t =>
          cases w with
          | str r =>
              have ordered : Ord.compare s r = .lt :=
                Std.TransCmp.lt_trans (Option.some.inj first) (Option.some.inj second)
              exact congrArg some ordered
          | _ => cases second
      | _ => cases first
  | bool p =>
      cases v with
      | bool q =>
          cases w with
          | bool r =>
              have ordered : Ord.compare p r = .lt :=
                Std.TransCmp.lt_trans (Option.some.inj first) (Option.some.inj second)
              exact congrArg some ordered
          | _ => cases second
      | _ => cases first
  | _ => cases v <;> cases first

theorem compare?_eq_gt_iff : u.compare? v = some .gt ↔ v.compare? u = some .lt := by
  rw [compare?_swap u v]
  cases u.compare? v with
  | none => simp
  | some order => cases order <;> simp

/-- What beats a value in one direction beats whatever this value beats. -/
theorem beats_trans (strict : wanted ≠ .eq) (first : u.compare? v = some wanted)
    (second : v.compare? w = some wanted) : u.compare? w = some wanted := by
  cases wanted with
  | lt => exact less_trans first second
  | eq => exact absurd rfl strict
  | gt =>
      rw [compare?_eq_gt_iff] at first second ⊢
      exact less_trans second first

theorem not_beats_self (strict : wanted ≠ .eq) : v.compare? v ≠ some wanted := by
  cases v <;> simp [compare?, strict.symm]

theorem null_not_beats (strict : wanted ≠ .eq) : null.compare? v ≠ some wanted := by
  cases v <;> simp [compare?, strict.symm]

end Value

namespace Result

variable {wanted : Ordering} {seen values : List Value} {best v : Value}

/-- What is kept of the values seen so far: one of them, which none of them beats. -/
structure Kept (wanted : Ordering) (seen : List Value) (best : Value) : Prop where
  mem : best ∈ seen
  unbeaten : ∀ v ∈ seen, v.compare? best ≠ some wanted

/-- One more value is passed over, or replaces what is kept. What beats the new one would have
beaten the old one. -/
theorem Kept.step (strict : wanted ≠ .eq) (kept : Kept wanted seen best) (v : Value) :
    Kept wanted (seen ++ [v]) (if v.compare? best = some wanted then v else best) := by
  by_cases beats : v.compare? best = some wanted
  · rw [if_pos beats]
    refine ⟨List.mem_concat_self, fun u member further => ?_⟩
    rcases List.mem_append.mp member with old | new
    · exact kept.unbeaten u old (Value.beats_trans strict further beats)
    · obtain rfl := List.mem_singleton.mp new
      exact Value.not_beats_self strict further
  · rw [if_neg beats]
    refine ⟨List.mem_append_left _ kept.mem, fun u member => ?_⟩
    rcases List.mem_append.mp member with old | new
    · exact kept.unbeaten u old
    · obtain rfl := List.mem_singleton.mp new
      exact beats

theorem Kept.run (strict : wanted ≠ .eq) (kept : Kept wanted seen best) (rest : List Value) :
    Kept wanted (seen ++ rest)
      (rest.foldl (fun best v => if v.compare? best = some wanted then v else best) best) := by
  induction rest generalizing seen best with
  | nil =>
      rw [List.append_nil]
      exact kept
  | cons v rest ih =>
      rw [List.foldl_cons, List.append_cons]
      exact ih (kept.step strict v)

theorem kept_extreme (strict : wanted ≠ .eq) (nonempty : values ≠ []) :
    Kept wanted values (extreme wanted values) := by
  cases values with
  | nil => exact absurd rfl nonempty
  | cons first rest =>
      have alone : Kept wanted [first] first := by
        refine ⟨List.mem_singleton_self first, fun v member => ?_⟩
        rw [List.mem_singleton.mp member]
        exact Value.not_beats_self strict
      exact alone.run strict rest

/-- What an aggregate answers that asks for the first of some values in a direction: null if there
is nothing but null, and else one of the values that are not null, which no value beats. -/
structure IsExtreme (wanted : Ordering) (values : List Value) (found : Value) : Prop where
  null_iff : found = .null ↔ ∀ v ∈ values, v = .null
  mem : found ≠ .null → found ∈ values
  unbeaten : ∀ v ∈ values, v.compare? found ≠ some wanted

theorem isExtreme_extreme (strict : wanted ≠ .eq) (values : List Value) :
    IsExtreme wanted values (extreme wanted (values.filter fun v => !v.isNull)) := by
  have present (v : Value) : v ∈ values.filter (fun v => !v.isNull) ↔ v ∈ values ∧ v ≠ .null := by
    rw [List.mem_filter, Bool.not_eq_true', ← Bool.not_eq_true, Value.isNull_eq_true_iff]
  by_cases nothing : values.filter (fun v => !v.isNull) = []
  · have nulls : ∀ v ∈ values, v = .null := by
      intro v member
      by_contra nonnull
      have kept := (present v).mpr ⟨member, nonnull⟩
      rw [nothing] at kept
      cases kept
    rw [nothing]
    constructor
    case null_iff => exact iff_of_true rfl nulls
    case mem => exact fun nonnull => absurd rfl nonnull
    case unbeaten =>
      intro v member
      rw [nulls v member]
      exact Value.null_not_beats strict
  · have kept := kept_extreme strict nothing
    obtain ⟨member, nonnull⟩ := (present _).mp kept.mem
    constructor
    case null_iff => exact iff_of_false nonnull fun nulls => nonnull (nulls _ member)
    case mem => exact fun _ => member
    case unbeaten =>
      intro v other
      by_cases null : v = .null
      · rw [null]
        exact Value.null_not_beats strict
      · exact kept.unbeaten v ((present v).mpr ⟨other, null⟩)

/-- The least and the greatest value are extremes of any values, of whatever kinds they are and
whichever numbers are among them. -/
theorem aggregate_min_max (values : List Value) :
    IsExtreme .lt values (aggregate .min values) ∧
      IsExtreme .gt values (aggregate .max values) := by
  have less : Ordering.lt ≠ .eq := by decide
  have greater : Ordering.gt ≠ .eq := by decide
  exact ⟨isExtreme_extreme less values, isExtreme_extreme greater values⟩

/-- Texts and numbers do not beat one another, so the order of the values tells which are kept. -/
example :
    aggregate .min [.null, .str "b", .ofInt 3, .str "a", .ofInt (-1)] = .str "a" ∧
      aggregate .min [.null, .ofInt 3, .str "b", .ofInt (-1), .str "a"] = .ofInt (-1) :=
  ⟨rfl, rfl⟩

end Result

end RecordGraph
