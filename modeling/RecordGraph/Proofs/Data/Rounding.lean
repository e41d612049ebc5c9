import Mathlib.Algebra.Group.Int.Defs
import Mathlib.Algebra.Group.Nat.Defs
import RecordGraph.Data.Compare

/-!
# Integers as floating-point numbers

Two integers of which one does not fit a signed 64-bit word are compared by the numbers nearest
to them. Rounding never turns an order around, so such a comparison answers the order of the
integers or calls them equal. From `2 ^ 63` on the floating-point numbers are the multiples of
`2048`, and the last ones below are `1024` apart; `Binary64.RoundsToStep` says in these terms
which integers become one number, and `Number.compare_int` that nothing else is lost.
-/

namespace RecordGraph

namespace Binary64

variable {n m shift : Nat} {i j q : Int}

/-! ### Rounding keeps the order -/

theorem roundShift_bounds (n shift : Nat) : n / 2 ^ shift ≤ roundShift n shift ∧
    roundShift n shift ≤ n / 2 ^ shift + 1 := by
  simp only [roundShift, Nat.pow_eq]
  split
  · omega
  · split <;> omega

theorem roundShift_mono (le : n ≤ m) : roundShift n shift ≤ roundShift m shift := by
  have quotients : n / 2 ^ shift ≤ m / 2 ^ shift := Nat.div_le_div_right le
  rcases Nat.lt_or_eq_of_le quotients with less | same
  · have here := roundShift_bounds n shift
    have there := roundShift_bounds m shift
    omega
  · have rests : n % 2 ^ shift ≤ m % 2 ^ shift := by
      have here := Nat.div_add_mod n (2 ^ shift)
      have there := Nat.div_add_mod m (2 ^ shift)
      rw [same] at here
      omega
    simp only [roundShift, Nat.pow_eq, same]
    split <;> split <;> (try split) <;> (try split) <;> omega

/-- The 53 leading bits of a number, rounded; rounding up may add one more. -/
def significand (n : Nat) : Nat :=
  if n.log2 ≤ 52 then n * 2 ^ (52 - n.log2) else roundShift n (n.log2 - 52)

theorem magnitudeOfNat_eq (positive : n ≠ 0) :
    magnitudeOfNat n = (n.log2 + 1022) * 2 ^ 52 + significand n := by
  simp only [magnitudeOfNat, positive, if_false, significand, Nat.pow_eq]

theorem significand_bounds (positive : n ≠ 0) :
    2 ^ 52 ≤ significand n ∧ significand n ≤ 2 ^ 53 := by
  have lower : 2 ^ n.log2 ≤ n := Nat.log2_self_le positive
  have upper : n < 2 ^ (n.log2 + 1) := Nat.lt_log2_self
  unfold significand
  split
  · have whole : 2 ^ n.log2 * 2 ^ (52 - n.log2) = 2 ^ 52 := by
      rw [← Nat.pow_add]
      congr 1
      omega
    have low := Nat.mul_le_mul_right (2 ^ (52 - n.log2)) lower
    have high := Nat.mul_le_mul_right (2 ^ (52 - n.log2)) (Nat.le_of_lt upper)
    rw [Nat.pow_succ, Nat.mul_right_comm] at high
    omega
  · have top : 2 ^ n.log2 = 2 ^ 52 * 2 ^ (n.log2 - 52) := by
      rw [← Nat.pow_add]
      congr 1
      omega
    have unit : 0 < 2 ^ (n.log2 - 52) := Nat.two_pow_pos _
    have low : 2 ^ 52 ≤ n / 2 ^ (n.log2 - 52) := by
      rw [Nat.le_div_iff_mul_le unit, ← top]
      exact lower
    have high : n / 2 ^ (n.log2 - 52) < 2 ^ 53 := by
      rw [Nat.div_lt_iff_lt_mul unit]
      rw [Nat.pow_succ, top] at upper
      omega
    have rounded := roundShift_bounds n (n.log2 - 52)
    omega

/-- A greater number does not get a smaller word. Among numbers with the same leading bit the
significands decide; with a greater leading bit even the least significand is enough. -/
theorem magnitudeOfNat_mono (le : n ≤ m) : magnitudeOfNat n ≤ magnitudeOfNat m := by
  by_cases zero : n = 0
  · simp [zero]
  have nonzero : m ≠ 0 := by omega
  have tops : n.log2 ≤ m.log2 := (Nat.le_log2 nonzero).mpr (Nat.le_trans (Nat.log2_self_le zero) le)
  rw [magnitudeOfNat_eq zero, magnitudeOfNat_eq nonzero]
  rcases Nat.lt_or_eq_of_le tops with less | same
  · have here := significand_bounds zero
    have there := significand_bounds nonzero
    omega
  · have significands : significand n ≤ significand m := by
      unfold significand
      rw [same]
      split
      · exact Nat.mul_le_mul_right _ le
      · exact roundShift_mono le
    omega

theorem magnitudeOfNat_lt (small : n < 2 ^ 64) : magnitudeOfNat n < 2 ^ 63 := by
  have le := magnitudeOfNat_mono (Nat.le_of_lt small)
  have top : magnitudeOfNat (2 ^ 64) < 2 ^ 63 := by decide
  omega

theorem rank_ofInt (small : i.natAbs < 2 ^ 64) : (ofInt i).rank =
    if i < 0 then -(magnitudeOfNat i.natAbs : Int) else magnitudeOfNat i.natAbs := by
  have bound := magnitudeOfNat_lt small
  generalize word_eq : magnitudeOfNat i.natAbs = word at bound
  by_cases negative : i < 0
  · have bits : (ofInt i).bits.toNat = 0x8000000000000000 + word := by
      simp only [ofInt, word_eq, negative, if_true, UInt64.toNat_ofNat']
      omega
    simp only [rank, isNegative, magnitude, bits, negative, if_true, decide_eq_true_eq]
    split <;> omega
  · have bits : (ofInt i).bits.toNat = word := by
      simp only [ofInt, word_eq, negative, if_false, UInt64.toNat_ofNat']
      omega
    simp only [rank, isNegative, magnitude, bits, negative, if_false, decide_eq_true_eq]
    split <;> omega

/-- Rounding never turns the order of two integers around. -/
theorem rank_ofInt_mono (hi : i.natAbs < 2 ^ 64) (hj : j.natAbs < 2 ^ 64) (le : i ≤ j) :
    (ofInt i).rank ≤ (ofInt j).rank := by
  rw [rank_ofInt hi, rank_ofInt hj]
  by_cases negative : j < 0
  · have magnitudes : magnitudeOfNat j.natAbs ≤ magnitudeOfNat i.natAbs :=
      magnitudeOfNat_mono (by omega)
    rw [if_pos negative, if_pos (by omega)]
    omega
  · rw [if_neg negative]
    split
    · omega
    · have magnitudes : magnitudeOfNat i.natAbs ≤ magnitudeOfNat j.natAbs :=
        magnitudeOfNat_mono (by omega)
      omega

/-! ### Integers that become one number -/

/-- The nearest floating-point number of an integer is `2048 * q`, at least `2 ^ 63`. Above
`2 ^ 63` it is the nearest multiple of `2048`, from the middle of two the even one; below, where
the last number is `2 ^ 63 - 1024`, it is `2 ^ 63` from the middle on. -/
def RoundsToStep (i q : Int) : Prop :=
  if i < 2 ^ 63 then q = 2 ^ 52 ∧ 2 ^ 63 - 512 ≤ i
  else (i - 2048 * q).natAbs < 1024 ∨ (i - 2048 * q).natAbs = 1024 ∧ q % 2 = 0

theorem magnitudeOfNat_of_large (large : 2 ^ 63 ≤ n) (small : n < 2 ^ 64) :
    magnitudeOfNat n = 1085 * 2 ^ 52 + roundShift n 11 := by
  have nonzero : n ≠ 0 := by omega
  have top : n.log2 = 63 := (Nat.log2_eq_iff nonzero).mpr ⟨large, small⟩
  rw [magnitudeOfNat_eq nonzero, significand, top, if_neg (by decide)]

theorem magnitudeOfNat_step : magnitudeOfNat (2 ^ 63) = 1085 * 2 ^ 52 + 2 ^ 52 := by decide

/-- The number `2048 * q` has the rank that its exponent field and `q` as significand make. -/
theorem roundsToStep_iff_rank (small : i.natAbs < 2 ^ 64) :
    RoundsToStep i q ↔ 2 ^ 52 ≤ q ∧ (ofInt i).rank = 1085 * 2 ^ 52 + q := by
  rw [rank_ofInt small, RoundsToStep]
  by_cases large : 2 ^ 63 ≤ i
  · rw [magnitudeOfNat_of_large (by omega) small, if_neg (by omega), if_neg (by omega)]
    simp only [roundShift, Nat.pow_eq]
    split
    · omega
    · split <;> omega
  rw [if_pos (by omega)]
  by_cases negative : i < 0
  · rw [if_pos negative]
    omega
  have below : magnitudeOfNat i.natAbs ≤ magnitudeOfNat (2 ^ 63) := magnitudeOfNat_mono (by omega)
  rw [magnitudeOfNat_step] at below
  rw [if_neg negative]
  -- The middle between the last number below `2 ^ 63` and `2 ^ 63` is `2 ^ 63 - 512`.
  by_cases near : 2 ^ 63 - 512 ≤ i
  · have middle : magnitudeOfNat (2 ^ 63 - 512) = 1085 * 2 ^ 52 + 2 ^ 52 := by decide
    have above : magnitudeOfNat (2 ^ 63 - 512) ≤ magnitudeOfNat i.natAbs :=
      magnitudeOfNat_mono (by omega)
    omega
  · have before : magnitudeOfNat (2 ^ 63 - 513) < 1085 * 2 ^ 52 + 2 ^ 52 := by decide
    have far : magnitudeOfNat i.natAbs ≤ magnitudeOfNat (2 ^ 63 - 513) :=
      magnitudeOfNat_mono (by omega)
    omega

theorem rank_eq_iff (hi : i.natAbs < 2 ^ 64) (hj : j.natAbs < 2 ^ 64)
    (large : 2 ^ 63 ≤ i ∨ 2 ^ 63 ≤ j) :
    (ofInt i).rank = (ofInt j).rank ↔ ∃ q, RoundsToStep i q ∧ RoundsToStep j q := by
  simp only [roundsToStep_iff_rank hi, roundsToStep_iff_rank hj]
  constructor
  · intro same
    have base : (ofInt (2 ^ 63)).rank = 1085 * 2 ^ 52 + 2 ^ 52 := by decide
    have rank_large {k : Int} (le : 2 ^ 63 ≤ k) (small : k.natAbs < 2 ^ 64) :
        1085 * 2 ^ 52 + 2 ^ 52 ≤ (ofInt k).rank :=
      base ▸ rank_ofInt_mono (by decide) small le
    have reached : 1085 * 2 ^ 52 + 2 ^ 52 ≤ (ofInt i).rank := by
      rcases large with large | large
      · exact rank_large large hi
      · exact same ▸ rank_large large hj
    exact ⟨(ofInt i).rank - 1085 * 2 ^ 52, by omega⟩
  · rintro ⟨q, ⟨-, here⟩, -, there⟩
    rw [here, there]

end Binary64

namespace Number

variable {i j : Int}

/-- An integer of a document fits a 64-bit word, be it signed or unsigned. -/
def IsWord (i : Int) : Prop :=
  -2 ^ 63 ≤ i ∧ i < 2 ^ 64

/-- One of two integers does not fit a signed word, and both have the same nearest
floating-point number. -/
def Merged (i j : Int) : Prop :=
  (2 ^ 63 ≤ i ∨ 2 ^ 63 ≤ j) ∧ ∃ q, Binary64.RoundsToStep i q ∧ Binary64.RoundsToStep j q

instance (i : Int) : Decidable (IsWord i) :=
  inferInstanceAs (Decidable (_ ∧ _))

theorem compare_int_of_large (large : 2 ^ 63 ≤ i ∨ 2 ^ 63 ≤ j) : (int i).compare (int j) =
    Ord.compare (Binary64.ofInt i).rank (Binary64.ofInt j).rank := by
  apply compare_of_unsigned
  rcases large with large | large
  · exact .inl (if_neg (by omega))
  · exact .inr (if_neg (by omega))

/-- Integers that are merged count as equal, and all others are compared as they are. -/
theorem compare_int (hi : IsWord i) (hj : IsWord j) :
    (Merged i j → (int i).compare (int j) = .eq) ∧
      (¬ Merged i j → (int i).compare (int j) = Ord.compare i j) := by
  obtain ⟨_, _⟩ := hi
  obtain ⟨_, _⟩ := hj
  by_cases large : 2 ^ 63 ≤ i ∨ 2 ^ 63 ≤ j
  · have hi : i.natAbs < 2 ^ 64 := by omega
    have hj : j.natAbs < 2 ^ 64 := by omega
    have equal := Binary64.rank_eq_iff hi hj large
    rw [compare_int_of_large large]
    constructor
    · rintro ⟨-, steps⟩
      rw [equal.mpr steps]
      exact Std.compare_self
    · intro apart
      have ne : (Binary64.ofInt i).rank ≠ (Binary64.ofInt j).rank :=
        fun same => apart ⟨large, equal.mp same⟩
      rcases Int.lt_trichotomy i j with less | rfl | greater
      · have kept := Binary64.rank_ofInt_mono hi hj (by omega)
        rw [Int.compare_eq_lt.mpr less, Int.compare_eq_lt.mpr (by omega)]
      · exact (ne rfl).elim
      · have kept := Binary64.rank_ofInt_mono hj hi (by omega)
        rw [Int.compare_eq_gt.mpr greater, Int.compare_eq_gt.mpr (by omega)]
  · refine ⟨fun merged => (large merged.1).elim, fun _ => ?_⟩
    exact compare_of_signed (if_pos (by omega)) (if_pos (by omega))

/-- Merged integers are no further apart than two neighbouring floating-point numbers. -/
theorem Merged.near (merged : Merged i j) : (i - j).natAbs ≤ 2048 := by
  obtain ⟨-, q, here, there⟩ := merged
  unfold Binary64.RoundsToStep at here there
  split at here <;> split at there <;> omega

end Number

end RecordGraph
