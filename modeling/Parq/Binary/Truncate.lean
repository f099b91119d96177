import Mathlib.Data.Rat.Floor

/-!
# Floating-point numbers as rationals

A finite float stands for a rational.  Its conversion to a signed integer truncates that
rational towards zero and keeps what is out of range at the end of the range, and the
rationals that are sent to one integer make up an interval.
-/

namespace Parq.Binary

open Float.Model
open Float.Model.UnpackedFloat

/-! ## Truncation -/

/-- The integer part of a rational, towards zero. -/
def truncate (x : ℚ) : ℤ :=
  if 0 ≤ x then ⌊x⌋ else ⌈x⌉

theorem truncate_neg (x : ℚ) : truncate (-x) = -truncate x := by
  unfold truncate
  rcases lt_trichotomy x 0 with negative | rfl | positive
  · rw [if_pos (by linarith), if_neg (not_le.mpr negative), Int.floor_neg]
  · simp
  · rw [if_neg (by linarith), if_pos positive.le, Int.ceil_neg]

/-- A rational is truncated to an integer exactly when it is the integer, or behind it as
seen from zero by less than one. -/
theorem truncate_eq_iff {x : ℚ} {k : ℤ} :
    truncate x = k ↔ 0 ≤ x ∧ k ≤ x ∧ x < k + 1 ∨ x < 0 ∧ k - 1 < x ∧ x ≤ k := by
  unfold truncate
  split
  · rename_i nonnegative
    simp [Int.floor_eq_iff, nonnegative, not_lt.mpr nonnegative]
  · rename_i negative
    rw [not_le] at negative
    simp [Int.ceil_eq_iff, negative, not_le.mpr negative]

/-! ## The value of a float -/

/-- The rational that a finite float stands for. -/
def value : UnpackedFloat → ℚ
  | .finite s m e _ => s.apply m * 2 ^ e
  | _ => 0

theorem value_zero (s : Sign) : value (.zero s) = 0 :=
  rfl

theorem mantissa_shiftRight (em : ExtendedMantissa) (k : Nat) :
    (em >>> k).mantissa = em.mantissa / 2 ^ k := by
  induction k generalizing em with
  | zero => exact (Nat.div_one em.mantissa).symm
  | succ k ih =>
      change (em >>> k).mantissa / 2 = _
      rw [ih, Nat.div_div_eq_div_mul, Nat.pow_succ]

/-- The integer that is left when the bits behind the point are dropped. -/
theorem roundToInt_eq (s : Sign) (m : Nat) (e : Int) :
    roundToInt s m e = s.apply ((m <<< e.toNat / 2 ^ (-e).toNat : Nat) : Int) := by
  have shift : (0 - (e - (e.toNat : Int))).toNat = (-e).toNat := by omega
  simp only [roundToInt, decreaseExponent, shiftToExponent, Int.sub_zero, shift,
    mantissa_shiftRight, ExtendedMantissa.ofMantissaAndAccuracy]

theorem floor_mantissa (m : Nat) (e : Int) :
    ⌊(m : ℚ) * 2 ^ e⌋ = ((m <<< e.toNat / 2 ^ (-e).toNat : Nat) : Int) := by
  cases e with
  | ofNat k =>
      have whole : (m : ℚ) * 2 ^ (Int.ofNat k) = ((m * 2 ^ k : Nat) : ℚ) := by
        rw [Int.ofNat_eq_natCast, zpow_natCast, Nat.cast_mul, Nat.cast_pow, Nat.cast_ofNat]
      have places : (-Int.ofNat k).toNat = 0 := by
        rw [Int.ofNat_eq_natCast]
        omega
      rw [whole, Int.floor_natCast, places, Nat.pow_zero, Nat.div_one, Int.ofNat_eq_natCast,
        Int.toNat_natCast, Nat.shiftLeft_eq]
  | negSucc k =>
      have part : (m : ℚ) * 2 ^ (Int.negSucc k) = (m : ℚ) / ((2 ^ (k + 1) : Nat) : ℚ) := by
        rw [zpow_negSucc, Nat.cast_pow, Nat.cast_ofNat, div_eq_mul_inv]
      have places : (-Int.negSucc k).toNat = k + 1 := rfl
      rw [part, Rat.floor_natCast_div_natCast, places, Int.toNat_negSucc, Nat.shiftLeft_zero,
        Int.natCast_ediv]

/-- Dropping the bits behind the point truncates the value. -/
theorem roundToInt_eq_truncate (s : Sign) (m : Nat) (e : Int) :
    roundToInt s m e = truncate (s.apply m * 2 ^ e) := by
  have magnitude : truncate ((m : ℚ) * 2 ^ e) = ((m <<< e.toNat / 2 ^ (-e).toNat : Nat) : Int) := by
    have nonnegative : (0 : ℚ) ≤ m * 2 ^ e :=
      mul_nonneg (Nat.cast_nonneg m) (zpow_nonneg (by norm_num) e)
    rw [truncate, if_pos nonnegative, floor_mantissa]
  rw [roundToInt_eq]
  cases s with
  | positive => simp only [Sign.apply, Int.cast_natCast, magnitude]
  | negative =>
      simp only [Sign.apply, Int.cast_neg, Int.cast_natCast, neg_mul, truncate_neg, magnitude]

theorem toInt_eq_truncate {f : UnpackedFloat} (finite : f.isFinite = true) (low high : Int) :
    f.toInt low high = truncate (value f) := by
  cases f with
  | infinity s => cases finite
  | notANumber => cases finite
  | zero s =>
      rw [value_zero, truncate, if_pos le_rfl, Int.floor_zero]
      rfl
  | finite s m e positive => exact roundToInt_eq_truncate s m e

/-! ## Saturation -/

theorem le_truncate_iff {x : ℚ} {k : ℤ} (positive : 0 < k) : k ≤ truncate x ↔ (k : ℚ) ≤ x := by
  have above : (0 : ℚ) < k := Int.cast_pos.mpr positive
  unfold truncate
  split
  · exact Int.le_floor
  · rename_i negative
    rw [not_le] at negative
    have below : ⌈x⌉ ≤ 0 := Int.ceil_le.mpr (by simpa using negative.le)
    constructor
    · exact fun le => absurd (positive.trans_le le) (not_lt.mpr below)
    · exact fun le => absurd (above.trans_le le) (not_lt.mpr negative.le)

theorem truncate_le_iff {x : ℚ} {k : ℤ} (negative : k < 0) : truncate x ≤ k ↔ x ≤ k := by
  have mirrored := le_truncate_iff (x := -x) (Int.neg_pos.mpr negative)
  rwa [truncate_neg, neg_le_neg_iff, Int.cast_neg, neg_le_neg_iff] at mirrored

theorem ofIntClamp_eq_iff {i : Int} {k : Int64} :
    Int64.ofIntClamp i = k ↔
      i = k.toInt ∨ k = Int64.maxValue ∧ k.toInt ≤ i ∨ k = Int64.minValue ∧ i ≤ k.toInt := by
  have lower := k.minValue_le_toInt
  have upper := k.toInt_le
  unfold Int64.ofIntClamp
  split
  · rename_i above
    split
    · rename_i below
      rw [← Int64.toInt_inj, Int64.toInt_ofIntLE]
      constructor
      · exact .inl
      · rintro (same | ⟨rfl, le⟩ | ⟨rfl, le⟩)
        · exact same
        · exact Int.le_antisymm below le
        · exact Int.le_antisymm le above
    · rename_i beyond
      rw [Int.not_le] at beyond
      constructor
      · rintro rfl
        exact .inr (.inl ⟨rfl, beyond.le⟩)
      · rintro (rfl | ⟨rfl, _⟩ | ⟨rfl, le⟩)
        · omega
        · rfl
        · omega
  · rename_i beyond
    rw [Int.not_le] at beyond
    constructor
    · rintro rfl
      exact .inr (.inr ⟨rfl, beyond.le⟩)
    · rintro (rfl | ⟨rfl, le⟩ | ⟨rfl, _⟩)
      · omega
      · omega
      · rfl

/-- The rationals that truncation and saturation send to an integer of 64 bits: the integer,
what is behind it as seen from zero by less than one, and what is beyond it when it is an
end of the range. -/
def SentTo (k : Int64) (x : ℚ) : Prop :=
  0 ≤ x ∧ k.toInt ≤ x ∧ x < k.toInt + 1 ∨ x < 0 ∧ k.toInt - 1 < x ∧ x ≤ k.toInt ∨
    k = Int64.maxValue ∧ k.toInt ≤ x ∨ k = Int64.minValue ∧ x ≤ k.toInt

/-- Where the conversion of a finite float to an integer of 64 bits ends. -/
theorem toInt64_eq_iff {f : Float.Model} (finite : f.isFinite = true) {k : Int64} :
    f.toInt64 = k ↔ SentTo k (value f.unpack) := by
  rw [Float.Model.toInt64, UnpackedFloat.toInt64, toInt_eq_truncate finite, ofIntClamp_eq_iff,
    truncate_eq_iff, SentTo, or_assoc]
  refine or_congr Iff.rfl (or_congr Iff.rfl (or_congr ?_ ?_))
  · apply and_congr_right
    rintro rfl
    exact le_truncate_iff (by decide)
  · apply and_congr_right
    rintro rfl
    exact truncate_le_iff (by decide)

end Parq.Binary
