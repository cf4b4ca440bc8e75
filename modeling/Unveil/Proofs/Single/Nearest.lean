import Mathlib.Algebra.Ring.Nat
import Unveil.Numeral.Single
import Unveil.Proofs.Slot.Size

namespace Unveil.Numeral

theorem divEven_bounds (num den : Nat) : num / den ≤ divEven num den ∧ divEven num den ≤ num / den + 1 := by
  unfold divEven
  dsimp only
  split <;> omega

/-- A larger number has no smaller quotient. Where the whole parts are the same, the rest decides. -/
theorem divEven_mono {num num' den : Nat} (le : num ≤ num') : divEven num den ≤ divEven num' den := by
  rcases Nat.lt_or_eq_of_le (Nat.div_le_div_right le : num / den ≤ num' / den) with less | same
  · have below := (divEven_bounds num den).2
    have above := (divEven_bounds num' den).1
    omega
  · have whole := Nat.div_add_mod num den
    have whole' := Nat.div_add_mod num' den
    rw [← same] at whole'
    unfold divEven
    dsimp only
    rw [← same]
    simp only [Bool.or_eq_true, decide_eq_true_eq, Bool.and_eq_true, beq_iff_eq]
    split <;> split <;> omega

theorem divEven_mul_right (num den : Nat) {factor : Nat} (positive : 0 < factor) :
    divEven (num * factor) (den * factor) = divEven num den := by
  unfold divEven
  dsimp only
  have less (r : Nat) : den * factor < 2 * (r * factor) ↔ den < 2 * r := by
    rw [← Nat.mul_assoc]
    exact Nat.mul_lt_mul_right positive
  have same (r : Nat) : 2 * (r * factor) = den * factor ↔ 2 * r = den := by
    rw [← Nat.mul_assoc]
    exact Nat.mul_left_inj (Nat.ne_of_gt positive)
  rw [Nat.mul_div_mul_right _ _ positive, Nat.mul_mod_mul_right]
  simp only [Bool.or_eq_true, decide_eq_true_eq, Bool.and_eq_true, beq_iff_eq, less, same]

theorem divEven_one (num : Nat) : divEven num 1 = num := by
  unfold divEven
  simp [Nat.mod_one]

end Unveil.Numeral

namespace Unveil.Size

open Float.Model (Format UnpackedFloat totalExponent)
open Float.Model.UnpackedFloat
open Numeral (divEven)

/-- What shifting keeps of a number whose last bits are dropped: the bits before them, and how the dropped part
stands to a half. -/
structure Dropped (n t : Nat) (em : ExtendedMantissa) : Prop where
  mantissa : em.mantissa = n / 2 ^ t
  roundBit : em.roundBit = true ↔ 2 ^ t ≤ 2 * (n % 2 ^ t)
  stickyBit : em.stickyBit = true ↔ 2 * (n % 2 ^ t) ≠ 0 ∧ 2 * (n % 2 ^ t) ≠ 2 ^ t

namespace Dropped

variable {n t : Nat} {em : ExtendedMantissa}

theorem nothing (n : Nat) : Dropped n 0 ⟨n, false, false⟩ := by
  constructor <;> simp [Nat.mod_one]

theorem shiftRightOne (dropped : Dropped n t em) : Dropped n (t + 1) em.shiftRightOne := by
  have rest : n % 2 ^ (t + 1) = n % 2 ^ t + 2 ^ t * (n / 2 ^ t % 2) := Nat.mod_pow_succ
  have small : n % 2 ^ t < 2 ^ t := Nat.mod_lt _ (Nat.two_pow_pos t)
  have bit : n / 2 ^ t % 2 = 0 ∨ n / 2 ^ t % 2 = 1 := Nat.mod_two_eq_zero_or_one _
  constructor
  · rw [ExtendedMantissa.shiftRightOne, dropped.mantissa, Nat.pow_succ, Nat.div_div_eq_div_mul]
  · rw [ExtendedMantissa.shiftRightOne, dropped.mantissa, rest, bne_iff_ne, Nat.pow_succ]
    rcases bit with zero | one
    · rw [zero]
      omega
    · rw [one]
      omega
  · rw [ExtendedMantissa.shiftRightOne, Bool.or_eq_true, dropped.roundBit, dropped.stickyBit, rest, Nat.pow_succ]
    rcases bit with zero | one
    · rw [zero]
      omega
    · rw [one]
      omega

theorem shiftRight (n t : Nat) : Dropped n t (ExtendedMantissa.mk n false false >>> t) := by
  induction t with
  | zero => exact nothing n
  | succ t ih => exact ih.shiftRightOne

/-- The bits that are kept of the rest suffice to round. -/
theorem roundedMantissa (dropped : Dropped n t em) : em.roundedMantissa = divEven n (2 ^ t) := by
  obtain ⟨mantissa, roundBit, stickyBit⟩ := em
  obtain ⟨whole, half, beyond⟩ := dropped
  simp only at whole half beyond
  subst whole
  have rest : n % 2 ^ t < 2 ^ t := Nat.mod_lt _ (Nat.two_pow_pos t)
  unfold divEven
  simp only [Bool.or_eq_true, decide_eq_true_eq, Bool.and_eq_true, beq_iff_eq]
  cases roundBit <;> cases stickyBit <;>
    simp only [ExtendedMantissa.roundedMantissa, ExtendedMantissa.accuracy, Accuracy.roundToNearestEven,
      Bool.false_eq_true, false_iff, true_iff] at half beyond ⊢ <;>
    split <;> omega

end Dropped

theorem log2_mul_two_pow {n : Nat} (positive : 0 < n) (k : Nat) : (n * 2 ^ k).log2 = n.log2 + k := by
  induction k with
  | zero => rw [Nat.pow_zero, Nat.mul_one, Nat.add_zero]
  | succ k ih =>
    have nonzero : n * 2 ^ k ≠ 0 := Nat.mul_ne_zero (Nat.ne_of_gt positive) (Nat.ne_of_gt (Nat.two_pow_pos k))
    rw [Nat.pow_succ, ← Nat.mul_assoc, Nat.mul_comm, Nat.log2_two_mul nonzero, ih, Nat.add_assoc]

/-- How many of the last bits of a number are dropped, so that 24 are left. -/
def spare (n : Nat) : Nat := n.log2 - 23

/-- Among the sizes from zero on, the place of the one nearest to `n` times the smallest. -/
def nearest (n : Nat) : Nat := spare n <<< 23 + divEven n (2 ^ spare n)

theorem lt_of_spare {n : Nat} : n < 2 ^ 24 * 2 ^ spare n := by
  have below : n < 2 ^ (n.log2 + 1) := Nat.lt_log2_self
  have fits : 2 ^ (n.log2 + 1) ≤ 2 ^ (24 + spare n) := Nat.pow_le_pow_right (by decide) (by unfold spare; omega)
  rw [← Nat.pow_add]
  omega

theorem le_of_spare {n : Nat} (dropped : spare n ≠ 0) : 2 ^ 23 * 2 ^ spare n ≤ n := by
  have long : 23 + spare n = n.log2 := by
    unfold spare at dropped ⊢
    omega
  have nonzero : n ≠ 0 := by
    rintro rfl
    exact dropped rfl
  rw [← Nat.pow_add, long]
  exact Nat.log2_self_le nonzero

theorem divEven_spare_le (n : Nat) : divEven n (2 ^ spare n) ≤ 2 ^ 24 := by
  have whole : n / 2 ^ spare n < 2 ^ 24 := (Nat.div_lt_iff_lt_mul (Nat.two_pow_pos _)).mpr lt_of_spare
  have above := (Numeral.divEven_bounds n (2 ^ spare n)).2
  omega

theorem le_divEven_spare {n : Nat} (dropped : spare n ≠ 0) : 2 ^ 23 ≤ divEven n (2 ^ spare n) := by
  have whole : 2 ^ 23 ≤ n / 2 ^ spare n := (Nat.le_div_iff_mul_le (Nat.two_pow_pos _)).mpr (le_of_spare dropped)
  exact Nat.le_trans whole (Numeral.divEven_bounds n (2 ^ spare n)).1

theorem spare_mono {n n' : Nat} (le : n ≤ n') : spare n ≤ spare n' := by
  rcases Nat.eq_zero_or_pos n with rfl | positive
  · exact Nat.zero_le _
  · have nonzero : n ≠ 0 := by omega
    have reached : 2 ^ n.log2 ≤ n' := Nat.le_trans (Nat.log2_self_le nonzero) le
    exact Nat.sub_le_sub_right ((Nat.le_log2 (by omega)).mpr reached) 23

theorem nearest_mono {n n' : Nat} (le : n ≤ n') : nearest n ≤ nearest n' := by
  unfold nearest
  -- A larger exponent outweighs the mantissas.
  rcases Nat.lt_or_eq_of_le (spare_mono le) with less | same
  · have below := divEven_spare_le n
    have above : 2 ^ 23 ≤ divEven n' (2 ^ spare n') := le_divEven_spare (by omega)
    omega
  · rw [← same]
    exact Nat.add_le_add_left (Numeral.divEven_mono le) _

/-- A mantissa with its exponent, counted from the smallest one, as sizes are kept: it has 24 bits, and the first
of them is set unless the exponent is the smallest. -/
structure Fits (m k : Nat) : Prop where
  short : m < 2 ^ 24
  full : 2 ^ 23 ≤ m ∨ k = 0

theorem spare_exact {m k : Nat} (fits : Fits m k) : spare (m * 2 ^ k) = k := by
  obtain ⟨short, full | rfl⟩ := fits
  · have length : m.log2 = 23 := (Nat.log2_eq_iff (by omega)).mpr ⟨full, short⟩
    rw [spare, log2_mul_two_pow (by omega), length]
    omega
  · rw [Nat.pow_zero, Nat.mul_one, spare]
    rcases Nat.eq_zero_or_pos m with rfl | positive
    · rfl
    · have length : m.log2 < 24 := (Nat.log2_lt (by omega)).mpr short
      omega

/-- A number that has a size of its own is not rounded. -/
theorem nearest_exact {m k : Nat} (fits : Fits m k) : nearest (m * 2 ^ k) = k <<< 23 + m := by
  have one := Numeral.divEven_mul_right m 1 (Nat.two_pow_pos k)
  rw [Nat.one_mul, Numeral.divEven_one] at one
  rw [nearest, spare_exact fits, one]

/-- The form in which sizes are kept. -/
def Canonical : UnpackedFloat → Prop
  | .finite _ m e _ => ∃ k : Nat, e = k - 149 ∧ Fits m k
  | _ => True

theorem magnitude_finite (s : Sign) {m : Nat} (k : Nat) (above : 0 < m) :
    magnitude (.finite s m (k - 149) above) = k <<< 23 + m := by
  show ((k : Int) - 149 + 149).toNat <<< 23 + m = k <<< 23 + m
  omega

/-- A number of a sign, in the form in which sizes are kept, and its place among the sizes of its sign. -/
structure Placed (s : Sign) (place : Nat) (u : UnpackedFloat) : Prop where
  canonical : Canonical u
  sign : signOf u = some s
  magnitude : magnitude u = place

theorem targetExponent_eq {m : Nat} (positive : 0 < m) (k : Nat) :
    Format.binary32.targetExponent (totalExponent m (k - 149)) = (spare (m * 2 ^ k) : Nat) - 149 := by
  have least : Format.binary32.minExponent = -149 := by decide
  have bits : Format.binary32.mantissaBits = 24 := by decide
  rw [Format.targetExponent, totalExponent, least, bits, spare, log2_mul_two_pow positive]
  omega

theorem shiftToExponent_eq (m : Nat) {k t : Nat} (le : k ≤ t) :
    ∃ em, shiftToExponent m (k - 149) .exact (t - 149) = (em, (t : Int) - 149) ∧
      em.mantissa = m / 2 ^ (t - k) ∧ em.roundedMantissa = divEven (m * 2 ^ k) (2 ^ t) := by
  have amount : ((t : Int) - 149 - (k - 149)).toNat = t - k := by omega
  have dropped := Dropped.shiftRight m (t - k)
  have scaled := Numeral.divEven_mul_right m (2 ^ (t - k)) (Nat.two_pow_pos k)
  rw [← Nat.pow_add, Nat.sub_add_cancel le] at scaled
  refine ⟨_, ?_, dropped.mantissa, dropped.roundedMantissa.trans scaled.symm⟩
  rw [shiftToExponent, amount]
  refine Prod.ext rfl ?_
  simp only
  omega

/-- A rounded mantissa may have become one bit too long. It is even then, so that nothing more is lost. -/
theorem carry {q t : Nat} (positive : 0 < q) (short : q ≤ 2 ^ 24) (full : 2 ^ 23 ≤ q ∨ t = 0) :
    ∃ em, ∃ k : Nat, shiftToTargetExponent Format.binary32 q (t - 149) .exact = (em, (k : Int) - 149) ∧
      0 < em.mantissa ∧ Fits em.mantissa k ∧ k <<< 23 + em.mantissa = t <<< 23 + q := by
  have target (k : Nat) (same : spare (q * 2 ^ t) = k) (le : t ≤ k) :
      ∃ em, shiftToTargetExponent Format.binary32 q (t - 149) .exact = (em, (k : Int) - 149) ∧
        em.mantissa = q / 2 ^ (k - t) := by
    obtain ⟨em, shifted, mantissa, -⟩ := shiftToExponent_eq q le
    refine ⟨em, ?_, mantissa⟩
    rw [shiftToTargetExponent, targetExponent_eq positive, same, shifted]
  rcases Nat.lt_or_eq_of_le short with fewer | rfl
  · obtain ⟨em, shifted, mantissa⟩ := target t (spare_exact ⟨fewer, full⟩) (Nat.le_refl t)
    rw [Nat.sub_self, Nat.pow_zero, Nat.div_one] at mantissa
    exact ⟨em, t, shifted, by omega, ⟨by omega, by omega⟩, by omega⟩
  · have longer : spare (2 ^ 24 * 2 ^ t) = t + 1 := by
      rw [← spare_exact (⟨by decide, .inl (Nat.le_refl _)⟩ : Fits (2 ^ 23) (t + 1)), Nat.pow_succ 2 t]
      congr 1
      omega
    obtain ⟨em, shifted, mantissa⟩ := target (t + 1) longer (Nat.le_succ t)
    rw [Nat.add_sub_cancel_left] at mantissa
    exact ⟨em, t + 1, shifted, by omega, ⟨by omega, by omega⟩, by omega⟩

theorem roundWithAccuracy_placed (s : Sign) {m k : Nat} (positive : 0 < m) (le : k ≤ spare (m * 2 ^ k)) :
    Placed s (nearest (m * 2 ^ k)) (roundWithAccuracy Format.binary32 s m (k - 149) .exact) := by
  obtain ⟨em, shifted, -, rounded⟩ := shiftToExponent_eq m le
  have first : shiftToTargetExponent Format.binary32 m (k - 149) .exact =
      (em, (spare (m * 2 ^ k) : Int) - 149) := by
    rw [shiftToTargetExponent, targetExponent_eq positive, shifted]
  have full : 2 ^ 23 ≤ em.roundedMantissa ∨ spare (m * 2 ^ k) = 0 := by
    rcases Nat.eq_zero_or_pos (spare (m * 2 ^ k)) with kept | dropped
    · exact .inr kept
    · exact .inl (rounded ▸ le_divEven_spare (Nat.ne_of_gt dropped))
  have nonzero : 0 < em.roundedMantissa := by
    rcases full with full | kept
    · omega
    · rw [rounded, kept, Nat.pow_zero, Numeral.divEven_one]
      exact Nat.mul_pos positive (Nat.two_pow_pos k)
  obtain ⟨last, k', carried, above, fits, place⟩ :=
    carry nonzero (rounded ▸ divEven_spare_le _) full
  unfold roundWithAccuracy
  rw [first]
  dsimp only
  rw [carried]
  dsimp only
  rw [dif_neg (Nat.ne_of_gt above)]
  refine ⟨⟨k', rfl, fits⟩, rfl, ?_⟩
  rw [magnitude_finite, nearest, ← rounded, ← place]

/-- Rounding gives the nearest size. -/
theorem round_placed (s : Sign) {m : Nat} (positive : 0 < m) (k : Nat) :
    Placed s (nearest (m * 2 ^ k)) (UnpackedFloat.round Format.binary32 s m (k - 149)) := by
  let up := k - spare (m * 2 ^ k)
  have scaled : m * 2 ^ up * 2 ^ (k - up) = m * 2 ^ k := by
    rw [Nat.mul_assoc, ← Nat.pow_add, Nat.add_sub_cancel' (Nat.sub_le _ _)]
  have lower : decreaseExponent m (k - 149) (spare (m * 2 ^ k) - 149) =
      (m * 2 ^ up, ((k - up : Nat) : Int) - 149) := by
    have amount : ((k : Int) - 149 - (spare (m * 2 ^ k) - 149)).toNat = up := by omega
    rw [decreaseExponent, amount]
    refine Prod.ext (Nat.shiftLeft_eq m up) ?_
    simp only
    omega
  have reached : k - up ≤ spare (m * 2 ^ up * 2 ^ (k - up)) := by
    rw [scaled]
    omega
  have rounded := roundWithAccuracy_placed s (Nat.mul_pos positive (Nat.two_pow_pos up)) reached
  rw [scaled] at rounded
  rw [UnpackedFloat.round, targetExponent_eq positive, lower]
  exact rounded

end Unveil.Size
