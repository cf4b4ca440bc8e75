import Mathlib.Algebra.Ring.Int.Defs
import Unveil.Proofs.Single.Order

namespace Unveil.Size

open Float.Model (Format UnpackedFloat)
open Float.Model.UnpackedFloat

/-- A finite number as a multiple of the smallest size. -/
def value : UnpackedFloat → Int
  | .finite s m e _ => s.apply (m * 2 ^ (e + 149).toNat : Nat)
  | _ => 0

theorem value_zero (s : Sign) : value (.zero s) = 0 := rfl

theorem value_finite (s : Sign) {m : Nat} (k : Nat) (above : 0 < m) :
    value (.finite s m (k - 149) above) = s.apply (m * 2 ^ k : Nat) := by
  show s.apply (m * 2 ^ ((k : Int) - 149 + 149).toNat : Nat) = s.apply (m * 2 ^ k : Nat)
  rw [Int.sub_add_cancel, Int.toNat_natCast]

theorem magnitude_le {m m' k k' : Nat} (first : Fits m k) (second : Fits m' k')
    (le : k <<< 23 + m ≤ k' <<< 23 + m') : m * 2 ^ k ≤ m' * 2 ^ k' := by
  obtain ⟨short, full⟩ := first
  obtain ⟨short', full'⟩ := second
  rcases Nat.lt_trichotomy k k' with less | rfl | more
  · calc m * 2 ^ k ≤ 2 ^ 24 * 2 ^ k := Nat.mul_le_mul_right _ (Nat.le_of_lt short)
      _ = 2 ^ 23 * 2 ^ (k + 1) := by omega
      _ ≤ 2 ^ 23 * 2 ^ k' := Nat.mul_le_mul_left _ (Nat.pow_le_pow_right (by decide) less)
      _ ≤ m' * 2 ^ k' := Nat.mul_le_mul_right _ (by omega)
  · exact Nat.mul_le_mul_right _ (by omega)
  · omega

/-- Values are in the order of the places. -/
theorem value_le_of_rank_le {u v : UnpackedFloat} (first : Kept u) (second : Kept v)
    (finite : u.isFinite = true) (finite' : v.isFinite = true) (le : rank u ≤ rank v) : value u ≤ value v := by
  cases first with
  | infinity => cases finite
  | zero s =>
    cases second with
    | infinity => cases finite'
    | zero t => exact Int.le_refl _
    | finite t above fits bounded =>
      rw [rank_zero, rank_finite] at le
      rw [value_zero, value_finite]
      cases t with
      | negative =>
        simp only [Sign.apply] at le
        omega
      | positive => exact Int.natCast_nonneg _
  | finite s above fits bounded =>
    cases second with
    | infinity => cases finite'
    | zero t =>
      rw [rank_zero, rank_finite] at le
      rw [value_zero, value_finite]
      cases s with
      | negative => exact Int.neg_nonpos_of_nonneg (Int.natCast_nonneg _)
      | positive =>
        simp only [Sign.apply] at le
        omega
    | finite t above' fits' bounded' =>
      rw [rank_finite, rank_finite] at le
      rw [value_finite, value_finite]
      have up := magnitude_le fits fits'
      have down := magnitude_le fits' fits
      cases s with
      | negative =>
        cases t with
        | negative => exact Int.neg_le_neg (Int.ofNat_le.mpr (down (Int.ofNat_le.mp (Int.le_of_neg_le_neg le))))
        | positive =>
          simp only [Sign.apply]
          omega
      | positive =>
        cases t with
        | negative =>
          simp only [Sign.apply] at le
          omega
        | positive => exact Int.ofNat_le.mpr (up (Int.ofNat_le.mp le))

/-- The place of the number nearest to a multiple of the smallest size. -/
def nearestRank (v : Int) : Int := v.sign * capped (nearest v.natAbs)

theorem nearestRank_apply (s : Sign) (n : Nat) : nearestRank (s.apply n) = s.apply (capped (nearest n)) := by
  rcases Nat.eq_zero_or_pos n with rfl | positive
  · cases s <;> rfl
  · have one : Int.sign n = 1 := Int.sign_eq_one_of_pos (by omega)
    cases s with
    | negative =>
      rw [nearestRank, Sign.apply, Int.sign_neg, one, Int.natAbs_neg, Int.natAbs_natCast, Int.neg_one_mul]
      rfl
    | positive =>
      rw [nearestRank, Sign.apply, one, Int.natAbs_natCast, Int.one_mul]
      rfl

theorem exists_apply (v : Int) : ∃ (s : Sign) (n : Nat), s.apply n = v := by
  rcases Int.natAbs_eq v with positive | negative
  · exact ⟨.positive, v.natAbs, positive.symm⟩
  · exact ⟨.negative, v.natAbs, negative.symm⟩

theorem nearestRank_mono {v w : Int} (le : v ≤ w) : nearestRank v ≤ nearestRank w := by
  obtain ⟨s, n, rfl⟩ := exists_apply v
  obtain ⟨t, n', rfl⟩ := exists_apply w
  have mono {n n' : Nat} (le : n ≤ n') := capped_mono (nearest_mono le)
  rw [nearestRank_apply, nearestRank_apply]
  cases s with
  | negative =>
    cases t with
    | negative => exact Int.neg_le_neg (Int.ofNat_le.mpr (mono (Int.ofNat_le.mp (Int.le_of_neg_le_neg le))))
    | positive =>
      simp only [Sign.apply]
      omega
  | positive =>
    cases t with
    | negative =>
      have zeros : n = 0 ∧ n' = 0 := by
        simp only [Sign.apply] at le
        omega
      rw [zeros.1, zeros.2]
      decide
    | positive => exact Int.ofNat_le.mpr (mono (Int.ofNat_le.mp le))

/-- The number that is found where one was packed. -/
def found (u : UnpackedFloat) : UnpackedFloat := unpack Format.binary32 (pack Format.binary32 u)

/-- What was packed is found as a number at a place. -/
structure FoundAt (place : Int) (u : UnpackedFloat) : Prop where
  number : found u ≠ .notANumber
  rank : rank (found u) = place

/-- Bits stand for a number unless the exponent is the highest and the mantissa is not zero. -/
theorem unpack_eq_notANumber_iff {b : BitVec 32} :
    unpack Format.binary32 b = .notANumber ↔
      @unpackExponent Format.binary32 b = -1#8 ∧ @unpackMantissa Format.binary32 b ≠ 0#23 := by
  unfold unpack
  dsimp only
  by_cases highest : @unpackExponent Format.binary32 b = -1#8
  · rw [if_pos highest]
    by_cases whole : @unpackMantissa Format.binary32 b = 0#23
    · rw [if_pos whole]
      exact iff_of_false UnpackedFloat.noConfusion fun undefined => undefined.2 whole
    · rw [if_neg whole]
      exact iff_of_true rfl ⟨highest, whole⟩
  · rw [if_neg highest]
    refine iff_of_false ?_ fun undefined => highest undefined.1
    by_cases lowest : @unpackExponent Format.binary32 b = 0#8
    · rw [if_pos lowest]
      by_cases whole : @unpackMantissa Format.binary32 b = 0#23
      · rw [dif_pos whole]
        exact UnpackedFloat.noConfusion
      · rw [dif_neg whole]
        exact UnpackedFloat.noConfusion
    · rw [if_neg lowest]
      exact UnpackedFloat.noConfusion

theorem found_notANumber : found .notANumber = .notANumber := by
  refine unpack_eq_notANumber_iff.mpr ?_
  unfold pack packedNaN
  rw [unpackExponent_packComponents, unpackMantissa_packComponents]
  decide

theorem foundAt_of_components {u : UnpackedFloat} {s : Sign} {e : BitVec 8} {m : BitVec 23} {p : Nat}
    (number : e ≠ -1#8 ∨ m = 0#23) (place : e.toNat <<< 23 + m.toNat = p)
    (packed : pack Format.binary32 u = packComponents Format.binary32 s e m) : FoundAt (s.apply p) u := by
  have defined : found u ≠ .notANumber := by
    rw [found, packed, ne_eq, unpack_eq_notANumber_iff, unpackExponent_packComponents,
      unpackMantissa_packComponents]
    exact fun undefined => number.elim (absurd undefined.1) undefined.2
  have sign : Sign.ofBitVec s.toBitVec = s := by cases s <;> rfl
  refine ⟨defined, ?_⟩
  rw [rank, found, signOf_unpack defined, magnitude_unpack defined, packed, unpackSign_packComponents, sign,
    unpackExponent_packComponents, unpackMantissa_packComponents, place]
  rfl

theorem pack_finite (s : Sign) {m k : Nat} (above : 0 < m) (fits : Fits m k) :
    ∃ (e : BitVec 8) (m' : BitVec 23), (e ≠ -1#8 ∨ m' = 0#23) ∧
      e.toNat <<< 23 + m'.toNat = capped (k <<< 23 + m) ∧
      pack Format.binary32 (.finite s m (k - 149) above) = packComponents Format.binary32 s e m' := by
  have biased : ((k : Int) - 149 + Format.binary32.exponentBias +
      Format.binary32.mantissaBitsWithoutImplicit).toNat = k + 1 := by
    have bias : Format.binary32.exponentBias = 127 := by decide
    have bits : Format.binary32.mantissaBitsWithoutImplicit = 23 := rfl
    rw [bias, bits]
    omega
  have bits : Format.binary32.mantissaBits = 24 := by decide
  obtain ⟨short, full⟩ := fits
  unfold pack capped limit
  dsimp only
  rw [biased, bits]
  split
  · have top : (-1#8).toNat <<< 23 + (0#23).toNat = 255 <<< 23 := by decide
    exact ⟨-1#8, 0#23, .inr rfl, by omega, rfl⟩
  · rename_i below
    split
    · rename_i normal
      have least : 2 ^ 23 ≤ m := (Nat.le_log2 (Nat.ne_of_gt above)).mp (by omega)
      refine ⟨.ofNat 8 (k + 1), .ofNat 23 m, .inl fun same => ?_, ?_, rfl⟩
      · have places : (k + 1) % 2 ^ 8 = 255 := congrArg BitVec.toNat same
        omega
      · rw [BitVec.toNat_ofNat, BitVec.toNat_ofNat]
        omega
    · rename_i subnormal
      have less : m < 2 ^ 23 := by
        rcases Nat.lt_or_ge m (2 ^ 23) with less | more
        · exact less
        · rw [(Nat.log2_eq_iff (Nat.ne_of_gt above)).mpr ⟨more, short⟩] at subnormal
          exact absurd rfl subnormal
      have bottom : (0#8).toNat <<< 23 = 0 := by decide
      refine ⟨0#8, .ofNat 23 m, .inl (by decide), ?_, rfl⟩
      rw [bottom, BitVec.toNat_ofNat]
      omega

/-- A rounded number is found again, but past the largest size it is infinite. -/
theorem Placed.foundAt {s : Sign} {p : Nat} {u : UnpackedFloat} (placed : Placed s p u) :
    FoundAt (s.apply (capped p)) u := by
  obtain ⟨canonical, signed, rfl⟩ := placed
  cases u with
  | notANumber => cases signed
  | infinity =>
    cases signed
    have place : (-1#8).toNat <<< 23 + (0#23).toNat = capped (255 <<< 23) := by decide
    exact foundAt_of_components (.inr rfl) place rfl
  | zero =>
    cases signed
    have place : (0#8).toNat <<< 23 + (0#23).toNat = capped 0 := by decide
    exact foundAt_of_components (.inr rfl) place rfl
  | finite t m e above =>
    cases signed
    obtain ⟨k, rfl, fits⟩ := canonical
    obtain ⟨e, m', number, place, packed⟩ := pack_finite s above fits
    rw [magnitude_finite]
    exact foundAt_of_components number place packed

/-- A finite number is found again where its value is. -/
theorem foundAt_value {u : UnpackedFloat} (kept : Kept u) (finite : u.isFinite = true) :
    FoundAt (nearestRank (value u)) u := by
  cases kept with
  | infinity => cases finite
  | zero s =>
    have place : s.apply (capped 0) = nearestRank 0 := by cases s <;> rfl
    have placed : Placed s 0 (.zero s) := ⟨trivial, rfl, rfl⟩
    rw [value_zero, ← place]
    exact placed.foundAt
  | @finite s m k above fits bounded =>
    have placed : Placed s (k <<< 23 + m) (.finite s m (k - 149) above) :=
      ⟨⟨k, rfl, fits⟩, rfl, magnitude_finite s k above⟩
    rw [value_finite, nearestRank_apply, nearest_exact fits]
    exact placed.foundAt

/-- Normalizing rounds to the nearest number. -/
theorem foundAt_normalize (n : Int) (k : Nat) :
    FoundAt (nearestRank (n * 2 ^ k)) (UnpackedFloat.normalize Format.binary32 n (k - 149) .positive) := by
  have rounded (s : Sign) {m : Nat} (positive : 0 < m) :
      FoundAt (nearestRank (s.apply (m * 2 ^ k : Nat))) (UnpackedFloat.round Format.binary32 s m (k - 149)) := by
    rw [nearestRank_apply]
    exact (round_placed s positive k).foundAt
  unfold UnpackedFloat.normalize
  rcases Int.lt_trichotomy n 0 with below | rfl | above
  · have same : Sign.negative.apply ((-n).toNat * 2 ^ k : Nat) = n * 2 ^ k := by
      rw [Sign.apply, Int.natCast_mul, Int.toNat_of_nonneg (by omega), Int.neg_mul, Int.neg_neg]
      rfl
    rw [Int.compare_eq_lt.mpr below, ← same]
    exact rounded .negative (by omega)
  · rw [Int.compare_eq_eq.mpr rfl, Int.zero_mul]
    exact foundAt_value (.zero .positive) rfl
  · have same : Sign.positive.apply (n.toNat * 2 ^ k : Nat) = n * 2 ^ k := by
      rw [Sign.apply, Int.natCast_mul, Int.toNat_of_nonneg (by omega)]
      rfl
    rw [Int.compare_eq_gt.mpr above, ← same]
    exact rounded .positive (by omega)

theorem apply_shiftLeft (s : Sign) (m : Nat) {k least : Nat} (le : least ≤ k) :
    s.apply (m * 2 ^ k : Nat) = s.apply (m <<< (k - least) : Nat) * 2 ^ least := by
  have whole : m * 2 ^ k = m <<< (k - least) * 2 ^ least := by
    rw [Nat.shiftLeft_eq, Nat.mul_assoc, ← Nat.pow_add, Nat.sub_add_cancel le]
  rw [whole]
  cases s with
  | negative => exact (congrArg _ (Int.natCast_mul _ _)).trans (Int.neg_mul _ _).symm
  | positive => exact Int.natCast_mul _ _

theorem add_finite (s t : Sign) {m m' : Nat} (k k' : Nat) (above : 0 < m) (above' : 0 < m') :
    add Format.binary32 (.finite s m (k - 149) above) (.finite t m' (k' - 149) above') =
      UnpackedFloat.normalize Format.binary32
        (s.apply (m <<< (k - min k k') : Nat) + t.apply (m' <<< (k' - min k k') : Nat))
        ((min k k' : Nat) - 149) .positive := by
  have least : min ((k : Int) - 149) (k' - 149) = (min k k' : Nat) - 149 := by omega
  have amount : ((k : Int) - 149 - ((min k k' : Nat) - 149)).toNat = k - min k k' := by omega
  have amount' : ((k' : Int) - 149 - ((min k k' : Nat) - 149)).toNat = k' - min k k' := by omega
  unfold add decreaseExponent
  dsimp only
  rw [least, amount, amount']

/-- The sum of finite numbers is the number nearest to the sum of their values. -/
theorem foundAt_add {u v : UnpackedFloat} (first : Kept u) (second : Kept v) (finite : u.isFinite = true)
    (finite' : v.isFinite = true) : FoundAt (nearestRank (value u + value v)) (add Format.binary32 u v) := by
  cases first with
  | infinity => cases finite
  | zero s =>
    cases second with
    | infinity => cases finite'
    | zero t => cases s <;> cases t <;> exact foundAt_value (.zero _) rfl
    | finite t above fits bounded =>
      rw [value_zero, Int.zero_add]
      exact foundAt_value (.finite t above fits bounded) rfl
  | @finite s m k above fits bounded =>
    cases second with
    | infinity => cases finite'
    | zero t =>
      rw [value_zero, Int.add_zero]
      exact foundAt_value (.finite s above fits bounded) rfl
    | @finite t m' k' above' fits' bounded' =>
      rw [value_finite, value_finite, apply_shiftLeft s m (Nat.min_le_left k k'),
        apply_shiftLeft t m' (Nat.min_le_right k k'), ← Int.add_mul, add_finite]
      exact foundAt_normalize _ _

theorem infinity_placed (s : Sign) : Placed s limit (.infinity s) := ⟨trivial, rfl, rfl⟩

/-- A sum with an infinite number is infinite where it is a number. -/
theorem rank_add_infinity {u v : UnpackedFloat} {s : Sign} (infinite : u = .infinity s ∨ v = .infinity s)
    (number : found (add Format.binary32 u v) ≠ .notANumber) :
    rank (found (add Format.binary32 u v)) = s.apply limit := by
  have sum : add Format.binary32 u v = .infinity s := by
    rcases infinite with rfl | rfl
    · cases v with
      | notANumber => exact absurd found_notANumber number
      | infinity t => cases s <;> cases t <;> first | rfl | exact absurd found_notANumber number
      | zero | finite => rfl
    · cases u with
      | notANumber => exact absurd found_notANumber number
      | infinity t => cases s <;> cases t <;> first | rfl | exact absurd found_notANumber number
      | zero | finite => rfl
  have whole : capped limit = limit := Nat.min_self limit
  rw [sum, (infinity_placed s).foundAt.rank, whole]

/-- A sum with a finite number is a number. -/
theorem found_add_number {u v : UnpackedFloat} (first : Kept u) (second : Kept v)
    (finite : u.isFinite = true ∨ v.isFinite = true) : found (add Format.binary32 u v) ≠ .notANumber := by
  rcases first.finite_or_infinite with finiteU | ⟨s, rfl⟩
  · rcases second.finite_or_infinite with finiteV | ⟨t, rfl⟩
    · exact (foundAt_add first second finiteU finiteV).number
    · have sum : add Format.binary32 u (.infinity t) = .infinity t := by
        cases first with
        | infinity => cases finiteU
        | zero | finite => rfl
      rw [sum]
      exact (infinity_placed t).foundAt.number
  · have sum : add Format.binary32 (.infinity s) v = .infinity s := by
      cases second with
      | infinity => rcases finite with finite | finite <;> cases finite
      | zero | finite => rfl
    rw [sum]
    exact (infinity_placed s).foundAt.number

variable {x x' y y' : Float32}

theorem numbers_of_add (number : Number (x + y)) : Number x ∧ Number y := by
  have sum : unpacked (x + y) = found (add Format.binary32 (unpacked x) (unpacked y)) := rfl
  constructor
  · intro undefined
    rw [Number, sum, undefined] at number
    exact number found_notANumber
  · intro undefined
    rw [Number, sum, undefined] at number
    cases atX : unpacked x <;> rw [atX] at number <;> exact number found_notANumber

theorem number_add (number : Number x) (number' : Number y)
    (finite : (unpacked x).isFinite = true ∨ (unpacked y).isFinite = true) : Number (x + y) :=
  found_add_number number.kept number'.kept finite

/-- Numbers from one to another that are not infinite at the outer ends are finite. -/
theorem finite_of_le (le : x ≤ x') (low : unpacked x ≠ .infinity .negative)
    (high : unpacked x' ≠ .infinity .positive) :
    (unpacked x).isFinite = true ∧ (unpacked x').isFinite = true := by
  obtain ⟨number, number'⟩ := numbers_of_le le
  have places := (le_iff_place number number').mp le
  have above := (rank_inside number.kept).1 low
  have below := (rank_inside number'.kept).2 high
  unfold place at places
  exact ⟨isFinite_of_rank number.kept above (by omega), isFinite_of_rank number'.kept (by omega) below⟩

/-- A sum of larger numbers is no smaller, where both sums are numbers. -/
theorem add_mono (le : x ≤ x') (le' : y ≤ y') (number : Number (x + y)) (number' : Number (x' + y')) :
    x + y ≤ x' + y' := by
  rw [le_iff_place number number']
  -- An infinite summand decides the sum. Other sums are rounded sums of values.
  by_cases lower : unpacked x = .infinity .negative ∨ unpacked y = .infinity .negative
  · have place : place (x + y) = -limit := rank_add_infinity lower number
    rw [place]
    exact (rank_bounds number'.kept).1
  by_cases upper : unpacked x' = .infinity .positive ∨ unpacked y' = .infinity .positive
  · have place : place (x' + y') = limit := rank_add_infinity upper number'
    rw [place]
    exact (rank_bounds number.kept).2
  rw [not_or] at lower upper
  obtain ⟨atX, atX'⟩ := numbers_of_le le
  obtain ⟨atY, atY'⟩ := numbers_of_le le'
  obtain ⟨finite, finite'⟩ := finite_of_le le lower.1 upper.1
  obtain ⟨finiteY, finiteY'⟩ := finite_of_le le' lower.2 upper.2
  have first := value_le_of_rank_le atX.kept atX'.kept finite finite' ((le_iff_place atX atX').mp le)
  have second := value_le_of_rank_le atY.kept atY'.kept finiteY finiteY' ((le_iff_place atY atY').mp le')
  calc place (x + y) = nearestRank (value (unpacked x) + value (unpacked y)) :=
        (foundAt_add atX.kept atY.kept finite finiteY).rank
    _ ≤ nearestRank (value (unpacked x') + value (unpacked y')) := nearestRank_mono (Int.add_le_add first second)
    _ = place (x' + y') := (foundAt_add atX'.kept atY'.kept finite' finiteY').rank.symm

end Unveil.Size
