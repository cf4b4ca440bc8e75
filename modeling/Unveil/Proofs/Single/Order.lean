import Unveil.Proofs.Single.Nearest

namespace Unveil.Size

open Float.Model (Format UnpackedFloat)
open Float.Model.UnpackedFloat

/-- The place of infinity among the sizes from zero on. -/
def limit : Nat := 255 <<< 23

/-- Past the largest size a number counts as infinite. -/
def capped (n : Nat) : Nat := min limit n

theorem capped_mono {n n' : Nat} (le : n ≤ n') : capped n ≤ capped n' := by
  unfold capped
  omega

/-- The place of a number among all numbers, with zero in the middle. -/
def rank (u : UnpackedFloat) : Int := (signOf u).elim 0 fun s => s.apply (magnitude u)

/-- The form in which a number is found in its bits. -/
inductive Kept : UnpackedFloat → Prop
  | infinity (s : Sign) : Kept (.infinity s)
  | zero (s : Sign) : Kept (.zero s)
  | finite (s : Sign) {m k : Nat} (above : 0 < m) (fits : Fits m k) (bounded : k < 254) :
      Kept (.finite s m (k - 149) above)

theorem unpack_kept {b : BitVec 32} (number : unpack Format.binary32 b ≠ .notANumber) :
    Kept (unpack Format.binary32 b) := by
  have short : (@unpackMantissa Format.binary32 b).toNat < 2 ^ 23 := (@unpackMantissa Format.binary32 b).isLt
  rcases unpack_cases number with ⟨_, _, eq⟩ | ⟨_, _, eq⟩ | ⟨lowest, above, eq⟩ | ⟨least, most, above, eq⟩
  · rw [eq]
    exact .infinity _
  · rw [eq]
    exact .zero _
  · rw [eq, lowest]
    exact .finite (k := 0) _ above ⟨by omega, .inr rfl⟩ (by decide)
  · obtain ⟨k, exponent⟩ : ∃ k, (@unpackExponent Format.binary32 b).toNat = k + 1 :=
      Nat.exists_eq_succ_of_ne_zero fun zero => least (BitVec.eq_of_toNat_eq zero)
    have below : k ≠ 254 := by
      rintro rfl
      exact most (BitVec.eq_of_toNat_eq exponent)
    have range : k + 1 < 2 ^ 8 := exponent ▸ (@unpackExponent Format.binary32 b).isLt
    have same : ((k + 1 : Nat) : Int) - 150 = k - 149 := by omega
    have whole := toNat_leadingOne (@unpackMantissa Format.binary32 b)
    rw [eq, exponent, same]
    exact .finite _ above ⟨by omega, .inl (by omega)⟩ (by omega)

theorem Kept.finite_or_infinite {u : UnpackedFloat} (kept : Kept u) :
    u.isFinite = true ∨ ∃ s, u = .infinity s := by
  cases kept with
  | infinity s => exact .inr ⟨s, rfl⟩
  | zero | finite => exact .inl rfl

theorem rank_infinity (s : Sign) : rank (.infinity s) = s.apply limit := rfl

theorem rank_zero (s : Sign) : rank (.zero s) = 0 := by cases s <;> rfl

theorem rank_finite (s : Sign) {m : Nat} (k : Nat) (above : 0 < m) :
    rank (.finite s m (k - 149) above) = s.apply (k <<< 23 + m : Nat) := by
  rw [← magnitude_finite s k above]
  rfl

/-- A finite number other than zero stands between zero and infinity. -/
theorem rank_between (s : Sign) {m k : Nat} (above : 0 < m) (fits : Fits m k) (bounded : k < 254) :
    ∃ p : Nat, k <<< 23 + m = p ∧ rank (.finite s m (k - 149) above) = s.apply p ∧ 0 < p ∧ p < limit := by
  refine ⟨k <<< 23 + m, rfl, rank_finite s k above, ?_, ?_⟩
  · omega
  · have short := fits.short
    unfold limit
    omega

theorem rank_bounds {u : UnpackedFloat} (kept : Kept u) : -limit ≤ rank u ∧ rank u ≤ limit := by
  cases kept with
  | infinity s | zero s => cases s <;> decide
  | finite s above fits bounded =>
    obtain ⟨p, _, place, low, high⟩ := rank_between s above fits bounded
    rw [place]
    cases s <;> simp only [Sign.apply] <;> omega

/-- Only an infinite number stands at an end. -/
theorem rank_inside {u : UnpackedFloat} (kept : Kept u) :
    (u ≠ .infinity .negative → -limit < rank u) ∧ (u ≠ .infinity .positive → rank u < limit) := by
  cases kept with
  | infinity s =>
    cases s with
    | negative => exact ⟨absurd rfl, fun _ => by decide⟩
    | positive => exact ⟨fun _ => by decide, absurd rfl⟩
  | zero s => cases s <;> exact ⟨fun _ => by decide, fun _ => by decide⟩
  | finite s above fits bounded =>
    obtain ⟨p, _, place, low, high⟩ := rank_between s above fits bounded
    have inside : -limit < s.apply p ∧ s.apply p < limit := by
      cases s <;> simp only [Sign.apply] <;> omega
    rw [place]
    exact ⟨fun _ => inside.1, fun _ => inside.2⟩

theorem isFinite_of_rank {u : UnpackedFloat} (kept : Kept u) (low : -limit < rank u) (high : rank u < limit) :
    u.isFinite = true := by
  rcases kept.finite_or_infinite with finite | ⟨s, rfl⟩
  · exact finite
  · rw [rank_infinity] at low high
    cases s <;> simp only [Sign.apply] at low high <;> omega

/-- The exponents decide first, since above the smallest exponent a mantissa has all its bits. -/
theorem compare_place {m m' k k' : Nat} (first : Fits m k) (second : Fits m' k') :
    (compare ((k : Int) - 149) (k' - 149)).then (compare m m') = compare (k <<< 23 + m) (k' <<< 23 + m') := by
  obtain ⟨short, full⟩ := first
  obtain ⟨short', full'⟩ := second
  rcases Nat.lt_trichotomy k k' with less | rfl | more
  · rw [Int.compare_eq_lt.mpr (by omega : (k : Int) - 149 < k' - 149)]
    exact (Nat.compare_eq_lt.mpr (by omega)).symm
  · rw [Int.compare_eq_eq.mpr rfl]
    rcases Nat.lt_trichotomy m m' with less | rfl | more
    · exact (Nat.compare_eq_lt.mpr less).trans (Nat.compare_eq_lt.mpr (by omega)).symm
    · exact (Nat.compare_eq_eq.mpr rfl).trans (Nat.compare_eq_eq.mpr rfl).symm
    · exact (Nat.compare_eq_gt.mpr more).trans (Nat.compare_eq_gt.mpr (by omega)).symm
  · rw [Int.compare_eq_gt.mpr (by omega : (k' : Int) - 149 < k - 149)]
    exact (Nat.compare_eq_gt.mpr (by omega)).symm

/-- The order of numbers is the order of their places. -/
theorem le_iff_rank {u v : UnpackedFloat} (first : Kept u) (second : Kept v) :
    u.le v = true ↔ rank u ≤ rank v := by
  cases first with
  | infinity s =>
    cases second with
    | infinity t | zero t => cases s <;> cases t <;> decide
    | finite t above fits bounded =>
      obtain ⟨p, _, place, low, high⟩ := rank_between t above fits bounded
      rw [rank_infinity, place]
      cases s with
      | negative => exact iff_of_true (by cases t <;> rfl) (by cases t <;> simp only [Sign.apply] <;> omega)
      | positive =>
        exact iff_of_false (by cases t <;> exact Bool.false_ne_true)
          (by cases t <;> simp only [Sign.apply] <;> omega)
  | zero s =>
    cases second with
    | infinity t | zero t => cases s <;> cases t <;> decide
    | finite t above fits bounded =>
      obtain ⟨p, _, place, low, high⟩ := rank_between t above fits bounded
      rw [rank_zero, place]
      cases t with
      | negative => exact iff_of_false Bool.false_ne_true (by simp only [Sign.apply]; omega)
      | positive => exact iff_of_true rfl (by simp only [Sign.apply]; omega)
  | finite s above fits bounded =>
    obtain ⟨p, first, place, low, high⟩ := rank_between s above fits bounded
    rw [place]
    cases second with
    | infinity t =>
      rw [rank_infinity]
      cases t with
      | negative =>
        exact iff_of_false (by cases s <;> exact Bool.false_ne_true)
          (by cases s <;> simp only [Sign.apply] <;> omega)
      | positive => exact iff_of_true (by cases s <;> rfl) (by cases s <;> simp only [Sign.apply] <;> omega)
    | zero t =>
      rw [rank_zero]
      cases s with
      | negative => exact iff_of_true rfl (by simp only [Sign.apply]; omega)
      | positive => exact iff_of_false Bool.false_ne_true (by simp only [Sign.apply]; omega)
    | finite t above' fits' bounded' =>
      obtain ⟨q, second, place', low', high'⟩ := rank_between t above' fits' bounded'
      have places := compare_place fits fits'
      rw [first, second] at places
      rw [place']
      cases s with
      | negative =>
        cases t with
        | negative =>
          refine (iff_of_eq (congrArg (fun o : Ordering => o.swap.isLE = true) places)).trans ?_
          rw [Ordering.isLE_swap, Nat.isGE_compare]
          simp only [Sign.apply]
          omega
        | positive => exact iff_of_true rfl (by simp only [Sign.apply]; omega)
      | positive =>
        cases t with
        | negative => exact iff_of_false Bool.false_ne_true (by simp only [Sign.apply]; omega)
        | positive =>
          refine (iff_of_eq (congrArg (fun o : Ordering => o.isLE = true) places)).trans ?_
          rw [Nat.isLE_compare]
          simp only [Sign.apply]
          omega

/-- A number that is not the undefined one. -/
def Number (x : Float32) : Prop := unpacked x ≠ .notANumber

theorem Number.kept {x : Float32} (number : Number x) : Kept (unpacked x) := unpack_kept number

/-- The place of a number among all numbers. -/
def place (x : Float32) : Int := rank (unpacked x)

theorem le_iff_unpacked {x y : Float32} : x ≤ y ↔ (unpacked x).le (unpacked y) = true :=
  ⟨fun le => of_decide_eq_true le, fun le => decide_eq_true le⟩

theorem numbers_of_le {x y : Float32} (le : x ≤ y) : Number x ∧ Number y := by
  have compared : (unpacked x).le (unpacked y) = true := le_iff_unpacked.mp le
  constructor
  · intro undefined
    rw [undefined] at compared
    cases compared
  · intro undefined
    rw [undefined] at compared
    cases atX : unpacked x <;> rw [atX] at compared <;> cases compared

theorem le_iff_place {x y : Float32} (number : Number x) (number' : Number y) : x ≤ y ↔ place x ≤ place y :=
  le_iff_unpacked.trans (le_iff_rank number.kept number'.kept)

theorem le_self {x : Float32} (number : Number x) : x ≤ x := (le_iff_place number number).mpr (Int.le_refl _)

theorem trans_le {x y z : Float32} (le : x ≤ y) (le' : y ≤ z) : x ≤ z := by
  obtain ⟨number, middle⟩ := numbers_of_le le
  obtain ⟨_, number'⟩ := numbers_of_le le'
  rw [le_iff_place number number']
  exact Int.le_trans ((le_iff_place number middle).mp le) ((le_iff_place middle number').mp le')

instance instTransLe : @Trans Float32 Float32 Float32 LE.le LE.le LE.le := ⟨trans_le⟩

end Unveil.Size
