import Unveil.Face

namespace Unveil.Size

open Float.Model (Format UnpackedFloat)
open Float.Model.UnpackedFloat

def bits (x : Float32) : BitVec 32 := x.toModel.toBits.toBitVec

def unpacked (x : Float32) : UnpackedFloat := unpack Format.binary32 (bits x)

theorem eq_of_bits {x y : Float32} (same : bits x = bits y) : x = y := by
  obtain ⟨⟨⟨b⟩, _⟩⟩ := x
  obtain ⟨⟨⟨c⟩, _⟩⟩ := y
  have eq : b = c := same
  subst eq
  rfl

theorem unpackSign_eq (b : BitVec 32) : @unpackSign Format.binary32 b = b.extractLsb' 31 1 := rfl

theorem unpackExponent_eq (b : BitVec 32) : @unpackExponent Format.binary32 b = b.extractLsb' 23 8 := rfl

theorem unpackMantissa_eq (b : BitVec 32) : @unpackMantissa Format.binary32 b = b.extractLsb' 0 23 := rfl

theorem bits_eq_of_parts {b c : BitVec 32}
    (signs : @unpackSign Format.binary32 b = @unpackSign Format.binary32 c)
    (exponents : @unpackExponent Format.binary32 b = @unpackExponent Format.binary32 c)
    (mantissas : @unpackMantissa Format.binary32 b = @unpackMantissa Format.binary32 c) : b = c := by
  rw [unpackSign_eq, unpackSign_eq] at signs
  rw [unpackExponent_eq, unpackExponent_eq] at exponents
  rw [unpackMantissa_eq, unpackMantissa_eq] at mantissas
  have s := congrArg BitVec.toNat signs
  have e := congrArg BitVec.toNat exponents
  have m := congrArg BitVec.toNat mantissas
  have hb := b.isLt
  have hc := c.isLt
  simp only [BitVec.extractLsb'_toNat, Nat.shiftRight_eq_div_pow] at s e m
  apply BitVec.eq_of_toNat_eq
  omega

/-- The sign of a number that is one. -/
def signOf : UnpackedFloat → Option Sign
  | .notANumber => none
  | .infinity s | .zero s | .finite s _ _ _ => some s

/-- Numbers of one sign that compare as equal are the same. -/
theorem eq_of_compare {u v : UnpackedFloat} (same : u.compare v = some .eq)
    (signs : signOf u = signOf v) : u = v := by
  have both {e e' : Int} {m m' : Nat} (eq : (compare e e').then (compare m m') = .eq) :
      e = e' ∧ m = m' := by
    rw [Ordering.then_eq_eq] at eq
    exact ⟨Int.compare_eq_eq.mp eq.1, Nat.compare_eq_eq.mp eq.2⟩
  cases u with
  | notANumber => cases same
  | infinity s =>
    cases v with
    | infinity s' =>
      cases signs
      rfl
    | notANumber => cases s <;> cases same
    | zero | finite => cases s <;> cases same
  | zero s =>
    cases v with
    | zero s' =>
      cases signs
      rfl
    | notANumber => cases same
    | infinity s' | finite s' => cases s' <;> cases same
  | finite s m e =>
    cases v with
    | finite s' m' e' =>
      cases signs
      cases s with
      | positive =>
        obtain ⟨rfl, rfl⟩ := both (Option.some.inj same)
        rfl
      | negative =>
        have eq := Option.some.inj same
        rw [Ordering.swap_eq_eq] at eq
        obtain ⟨rfl, rfl⟩ := both eq
        rfl
    | notANumber => cases s <;> cases same
    | infinity s' => cases s' <;> cases s <;> cases same
    | zero s' => cases s <;> cases same

theorem ofBitVec_inj {s t : BitVec 1} (same : Sign.ofBitVec s = Sign.ofBitVec t) : s = t := by
  have code : ∀ s : BitVec 1, (Sign.ofBitVec s).toBitVec = s := by decide
  rw [← code s, ← code t, same]

theorem toNat_leadingOne (mantissa : BitVec 23) : (1#1 ++ mantissa).toNat = 1 <<< 23 + mantissa.toNat := by
  rw [BitVec.toNat_append, ← Nat.shiftLeft_add_eq_or_of_lt mantissa.isLt]
  rfl

/-- What the bits of a number stand for. -/
theorem unpack_cases {b : BitVec 32} (number : unpack Format.binary32 b ≠ .notANumber) :
    let sign := Sign.ofBitVec (@unpackSign Format.binary32 b)
    let exponent := @unpackExponent Format.binary32 b
    let mantissa := @unpackMantissa Format.binary32 b
    (exponent = -1#8 ∧ mantissa = 0#23 ∧ unpack Format.binary32 b = .infinity sign) ∨
    (exponent = 0#8 ∧ mantissa = 0#23 ∧ unpack Format.binary32 b = .zero sign) ∨
    (exponent = 0#8 ∧ ∃ positive,
      unpack Format.binary32 b = .finite sign mantissa.toNat (exponent.toNat - 150 + 1) positive) ∨
    (exponent ≠ 0#8 ∧ exponent ≠ -1#8 ∧ ∃ positive,
      unpack Format.binary32 b =
        .finite sign (1#1 ++ mantissa).toNat (exponent.toNat - 150) positive) := by
  intro sign exponent mantissa
  unfold unpack at number ⊢
  dsimp only at number ⊢
  by_cases highest : exponent = -1#8
  · rw [if_pos highest] at number ⊢
    by_cases whole : mantissa = 0#23
    · rw [if_pos whole]
      exact .inl ⟨highest, whole, rfl⟩
    · rw [if_neg whole] at number
      exact absurd rfl number
  · rw [if_neg highest]
    by_cases lowest : exponent = 0#8
    · rw [if_pos lowest]
      by_cases whole : mantissa = 0#23
      · rw [dif_pos whole]
        exact .inr (.inl ⟨lowest, whole, rfl⟩)
      · rw [dif_neg whole]
        have positive : 0 < mantissa.toNat :=
          Nat.pos_of_ne_zero fun zero => whole (BitVec.eq_of_toNat_eq zero)
        exact .inr (.inr (.inl ⟨lowest, positive, rfl⟩))
    · rw [if_neg lowest]
      have positive : 0 < (1#1 ++ mantissa).toNat := by
        rw [toNat_leadingOne]
        omega
      exact .inr (.inr (.inr ⟨lowest, highest, positive, rfl⟩))

/-- The sign of a number can be told from its first bit. -/
theorem signOf_unpack {b : BitVec 32} (number : unpack Format.binary32 b ≠ .notANumber) :
    signOf (unpack Format.binary32 b) = some (.ofBitVec (@unpackSign Format.binary32 b)) := by
  rcases unpack_cases number with ⟨_, _, eq⟩ | ⟨_, _, eq⟩ | ⟨_, _, eq⟩ | ⟨_, _, _, eq⟩ <;> rw [eq] <;> rfl

/-- The other bits of a number, read as one. -/
def magnitude : UnpackedFloat → Nat
  | .notANumber | .zero _ => 0
  | .infinity _ => 255 <<< 23
  | .finite _ m e _ => (e + 149).toNat <<< 23 + m

theorem magnitude_unpack {b : BitVec 32} (number : unpack Format.binary32 b ≠ .notANumber) :
    magnitude (unpack Format.binary32 b) =
      (@unpackExponent Format.binary32 b).toNat <<< 23 +
        (@unpackMantissa Format.binary32 b).toNat := by
  rcases unpack_cases number with
    ⟨exponent, mantissa, eq⟩ | ⟨exponent, mantissa, eq⟩ | ⟨exponent, _, eq⟩ | ⟨above, _, _, eq⟩
  · rw [eq, exponent, mantissa]
    rfl
  · rw [eq, exponent, mantissa]
    rfl
  · rw [eq, exponent]
    rfl
  · have positive : 0 < (@unpackExponent Format.binary32 b).toNat :=
      Nat.pos_of_ne_zero fun zero => above (BitVec.eq_of_toNat_eq zero)
    rw [eq]
    show ((@unpackExponent Format.binary32 b).toNat - 150 + 149 : Int).toNat <<< 23 +
      (1#1 ++ @unpackMantissa Format.binary32 b).toNat = _
    rw [toNat_leadingOne]
    omega

/-- The bits of a number can be told from its value. -/
theorem bits_eq_of_unpack {b c : BitVec 32}
    (same : unpack Format.binary32 b = unpack Format.binary32 c)
    (number : unpack Format.binary32 b ≠ .notANumber) : b = c := by
  have signs := signOf_unpack number
  have parts := magnitude_unpack number
  rw [same] at number signs parts
  rw [signOf_unpack number] at signs
  rw [magnitude_unpack number] at parts
  have hb := (@unpackMantissa Format.binary32 b).isLt
  have hc := (@unpackMantissa Format.binary32 c).isLt
  simp only [Format.binary32] at hb hc
  refine bits_eq_of_parts ?_ (BitVec.eq_of_toNat_eq (by omega)) (BitVec.eq_of_toNat_eq (by omega))
  exact ofBitVec_inj (Option.some.inj signs).symm

theorem unpackSign_packComponents (s : Sign) (e : BitVec 8) (m : BitVec 23) :
    @unpackSign Format.binary32 (packComponents Format.binary32 s e m) = s.toBitVec := by
  rw [unpackSign_eq, packComponents]
  rw [BitVec.extractLsb'_append_eq_of_le (by decide), BitVec.extractLsb'_append_eq_of_le (by decide)]
  cases s <;> rfl

theorem sign_pack {u : UnpackedFloat} {s : Sign} (signed : signOf u = some s) :
    @unpackSign Format.binary32 (pack Format.binary32 u) = s.toBitVec := by
  cases u with
  | notANumber => cases signed
  | infinity | zero =>
    cases signed
    exact unpackSign_packComponents s _ _
  | finite =>
    cases signed
    unfold pack
    simp only
    split
    · exact unpackSign_packComponents s _ _
    · split <;> exact unpackSign_packComponents s _ _

theorem signOf_round (s : Sign) (m : Nat) (e : Int) :
    signOf (roundWithAccuracy Format.binary32 s m e .exact) = some s := by
  unfold roundWithAccuracy
  rcases shiftToTargetExponent Format.binary32 m e .exact with ⟨first, e₁⟩
  dsimp only
  rcases shiftToTargetExponent Format.binary32 first.roundedMantissa e₁ .exact with ⟨last, e₂⟩
  dsimp only
  by_cases vanishes : last.mantissa = 0
  · rw [dif_pos vanishes]
    rfl
  · rw [dif_neg vanishes]
    rfl

/-- A product that is a number has the sign of its first factor when the second is positive. -/
theorem signOf_mul {u v : UnpackedFloat} {s : Sign} (positive : signOf v = some .positive)
    (product : signOf (mul Format.binary32 u v) = some s) : signOf u = some s := by
  have unit (s : Sign) : s * .positive = s := by cases s <;> rfl
  cases v with
  | notANumber => cases positive
  | infinity =>
    cases positive
    cases u with
    | notANumber | zero => cases product
    | infinity t | finite t => exact (congrArg some (unit t)).symm.trans product
  | zero =>
    cases positive
    cases u with
    | notANumber | infinity => cases product
    | zero t | finite t => exact (congrArg some (unit t)).symm.trans product
  | finite s' m' e' =>
    cases positive
    cases u with
    | notANumber => cases product
    | infinity t | zero t => exact (congrArg some (unit t)).symm.trans product
    | finite t m e =>
      have rounded := signOf_round (t * .positive) (m * m') (e + e')
      exact (congrArg some (unit t)).symm.trans (rounded.symm.trans product)

/-- The sign of a size. -/
def sign (x : Float32) : Option Sign := signOf (unpacked x)

/-- A size keeps its sign when it is multiplied by a factor above zero. -/
theorem sign_mul {x factor : Float32} (positive : sign factor = some .positive) {s : Sign}
    (product : sign (x * factor) = some s) : sign x = some s := by
  have packed : unpacked (x * factor) =
      unpack Format.binary32 (pack Format.binary32
        (mul Format.binary32 (unpacked x) (unpacked factor))) := rfl
  have number : unpacked (x * factor) ≠ .notANumber := by
    intro undefined
    rw [sign, undefined] at product
    cases product
  rw [sign, packed, signOf_unpack (packed ▸ number)] at product
  cases signed : signOf (mul Format.binary32 (unpacked x) (unpacked factor)) with
  | none =>
    cases undefined : mul Format.binary32 (unpacked x) (unpacked factor) with
    | notANumber =>
      rw [undefined] at packed
      exact absurd packed number
    | infinity | zero | finite =>
      rw [undefined] at signed
      cases signed
  | some t =>
    rw [sign_pack signed] at product
    have same : t = s := by
      cases t <;> exact Option.some.inj product
    exact signOf_mul positive (same ▸ signed)

theorem factor_positive (s : FontSize) : sign s.factor = some .positive := by
  cases s <;> rfl

/-- A size of a sign, if it is a number. -/
def Sized (s : Sign) (x : Float32) : Prop := ∀ t, sign x = some t → t = s

theorem Sized.self (x : Float32) : ∃ s, Sized s x := by
  cases signed : sign x with
  | none => exact ⟨.positive, fun t undefined => by rw [undefined] at signed; cases signed⟩
  | some s => exact ⟨s, fun t eq => Option.some.inj (eq.symm.trans signed)⟩

theorem Sized.mul {s : Sign} {x factor : Float32} (sized : Sized s x)
    (positive : sign factor = some .positive) : Sized s (x * factor) :=
  fun t product => sized t (sign_mul positive product)

/-- Sizes of one sign that are equal as numbers are the same. Zero has two signs, but within one body all sizes
come from one base size by factors above zero and share its sign, so that text is only joined to text of the very
same face. -/
theorem Sized.eq {s : Sign} {x y : Float32} (left : Sized s x) (right : Sized s y)
    (same : (x == y) = true) : x = y := by
  have compared : (unpacked x).compare (unpacked y) = some .eq := LawfulBEq.eq_of_beq same
  have numbers : unpacked x ≠ .notANumber ∧ unpacked y ≠ .notANumber := by
    constructor
    · intro undefined
      rw [undefined] at compared
      cases compared
    · intro undefined
      cases atX : unpacked x <;> rw [undefined, atX] at compared <;> cases compared
  have signs : signOf (unpacked x) = signOf (unpacked y) := by
    have first := signOf_unpack numbers.1
    have second := signOf_unpack numbers.2
    exact first.trans ((congrArg some ((left _ first).trans (right _ second).symm)).trans second.symm)
  exact eq_of_bits (bits_eq_of_unpack (eq_of_compare compared signs) numbers.1)

end Unveil.Size
