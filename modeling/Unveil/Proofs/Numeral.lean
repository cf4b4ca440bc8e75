import Mathlib.Data.Nat.Digits.Defs
import Unveil.Numeral.Read

namespace Unveil.Numeral

/-- A text of digits, the first of which counts most, and the number that it writes. -/
structure Decimal (cs : List Char) (n : Nat) : Prop where
  ne_nil : cs ≠ []
  digits : ∀ c ∈ cs, c.isDigit
  value : Nat.ofDigits 10 (cs.reverse.map fun c => c.toNat - '0'.toNat) = n

/-- A number as it may be written: in decimal, with or without a plus sign. -/
inductive Unsigned : List Char → Nat → Prop
  | bare {cs : List Char} {n : Nat} : Decimal cs n → Unsigned cs n
  | plus {cs : List Char} {n : Nat} : Decimal cs n → Unsigned ('+' :: cs) n

theorem foldlM_digits {cs : List Char} {start n : Nat} :
    cs.foldlM (fun n c => if c.isDigit then some (10 * n + (c.toNat - 48)) else none) start = some n ↔
      (∀ c ∈ cs, c.isDigit) ∧
        10 ^ cs.length * start + Nat.ofDigits 10 (cs.reverse.map fun c => c.toNat - '0'.toNat) = n := by
  induction cs generalizing start with
  | nil => simp
  | cons c rest ih =>
    by_cases digit : c.isDigit
    · have zero : '0'.toNat = 48 := rfl
      simp only [List.foldlM_cons, digit, if_true, Option.bind_eq_bind, Option.bind_some, ih,
        List.forall_mem_cons, true_and, List.reverse_cons, List.map_append, List.map_cons, List.map_nil,
        Nat.ofDigits_append, Nat.ofDigits_singleton, List.length_map, List.length_reverse,
        List.length_cons, Nat.pow_succ, zero]
      have same : 10 ^ rest.length * (10 * start + (c.toNat - 48)) =
          10 ^ rest.length * 10 * start + 10 ^ rest.length * (c.toNat - 48) := by
        rw [Nat.mul_add, Nat.mul_assoc]
      rw [same, Nat.add_assoc, Nat.add_comm (10 ^ rest.length * (c.toNat - 48))]
    · simp [digit]

/-- A number is read from its decimal digits and from nothing else. -/
theorem natural?_eq_some_iff {cs : List Char} {n : Nat} : natural? cs = some n ↔ Decimal cs n := by
  cases cs with
  | nil => exact ⟨nofun, fun decimal => absurd rfl decimal.ne_nil⟩
  | cons c rest =>
    rw [natural?, foldlM_digits, Nat.mul_zero, Nat.zero_add]
    · exact ⟨fun ⟨digits, value⟩ => ⟨List.cons_ne_nil _ _, digits, value⟩,
        fun decimal => ⟨decimal.digits, decimal.value⟩⟩
    · exact List.cons_ne_nil _ _

theorem Decimal.head_ne {cs : List Char} {n : Nat} (decimal : Decimal cs n) {c : Char}
    (other : ¬c.isDigit) : cs.head? ≠ some c := by
  intro head
  exact other (decimal.digits c (List.mem_of_mem_head? head))

theorem filter_eq_some_iff {cs : List Char} {n bound : Nat} :
    (natural? cs).filter (· < bound) = some n ↔ Decimal cs n ∧ n < bound := by
  rw [Option.filter_eq_some_iff, natural?_eq_some_iff, decide_eq_true_eq]

theorem unsigned_plus {cs : List Char} {n : Nat} : Unsigned ('+' :: cs) n ↔ Decimal cs n := by
  refine ⟨fun written => ?_, .plus⟩
  cases written with
  | bare decimal => exact absurd rfl (decimal.head_ne (by decide))
  | plus decimal => exact decimal

theorem unsigned_bare {cs : List Char} {n : Nat} (bare : ∀ rest, cs ≠ '+' :: rest) :
    Unsigned cs n ↔ Decimal cs n := by
  refine ⟨fun written => ?_, .bare⟩
  cases written with
  | bare decimal => exact decimal
  | plus decimal => exact absurd rfl (bare _)

/-- A count is an unsigned number of at most 64 bits. -/
theorem count?_eq_some_iff {cs : List Char} {n : Nat} :
    count? cs = some n ↔ Unsigned cs n ∧ n < bound64 := by
  unfold count?
  rw [filter_eq_some_iff]
  split
  · rw [unsigned_plus]
  · rename_i bare
    rw [unsigned_bare bare]

theorem int32?_nonpos {cs : List Char} {v : Int} (read : int32? ('-' :: cs) = some v) : v ≤ 0 := by
  rw [int32?, Option.map_eq_some_iff] at read
  obtain ⟨w, found, rfl⟩ := read
  obtain ⟨n, _, cast⟩ := Option.bind_eq_some_iff.mp found
  cases Option.some.inj cast
  exact Int.neg_nonpos_of_nonneg (Int.natCast_nonneg n)

/-- What 32 bits and a sign hold. -/
def Fits32 (v : Int) : Prop := -(bound32 : Int) ≤ v ∧ v < bound32

instance (v : Int) : Decidable (Fits32 v) := inferInstanceAs (Decidable (_ ∧ _))

/-- The result of a step in 32 bits; `none` when it overflows. -/
def narrow? (v : Int) : Option Int := if Fits32 v then some v else none

theorem narrow?_eq_some {v : Int} (fits : Fits32 v) : narrow? v = some v := if_pos fits

/-- What is read has room in 32 bits. -/
theorem int32?_fits {cs : List Char} {v : Int} (read : int32? cs = some v) : Fits32 v := by
  have bare {digits : List Char}
      (read : ((natural? digits).filter (· < bound32)).map Int.ofNat = some v) : Fits32 v := by
    obtain ⟨n, found, rfl⟩ := Option.map_eq_some_iff.mp read
    have room := (filter_eq_some_iff.mp found).2
    simp only [Fits32, Int.ofNat_eq_natCast]
    omega
  unfold int32? at read
  split at read
  · obtain ⟨w, found, rfl⟩ := Option.map_eq_some_iff.mp read
    obtain ⟨n, small, cast⟩ := Option.bind_eq_some_iff.mp found
    cases Option.some.inj cast
    have room := (Option.filter_eq_some_iff.mp small).2
    have positive : 0 < bound32 := by decide
    simp only [decide_eq_true_eq] at room
    simp only [Fits32]
    omega
  · exact bare read
  · exact bare read

/-- Without a minus sign, a number of 32 bits is an unsigned number that has room in them. -/
theorem int32?_eq_some_iff {cs : List Char} {v : Int} (unsigned : cs.head? ≠ some '-') :
    int32? cs = some v ↔ ∃ n : Nat, Unsigned cs n ∧ n < bound32 ∧ v = n := by
  have read (digits : List Char) : ((natural? digits).filter (· < bound32)).map Int.ofNat = some v ↔
      ∃ n : Nat, Decimal digits n ∧ n < bound32 ∧ v = n := by
    simp only [Option.map_eq_some_iff, filter_eq_some_iff, and_assoc, Int.ofNat_eq_natCast,
      eq_comm (b := v)]
  unfold int32?
  split
  · exact absurd rfl unsigned
  · simp only [read, unsigned_plus]
  · rename_i bare
    simp only [read, unsigned_bare bare]

end Unveil.Numeral
