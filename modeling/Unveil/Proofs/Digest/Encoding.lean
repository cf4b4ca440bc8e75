import Mathlib.Data.List.Basic
import Unveil.Digest.Bytes
import Unveil.Numeral.Read
import Unveil.Proofs.Slot.Size

namespace Unveil.Digest

/-- Of the values with a property, the encoding tells which one it is of and where it ends: whatever stands behind
it, both the value and the rest can be told from the bytes. -/
def Delimited {α : Type} (Fits : α → Prop) (f : α → List UInt8) : Prop :=
  ∀ a b, Fits a → Fits b → ∀ rest other, f a ++ rest = f b ++ other → a = b ∧ rest = other

/-- The numbers that some bytes have room for lie below this one. -/
def room : Nat → Nat
  | 0 => 1
  | count + 1 => 256 * room count

theorem littleEndian_inj {count m n : Nat} (first : m < room count) (second : n < room count) {rest other : List UInt8}
    (same : littleEndian count m ++ rest = littleEndian count n ++ other) : m = n ∧ rest = other := by
  induction count generalizing m n with
  | zero =>
    simp only [room] at first second
    exact ⟨by omega, same⟩
  | succ count ih =>
    simp only [room] at first second
    obtain ⟨low, high⟩ := List.cons.inj same
    obtain ⟨quotient, behind⟩ := ih (by omega) (by omega) high
    have remainder : m % 256 = n % 256 := by simpa using congrArg UInt8.toNat low
    exact ⟨by omega, behind⟩

theorem ofNat_delimited : Delimited (· < Numeral.bound64) ofNat :=
  fun _ _ first second _ _ same => littleEndian_inj first second same

theorem ofBool_delimited : Delimited (fun _ => True) ofBool := by
  intro a b _ _ rest other same
  obtain ⟨mark, behind⟩ := List.cons.inj same
  refine ⟨?_, behind⟩
  cases a <;> cases b <;> first | rfl | exact absurd mark (by decide)

theorem ofFloat32_delimited : Delimited (fun _ => True) ofFloat32 := by
  intro x y _ _ rest other same
  obtain ⟨bits, behind⟩ := littleEndian_inj x.toBits.toNat_lt y.toBits.toNat_lt same
  exact ⟨Size.eq_of_bits (congrArg UInt32.toBitVec (UInt32.toNat_inj.mp bits)), behind⟩

theorem toList_loop (bytes : ByteArray) (i : Nat) (before : List UInt8) :
    ByteArray.toList.loop bytes i before = before.reverse ++ bytes.data.toList.drop i := by
  induction i, before using ByteArray.toList.loop.induct bytes with
  | case1 i before inside ih =>
    have inData : i < bytes.data.toList.length := inside
    have here : bytes.get! i = bytes.data.toList[i] := getElem!_pos bytes.data i inside
    rw [ByteArray.toList.loop, if_pos inside, ih, List.drop_eq_getElem_cons inData, here, List.reverse_cons,
      List.append_assoc, List.singleton_append]
  | case2 i before outside =>
    have past : bytes.data.toList.length ≤ i := Nat.le_of_not_lt outside
    rw [ByteArray.toList.loop, if_neg outside, List.drop_eq_nil_of_le past, List.append_nil]

theorem toList_eq (bytes : ByteArray) : bytes.toList = bytes.data.toList := by
  rw [ByteArray.toList, toList_loop]
  rfl

theorem ofString_delimited : Delimited (fun s => s.utf8ByteSize < Numeral.bound64) ofString := by
  intro s t first second rest other same
  simp only [ofString, List.append_assoc] at same
  obtain ⟨size, same⟩ := ofNat_delimited _ _ first second _ _ same
  rw [toList_eq, toList_eq] at same
  obtain ⟨bytes, behind⟩ := List.append_inj same size
  exact ⟨String.toByteArray_inj.mp (ByteArray.ext (Array.toList_inj.mp bytes)), behind⟩

section

variable {α β : Type} {Fits : α → Prop} {f : α → List UInt8}

theorem ofOption_delimited (delimited : Delimited Fits f) :
    Delimited (fun value => ∀ a ∈ value, Fits a) (ofOption f) := by
  intro x y first second rest other same
  cases x with
  | none =>
    cases y with
    | none => exact ⟨rfl, (List.cons.inj same).2⟩
    | some b => exact absurd (List.cons.inj same).1 (by decide)
  | some a =>
    cases y with
    | none => exact absurd (List.cons.inj same).1 (by decide)
    | some b =>
      obtain ⟨value, behind⟩ := delimited a b (first a rfl) (second b rfl) rest other (List.cons.inj same).2
      exact ⟨congrArg some value, behind⟩

/-- Values of which only the number is known. -/
theorem flatMap_delimited (delimited : Delimited Fits f) {xs ys : List α} (first : ∀ x ∈ xs, Fits x)
    (second : ∀ y ∈ ys, Fits y) (count : xs.length = ys.length) {rest other : List UInt8}
    (same : xs.flatMap f ++ rest = ys.flatMap f ++ other) : xs = ys ∧ rest = other := by
  induction xs generalizing ys with
  | nil =>
    obtain rfl := List.eq_nil_of_length_eq_zero count.symm
    exact ⟨rfl, same⟩
  | cons x xs ih =>
    obtain ⟨y, ys, rfl⟩ := List.exists_cons_of_length_eq_add_one count.symm
    rw [List.flatMap_cons, List.flatMap_cons, List.append_assoc, List.append_assoc] at same
    obtain ⟨firstHere, firstLater⟩ := List.forall_mem_cons.mp first
    obtain ⟨secondHere, secondLater⟩ := List.forall_mem_cons.mp second
    obtain ⟨rfl, later⟩ := delimited x y firstHere secondHere _ _ same
    obtain ⟨rfl, behind⟩ := ih firstLater secondLater (Nat.succ.inj count) later
    exact ⟨rfl, behind⟩

/-- A list tells its length, and then its members can be told one after the other. -/
theorem ofList_delimited (delimited : Delimited Fits f) :
    Delimited (fun xs => xs.length < Numeral.bound64 ∧ ∀ x ∈ xs, Fits x) (ofList f) := by
  intro xs ys first second rest other same
  simp only [ofList, List.append_assoc] at same
  obtain ⟨count, same⟩ := ofNat_delimited _ _ first.1 second.1 _ _ same
  exact flatMap_delimited delimited first.2 second.2 count same

/-- A value that is told by a code of its own. -/
theorem Delimited.ofCode (delimited : Delimited Fits f) {code : β → α} (fits : ∀ b, Fits (code b))
    (codes : ∀ a b, code a = code b → a = b) : Delimited (fun _ => True) fun b => f (code b) := by
  intro a b _ _ rest other same
  obtain ⟨value, behind⟩ := delimited _ _ (fits a) (fits b) rest other same
  exact ⟨codes a b value, behind⟩

end

end Unveil.Digest
