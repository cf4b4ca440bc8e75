import Mathlib.Order.Bounds.Basic
import Unveil.Proofs.Overlay.Item

namespace Unveil

namespace OverlayItem

namespace Form

/-- The passes that an item covers. -/
def Covers : Form → Nat → Prop
  | alone n, pass => pass = n
  | upTo n, pass => pass = n
  | onward n, pass => n ≤ pass
  | range a b, pass => if b < a then a < pass else a ≤ pass ∧ pass ≤ b

/-- The numbers that an item mentions. -/
def numbers : Form → List Nat
  | alone n => [n]
  | upTo n => [n]
  | onward n => [n]
  | range a b => [a, b]

end Form

theorem mem_members_span {a b : Nat} {v : Int} :
    v ∈ (span a b).members ↔ (a : Int) ≤ v ∧ v ≤ b := by
  simp only [members, List.mem_map, List.mem_range]
  constructor
  · rintro ⟨i, room, rfl⟩
    omega
  · rintro ⟨low, high⟩
    exact ⟨(v - a).toNat, by omega, by omega⟩

variable {cs : List Char} {form : Form}

/-- A member is a pass of its own, or the marker of an open end before the pass. -/
theorem Written.covers_iff (written : Written cs form) (pass : Nat) :
    form.Covers pass ↔
      (pass : Int) ∈ form.item.members ∨ ∃ v ∈ form.item.members, v < 0 ∧ -v < pass := by
  cases written with
  | alone | upTo =>
    simp only [Form.Covers, Form.item, members, List.mem_singleton, exists_eq_left]
    omega
  | onward =>
    simp [Form.Covers, Form.item, members]
    omega
  | @range _ _ _ a b =>
    by_cases descends : b < a
    · simp [Form.Covers, Form.item, members, descends]
      omega
    · simp only [Form.Covers, Form.item, descends, if_false, mem_members_span]
      constructor
      · omega
      · rintro (inside | ⟨v, inside, negative, _⟩) <;> omega

/-- The largest number that an item mentions is the largest in its members. -/
theorem natAbs_members_le_iff (form : Form) (n : Nat) :
    (∀ v ∈ form.item.members, v.natAbs ≤ n) ↔ ∀ m ∈ form.numbers, m ≤ n := by
  cases form with
  | alone | upTo | onward => simp [Form.item, Form.numbers, members]
  | range a b =>
    by_cases descends : b < a
    · simp only [Form.item, Form.numbers, descends, if_true, members, List.forall_mem_cons,
        List.not_mem_nil, false_implies, implies_true, and_true, Int.natAbs_neg, Int.natAbs_natCast]
      omega
    · simp only [Form.item, Form.numbers, descends, if_false, mem_members_span, List.forall_mem_cons,
        List.not_mem_nil, false_implies, implies_true, and_true]
      constructor
      · intro all
        have last := all b (by omega)
        omega
      · rintro ⟨first, last⟩ v ⟨low, high⟩
        omega

theorem Written.numbers_lt (written : Written cs form) : ∀ m ∈ form.numbers, m < Numeral.bound32 := by
  cases written with
  | alone number | upTo number | onward number => simpa [Form.numbers] using number.2
  | range one two => simpa [Form.numbers] using ⟨one.2, two.2⟩

/-- Members have room in 32 bits, and so have their opposites. -/
theorem Written.natAbs_lt (written : Written cs form) :
    ∀ v ∈ form.item.members, v.natAbs < Numeral.bound32 := by
  intro v inside
  have bounded : 0 < Numeral.bound32 := by decide
  have small := (natAbs_members_le_iff form (Numeral.bound32 - 1)).mpr
    fun m atM => Nat.le_pred_of_lt (written.numbers_lt m atM)
  have room := small v inside
  omega

theorem members_ne_nil (form : Form) : form.item.members ≠ [] := by
  cases form with
  | alone | upTo | onward => exact List.cons_ne_nil _ _
  | range a b =>
    by_cases descends : b < a
    · simp [Form.item, members, descends]
    · have inside : (a : Int) ∈ (Form.range a b).item.members := by
        simp only [Form.item, descends, if_false, mem_members_span]
        omega
      exact List.ne_nil_of_mem inside

end OverlayItem

namespace OverlaySet

/-- The specification has an item of this form. -/
def Lists (spec : String) (form : OverlayItem.Form) : Prop :=
  ∃ piece ∈ spec.toList.splitOn ',', OverlayItem.Written (Text.trim piece) form

/-- The numbers that the items of a specification mention. -/
def mentioned (spec : String) : Set Nat := {n | ∃ form, Lists spec form ∧ n ∈ form.numbers}

theorem mem_entries_iff {sep : Char} {cs entry : List Char} :
    entry ∈ Text.entries sep cs ↔ entry ≠ [] ∧ ∃ piece ∈ cs.splitOn sep, Text.trim piece = entry := by
  simp [Text.entries, Text.pieces_eq_splitOn, and_comm]

theorem mem_items_iff {spec : String} {item : OverlayItem} :
    item ∈ items spec.toList ↔ ∃ form, Lists spec form ∧ form.item = item := by
  simp only [items, List.mem_filterMap, mem_entries_iff]
  constructor
  · rintro ⟨_, ⟨_, piece, inside, rfl⟩, read⟩
    obtain ⟨form, written, same⟩ := (OverlayItem.read?_eq_some_iff (Text.trim_tight piece)).mp read
    exact ⟨form, ⟨piece, inside, written⟩, same⟩
  · rintro ⟨form, ⟨piece, inside, written⟩, rfl⟩
    exact ⟨Text.trim piece, ⟨written.ne_nil, piece, inside, rfl⟩, written.read?_eq⟩

theorem mem_insert {set : OverlaySet} {v w : Int} :
    v ∈ (set.insert w).members ↔ v = w ∨ v ∈ set.members :=
  Ascending.mem_insert Int.lt_trichotomy

theorem mem_foldl_insert {set : OverlaySet} {vs : List Int} {v : Int} :
    v ∈ (vs.foldl insert set).members ↔ v ∈ vs ∨ v ∈ set.members := by
  induction vs generalizing set with
  | nil => simp
  | cons w rest ih => rw [List.foldl_cons, ih, mem_insert, List.mem_cons, or_left_comm, or_assoc]

/-- A member of the set that is read is one of some item that is well formed. -/
theorem mem_read_iff {spec : String} {v : Int} :
    v ∈ (read spec.toList).members ↔ ∃ form, Lists spec form ∧ v ∈ form.item.members := by
  have absent : v ∉ empty.members := List.not_mem_nil
  simp only [read, ofList, mem_foldl_insert, absent, or_false, List.mem_flatMap, mem_items_iff]
  constructor
  · rintro ⟨_, ⟨form, lists, rfl⟩, inside⟩
    exact ⟨form, lists, inside⟩
  · rintro ⟨form, lists, inside⟩
    exact ⟨form.item, ⟨form, lists, rfl⟩, inside⟩

theorem read_natAbs_lt {spec : String} {v : Int} (inside : v ∈ (read spec.toList).members) :
    v.natAbs < Numeral.bound32 := by
  obtain ⟨form, ⟨_, _, written⟩, inside⟩ := mem_read_iff.mp inside
  exact written.natAbs_lt v inside

theorem read_eq_empty_iff {spec : String} :
    (read spec.toList).members = [] ↔ ∀ form, ¬Lists spec form := by
  rw [List.eq_nil_iff_forall_not_mem]
  constructor
  · intro unlisted form lists
    obtain ⟨v, inside⟩ := List.exists_mem_of_ne_nil _ (OverlayItem.members_ne_nil form)
    exact unlisted v (mem_read_iff.mpr ⟨form, lists, inside⟩)
  · intro unlisted v inside
    obtain ⟨form, lists, _⟩ := mem_read_iff.mp inside
    exact unlisted form lists

/-- Past 32 bits a pass is no member, and comes after every marker. -/
theorem visible_iff {set : OverlaySet} (room : ∀ v ∈ set.members, v.natAbs < Numeral.bound32) (pass : Nat) :
    set.visible pass = true ↔
      set.members = [] ∨ (pass : Int) ∈ set.members ∨ ∃ v ∈ set.members, v < 0 ∧ -v < pass := by
  unfold visible
  rw [Bool.or_eq_true, isEmpty, List.isEmpty_iff]
  refine or_congr_right ?_
  split
  · rename_i far
    simp only [List.any_eq_true, decide_eq_true_eq]
    constructor
    · rintro ⟨v, inside, negative⟩
      have small := room v inside
      exact .inr ⟨v, inside, negative, by omega⟩
    · rintro (inside | ⟨v, inside, negative, _⟩)
      · have small := room _ inside
        omega
      · exact ⟨v, inside, negative⟩
  · simp [contains]

theorem foldl_max_le_iff {vs : List Int} {start n : Nat} :
    vs.foldl (fun m v => max m v.natAbs) start ≤ n ↔ start ≤ n ∧ ∀ v ∈ vs, v.natAbs ≤ n := by
  induction vs generalizing start with
  | nil => simp
  | cons v rest ih => rw [List.foldl_cons, ih, Nat.max_le, List.forall_mem_cons, and_assoc]

/-- The bound is the least number above zero that no mentioned number exceeds. -/
theorem maxBound_read_le_iff {spec : String} {n : Nat} :
    (read spec.toList).maxBound ≤ n ↔ 1 ≤ n ∧ ∀ m ∈ mentioned spec, m ≤ n := by
  rw [maxBound, foldl_max_le_iff]
  refine and_congr_right fun _ => ?_
  constructor
  · rintro all m ⟨form, lists, inside⟩
    refine (OverlayItem.natAbs_members_le_iff form n).mp (fun v atV => ?_) m inside
    exact all v (mem_read_iff.mpr ⟨form, lists, atV⟩)
  · intro all v inside
    obtain ⟨form, lists, atV⟩ := mem_read_iff.mp inside
    exact (OverlayItem.natAbs_members_le_iff form n).mpr (fun m atM => all m ⟨form, lists, atM⟩) v atV

/-- The bound is the largest number that is mentioned, but never zero. -/
theorem maxBound_read (spec : String) :
    (∃ n ∈ mentioned spec, n ≠ 0) ∧ IsGreatest (mentioned spec) (read spec.toList).maxBound ∨
      (∀ n ∈ mentioned spec, n = 0) ∧ (read spec.toList).maxBound = 1 := by
  obtain ⟨one_le, upper⟩ := maxBound_read_le_iff.mp (Nat.le_refl (read spec.toList).maxBound)
  by_cases zero : ∀ n ∈ mentioned spec, n = 0
  · have le_one : (read spec.toList).maxBound ≤ 1 :=
      maxBound_read_le_iff.mpr ⟨Nat.le_refl 1, fun n inside => by rw [zero n inside]; omega⟩
    exact .inr ⟨zero, by omega⟩
  · push Not at zero
    obtain ⟨n, inside, positive⟩ := zero
    refine .inl ⟨⟨n, inside, positive⟩, ?_, fun m atM => upper m atM⟩
    -- a bound that is not mentioned could be lowered
    by_contra absent
    have lower (m : Nat) (atM : m ∈ mentioned spec) : m ≤ (read spec.toList).maxBound - 1 := by
      have below := upper m atM
      have other : m ≠ (read spec.toList).maxBound := fun same => absent (same ▸ atM)
      omega
    have least := lower n inside
    have less := maxBound_read_le_iff.mpr ⟨by omega, lower⟩
    omega

end OverlaySet

end Unveil
