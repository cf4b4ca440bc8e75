import Unveil.Proofs.Overlay.Cover

namespace Unveil

namespace OverlayItem.Form

/-- The number that a range descends from is the pass after which it shows. -/
theorem members_descending {a b : Nat} (descends : b < a) :
    (Form.range a b).item.members = [-(a : Int)] := by
  simp [item, descends, members]

/-- An item that mentions zero only has no other member. -/
theorem members_zero {form : Form} (zeros : ∀ n ∈ form.numbers, n = 0) : ∀ v ∈ form.item.members, v = 0 := by
  have least := (natAbs_members_le_iff form 0).mpr fun n atN => Nat.le_of_eq (zeros n atN)
  exact fun v inside => Int.natAbs_eq_zero.mp (Nat.le_zero.mp (least v inside))

/-- What an item says: a pass by its number, nothing but zeros, or every pass after some number. -/
theorem members_cases (form : Form) :
    (∃ v ∈ form.item.members, 0 < v) ∨ (∀ n ∈ form.numbers, n = 0) ∨
      ∃ a b, b < a ∧ form = .range a b := by
  cases form with
  | alone n | upTo n | onward n =>
    rcases Nat.eq_zero_or_pos n with rfl | positive
    · exact .inr (.inl (by simp [numbers]))
    · exact .inl ⟨n, List.mem_cons_self, by omega⟩
  | range a b =>
    by_cases descends : b < a
    · exact .inr (.inr ⟨a, b, descends, rfl⟩)
    · rcases Nat.eq_zero_or_pos b with rfl | positive
      · exact .inr (.inl (by simp [numbers]; omega))
      · refine .inl ⟨b, ?_, by omega⟩
        simp only [item, descends, if_false, mem_members_span]
        omega

end OverlayItem.Form

namespace OverlaySet

open OverlayItem (Form)

/-- Zeros apart, the items of the specification are ranges that descend from one number, and so they only
say that content shows after the pass of that number. -/
def OnlyAfter (spec : String) : Prop :=
  ∃ a, (∃ b < a, Lists spec (.range a b)) ∧
    ∀ form, Lists spec form → (∀ n ∈ form.numbers, n = 0) ∨ ∃ b < a, form = .range a b

variable {spec : String}

theorem natAbs_le_maxBound {set : OverlaySet} {v : Int} (inside : v ∈ set.members) :
    v.natAbs ≤ set.maxBound :=
  (foldl_max_le_iff.mp (Nat.le_refl set.maxBound)).2 v inside

theorem one_le_maxBound (set : OverlaySet) : 1 ≤ set.maxBound :=
  (foldl_max_le_iff.mp (Nat.le_refl set.maxBound)).1

theorem read_visible_iff (pass : Nat) :
    (read spec.toList).visible pass = true ↔
      (read spec.toList).members = [] ∨ (pass : Int) ∈ (read spec.toList).members ∨
        ∃ v ∈ (read spec.toList).members, v < 0 ∧ -v < pass :=
  visible_iff (fun _ => read_natAbs_lt) pass

/-- Apart from zero, the set that is read has one member. -/
theorem OnlyAfter.members (only : OnlyAfter spec) :
    ∃ a : Nat, 0 < a ∧ -(a : Int) ∈ (read spec.toList).members ∧
      ∀ v ∈ (read spec.toList).members, v = 0 ∨ v = -(a : Int) := by
  obtain ⟨a, ⟨b, descends, lists⟩, all⟩ := only
  refine ⟨a, by omega, mem_read_iff.mpr ⟨_, lists, ?_⟩, fun v inside => ?_⟩
  · rw [Form.members_descending descends]
    exact List.mem_singleton_self _
  · obtain ⟨form, lists, inside⟩ := mem_read_iff.mp inside
    rcases all form lists with zeros | ⟨b, descends, rfl⟩
    · exact .inl (Form.members_zero zeros v inside)
    · rw [Form.members_descending descends] at inside
      exact .inr (List.mem_singleton.mp inside)

/-- Such content shows past the bound and never within it. -/
theorem OnlyAfter.visible_iff (only : OnlyAfter spec) {pass : Nat} (positive : 1 ≤ pass) :
    (read spec.toList).visible pass = true ↔ (read spec.toList).maxBound < pass := by
  obtain ⟨a, above, marker, all⟩ := only.members
  have bound : (read spec.toList).maxBound = a := by
    refine Nat.le_antisymm (foldl_max_le_iff.mpr ⟨above, fun v inside => ?_⟩) ?_
    · rcases all v inside with rfl | rfl <;> omega
    · have least := natAbs_le_maxBound marker
      omega
  rw [read_visible_iff, bound]
  constructor
  · rintro (silent | inside | ⟨v, inside, negative, before⟩)
    · rw [silent] at marker
      cases marker
    · rcases all _ inside with zero | low <;> omega
    · rcases all v inside with rfl | rfl <;> omega
  · exact fun after => .inr (.inr ⟨_, marker, by omega, by omega⟩)

/-- A specification that says nothing but what shows after one pass has one marker and no pass of its own. -/
theorem onlyAfter_of_markers {m : Nat} (marker : -(m : Int) ∈ (read spec.toList).members) (above : 0 < m)
    (passless : ∀ v ∈ (read spec.toList).members, ¬0 < v)
    (one : ∀ v ∈ (read spec.toList).members, v < 0 → v = -(m : Int)) : OnlyAfter spec := by
  have descending (a b : Nat) (descends : b < a) (lists : Lists spec (.range a b)) : a = m := by
    have inside : -(a : Int) ∈ (read spec.toList).members :=
      mem_read_iff.mpr ⟨_, lists, by rw [Form.members_descending descends]; exact List.mem_singleton_self _⟩
    have same := one _ inside (by omega)
    omega
  have passes (form : Form) (lists : Lists spec form) : ¬∃ v ∈ form.item.members, 0 < v :=
    fun ⟨v, inside, positive⟩ => passless v (mem_read_iff.mpr ⟨form, lists, inside⟩) positive
  refine ⟨m, ?_, fun form lists => ?_⟩
  · obtain ⟨form, lists, inside⟩ := mem_read_iff.mp marker
    rcases form.members_cases with pass | zeros | ⟨a, b, descends, rfl⟩
    · exact absurd pass (passes form lists)
    · have zero := Form.members_zero zeros _ inside
      omega
    · obtain rfl := descending a b descends lists
      exact ⟨b, descends, lists⟩
  · rcases form.members_cases with pass | zeros | ⟨a, b, descends, rfl⟩
    · exact absurd pass (passes form lists)
    · exact .inl zeros
    · obtain rfl := descending a b descends lists
      exact .inr ⟨b, descends, rfl⟩

/-- What shows on some pass shows on one within the bound, if more is said than after which pass. The only other
case is that of content that shows after some pass and nothing else: that pass is then the bound. -/
theorem exists_visible_le_maxBound {pass : Nat} (positive : 1 ≤ pass)
    (shown : (read spec.toList).visible pass = true) (more : ¬OnlyAfter spec) :
    ∃ q, 1 ≤ q ∧ q ≤ (read spec.toList).maxBound ∧ (read spec.toList).visible q = true := by
  have own {v : Int} (inside : v ∈ (read spec.toList).members) (above : 0 < v) :
      ∃ q, 1 ≤ q ∧ q ≤ (read spec.toList).maxBound ∧ (read spec.toList).visible q = true := by
    have least := natAbs_le_maxBound inside
    lift v to Nat using by omega
    exact ⟨v, by omega, by omega, (read_visible_iff v).mpr (.inr (.inl inside))⟩
  by_cases passes : ∃ v ∈ (read spec.toList).members, 0 < v
  · obtain ⟨v, inside, above⟩ := passes
    exact own inside above
  · push Not at passes
    rcases (read_visible_iff pass).mp shown with silent | inside | ⟨v, inside, negative, _⟩
    · exact ⟨1, Nat.le_refl 1, one_le_maxBound _, (read_visible_iff 1).mpr (.inl silent)⟩
    · exact own inside (by omega)
    · obtain ⟨m, rfl⟩ := Int.exists_eq_neg_ofNat negative.le
      by_cases one : ∀ w ∈ (read spec.toList).members, w < 0 → w = -(m : Int)
      · exact absurd (onlyAfter_of_markers inside (by omega) (fun w atW => Int.not_lt.mpr (passes w atW)) one) more
      · push Not at one
        obtain ⟨w, inside', negative', other⟩ := one
        obtain ⟨k, rfl⟩ := Int.exists_eq_neg_ofNat negative'.le
        -- of two markers, the content shows right after the smaller one
        have within := natAbs_le_maxBound inside
        have within' := natAbs_le_maxBound inside'
        rcases Nat.lt_or_gt_of_ne (fun same => other (by rw [same]) : k ≠ m) with before | after
        · exact ⟨k + 1, by omega, by omega, (read_visible_iff _).mpr (.inr (.inr ⟨_, inside', negative', by omega⟩))⟩
        · exact ⟨m + 1, by omega, by omega, (read_visible_iff _).mpr (.inr (.inr ⟨_, inside, negative, by omega⟩))⟩

end OverlaySet

end Unveil
