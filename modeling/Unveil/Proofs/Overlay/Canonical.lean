import Mathlib.Data.List.Sort
import Unveil.Proofs.Overlay.Cover

namespace Unveil.OverlaySet

/-- Where a number stands among the members, or where it would have to stand. -/
inductive Place where
  | found (i : Nat)
  | missing (i : Nat)
  deriving Repr, DecidableEq

/-- Looks for a number among the members from `low` on and below `high`, by halving. -/
def searchBetween (vs : List Int) (v : Int) (low high : Nat) : Place :=
  if low < high then
    match vs[(low + high) / 2]? with
    | none => .missing low
    | some w =>
      if w < v then searchBetween vs v ((low + high) / 2 + 1) high
      else if v < w then searchBetween vs v low ((low + high) / 2)
      else .found ((low + high) / 2)
  else .missing low
termination_by high - low

def search (vs : List Int) (v : Int) : Place := searchBetween vs v 0 vs.length

/-- Puts a number in at the place where the search ends; a member stays as it is. -/
def insertByHalving (set : OverlaySet) (v : Int) : OverlaySet :=
  match search set.members v with
  | .found _ => set
  | .missing i => ⟨set.members.take i ++ v :: set.members.drop i⟩

def containsByHalving (set : OverlaySet) (v : Int) : Bool :=
  match search set.members v with
  | .found _ => true
  | .missing _ => false

/-- The number is at the place, or belongs between the members before it and those from it on. -/
def Place.Fits (vs : List Int) (v : Int) : Place → Prop
  | found i => vs[i]? = some v
  | missing i => (∀ w ∈ vs.take i, w < v) ∧ ∀ w ∈ vs.drop i, v < w

section Search

variable {vs : List Int} {v w : Int} {i low high : Nat}

theorem lt_of_mem_take (ordered : vs.Pairwise (· < ·)) (atI : vs[i]? = some w) (less : w < v) :
    ∀ x ∈ vs.take (i + 1), x < v := by
  intro x inside
  obtain ⟨bound, rfl⟩ := List.getElem?_eq_some_iff.mp atI
  rw [List.take_succ_eq_append_getElem bound, List.mem_append, List.mem_singleton] at inside
  rcases inside with before | rfl
  · have split := List.take_append_drop i vs ▸ ordered
    have first := (List.pairwise_append.mp split).2.2 x before vs[i]
      (List.drop_eq_getElem_cons bound ▸ List.mem_cons_self)
    omega
  · exact less

theorem lt_of_mem_drop (ordered : vs.Pairwise (· < ·)) (atI : vs[i]? = some w) (more : v < w) :
    ∀ x ∈ vs.drop i, v < x := by
  intro x inside
  obtain ⟨bound, rfl⟩ := List.getElem?_eq_some_iff.mp atI
  have tail : (vs.drop i).Pairwise (· < ·) := ordered.sublist (List.drop_sublist i vs)
  rw [List.drop_eq_getElem_cons bound] at inside tail
  rcases List.mem_cons.mp inside with rfl | later
  · exact more
  · have next := (List.pairwise_cons.mp tail).1 x later
    omega

/-- What is left out of the window is on the right side of the number. -/
theorem searchBetween_fits (ordered : vs.Pairwise (· < ·)) (window : low ≤ high) (inside : high ≤ vs.length)
    (before : ∀ x ∈ vs.take low, x < v) (after : ∀ x ∈ vs.drop high, v < x) :
    (searchBetween vs v low high).Fits vs v := by
  fun_induction searchBetween vs v low high with
  | case1 low high wide outside =>
    have bound := List.getElem?_eq_none_iff.mp outside
    omega
  | case2 low high wide w atMiddle less ih =>
    exact ih (by omega) inside (lt_of_mem_take ordered atMiddle less) after
  | case3 low high wide w atMiddle _ more ih =>
    exact ih (by omega) (by omega) before (lt_of_mem_drop ordered atMiddle more)
  | case4 low high wide w atMiddle notLess notMore =>
    have same : w = v := by omega
    exact same ▸ atMiddle
  | case5 low high empty =>
    have same : high = low := by omega
    exact ⟨before, same ▸ after⟩

theorem search_fits (ordered : vs.Pairwise (· < ·)) (v : Int) : (search vs v).Fits vs v :=
  searchBetween_fits ordered (Nat.zero_le _) (Nat.le_refl _) (by simp) (by simp)

end Search

variable {set : OverlaySet} {v : Int}

theorem insert_ordered (ordered : set.members.Pairwise (· < ·)) (v : Int) :
    (set.insert v).members.Pairwise (· < ·) :=
  Ascending.pairwise_insert Int.lt_trichotomy Int.lt_trans ordered

theorem foldl_insert_ordered (ordered : set.members.Pairwise (· < ·)) (vs : List Int) :
    (vs.foldl insert set).members.Pairwise (· < ·) := by
  induction vs generalizing set with
  | nil => exact ordered
  | cons v rest ih => exact ih (insert_ordered ordered v)

/-- The members of a set ascend, in whatever order they were put in. -/
theorem ofList_ordered (vs : List Int) : (ofList vs).members.Pairwise (· < ·) := foldl_insert_ordered .nil vs

theorem contains_iff : set.contains v = true ↔ v ∈ set.members := by rw [contains, List.contains_iff_mem]

theorem mem_ofList {vs : List Int} : v ∈ (ofList vs).members ↔ v ∈ vs := by
  have absent : v ∉ empty.members := List.not_mem_nil
  rw [ofList, mem_foldl_insert, or_iff_left absent]

/-- Sets in order are told apart by a member. -/
theorem eq_of_mem_iff {other : OverlaySet} (ordered : set.members.Pairwise (· < ·))
    (ordered' : other.members.Pairwise (· < ·)) (same : ∀ v, v ∈ set.members ↔ v ∈ other.members) :
    set = other := by
  cases set
  cases other
  exact congrArg _ (ordered.eq_of_mem_iff ordered' same)

/-- Members may be looked for by halving, since they ascend. -/
theorem containsByHalving_eq (ordered : set.members.Pairwise (· < ·)) (v : Int) :
    set.containsByHalving v = set.contains v := by
  have fits := search_fits ordered v
  rw [Bool.eq_iff_iff, contains_iff, containsByHalving]
  generalize search set.members v = place at fits
  cases place with
  | found i => exact iff_of_true rfl (List.mem_of_getElem? fits)
  | missing i =>
    obtain ⟨before, after⟩ := fits
    refine iff_of_false Bool.false_ne_true fun inside => ?_
    rw [← List.take_append_drop i set.members, List.mem_append] at inside
    rcases inside with left | right
    · exact Int.lt_irrefl v (before v left)
    · exact Int.lt_irrefl v (after v right)

/-- A new member is put between the smaller and the larger ones. -/
theorem insertByHalving_eq (ordered : set.members.Pairwise (· < ·)) (v : Int) :
    set.insertByHalving v = set.insert v := by
  have fits := search_fits ordered v
  rw [insertByHalving]
  generalize search set.members v = place at fits
  cases place with
  | found i =>
    have inside : v ∈ set.members := List.mem_of_getElem? fits
    refine eq_of_mem_iff ordered (insert_ordered ordered v) fun x => ?_
    rw [mem_insert]
    exact ⟨.inr, fun either => either.elim (fun same => same ▸ inside) id⟩
  | missing i =>
    obtain ⟨before, after⟩ := fits
    have split := List.take_append_drop i set.members ▸ ordered
    obtain ⟨left, right, across⟩ := List.pairwise_append.mp split
    refine eq_of_mem_iff (List.pairwise_append.mpr ⟨left, List.pairwise_cons.mpr ⟨after, right⟩, ?_⟩)
      (insert_ordered ordered v) fun x => ?_
    · intro x inLeft y inRight
      rcases List.mem_cons.mp inRight with rfl | later
      · exact before x inLeft
      · exact across x inLeft y later
    · rw [mem_insert, List.mem_append, List.mem_cons, or_left_comm, ← List.mem_append, List.take_append_drop]

theorem foldl_insertByHalving (ordered : set.members.Pairwise (· < ·)) (vs : List Int) :
    vs.foldl insertByHalving set = vs.foldl insert set := by
  induction vs generalizing set with
  | nil => rfl
  | cons v rest ih =>
    rw [List.foldl_cons, List.foldl_cons, insertByHalving_eq ordered v]
    exact ih (insert_ordered ordered v)

/-- A specification is read by the forms of its items. -/
theorem read_eq_of_lists {s t : String} (same : ∀ form, Lists s form ↔ Lists t form) :
    read s.toList = read t.toList := by
  refine eq_of_mem_iff (ofList_ordered _) (ofList_ordered _) fun v => ?_
  simp only [mem_read_iff, same]

/-- The items around a comma are those of the texts on its two sides. -/
theorem lists_append {s t : String} {form : OverlayItem.Form} :
    Lists (s ++ "," ++ t) form ↔ Lists s form ∨ Lists t form := by
  have whole : (s ++ "," ++ t).toList = s.toList ++ ',' :: t.toList := by
    rw [String.toList_append, String.toList_append, List.append_assoc]
    rfl
  have cut : (s ++ "," ++ t).toList.splitOn ',' = s.toList.splitOn ',' ++ t.toList.splitOn ',' := by
    rw [whole]
    exact List.splitOnP_append_cons _ _ (beq_self_eq_true _)
  simp only [Lists, cut, List.mem_append, or_and_right, exists_or]

theorem not_lists_empty {form : OverlayItem.Form} : ¬Lists "" form := by
  rintro ⟨piece, inside, written⟩
  obtain rfl : piece = [] := List.mem_singleton.mp inside
  exact written.ne_nil rfl

/-- A list of items has the forms that its items have. -/
theorem lists_intercalate {items : List String} {form : OverlayItem.Form} :
    Lists (",".intercalate items) form ↔ ∃ item ∈ items, Lists item form := by
  induction items with
  | nil => exact iff_of_false not_lists_empty nofun
  | cons item rest ih =>
    cases rest with
    | nil => simp
    | cons next more =>
      rw [String.intercalate_cons_cons, lists_append, ih]
      simp only [List.exists_mem_cons_iff]

/-- Reading a specification does not depend on the order of its items, on how often one stands there, and on
those that are malformed; two specifications with a comma between them are read as the members of both. A set
that numbers are put into has just these members in ascending order, whether it is searched from the front or
by halving, and sets with the same members are equal. -/
theorem read_canonical :
    (∀ s t v, (read (s ++ "," ++ t).toList).contains v =
      ((read s.toList).contains v || (read t.toList).contains v)) ∧
    (∀ items others, items.Perm others →
      read (",".intercalate items).toList = read (",".intercalate others).toList) ∧
    (∀ before after item, item ∈ before ++ after ∨ (∀ form, ¬Lists item form) →
      read (",".intercalate (before ++ item :: after)).toList = read (",".intercalate (before ++ after)).toList) ∧
    (∀ vs, (ofList vs).members.Pairwise (· < ·) ∧ (∀ v, (ofList vs).contains v = true ↔ v ∈ vs) ∧
      vs.foldl insertByHalving empty = ofList vs ∧ ∀ v, (ofList vs).containsByHalving v = (ofList vs).contains v) ∧
    ∀ vs ws, (∀ v, (ofList vs).contains v = (ofList ws).contains v) → ofList vs = ofList ws := by
  refine ⟨fun s t v => ?_, fun items others perm => ?_, fun before after item idle => ?_, fun vs => ?_,
    fun vs ws same => ?_⟩
  · rw [Bool.eq_iff_iff, Bool.or_eq_true, contains_iff, contains_iff, contains_iff]
    simp only [mem_read_iff, lists_append, or_and_right, exists_or]
  · refine read_eq_of_lists fun form => ?_
    simp only [lists_intercalate, perm.mem_iff]
  · refine read_eq_of_lists fun form => ?_
    simp only [lists_intercalate, List.mem_append, List.mem_cons]
    constructor
    · rintro ⟨other, inBefore | rfl | inAfter, lists⟩
      · exact ⟨other, .inl inBefore, lists⟩
      · rcases idle with again | malformed
        · exact ⟨other, List.mem_append.mp again, lists⟩
        · exact absurd lists (malformed form)
      · exact ⟨other, .inr inAfter, lists⟩
    · rintro ⟨other, inside, lists⟩
      exact ⟨other, inside.imp_right .inr, lists⟩
  · exact ⟨ofList_ordered vs, fun v => contains_iff.trans mem_ofList, foldl_insertByHalving .nil vs,
      containsByHalving_eq (ofList_ordered vs)⟩
  · refine eq_of_mem_iff (ofList_ordered vs) (ofList_ordered ws) fun v => ?_
    rw [← contains_iff, ← contains_iff, same v]

/-- Two passes and a range, with an item that says nothing and one that says it again. -/
theorem read_canonical_shuffled :
    ["4", "x", "1-2"].Perm ["1-2", "4", "x"] ∧ (∀ form, ¬Lists "x" form) ∧ "4" ∈ ["1-2"] ++ ["4"] ∧
    read "4,x,1-2".toList = read "1-2,4,x".toList ∧ read "1-2,4,x".toList = read "1-2,4".toList ∧
    read "1-2,4,4".toList = read "1-2,4".toList ∧ read "1-2,4".toList = ⟨[1, 2, 4]⟩ ∧
    ofList [4, 2, 1, 4] = ofList [1, 2, 4] := by
  obtain ⟨_, permuted, idle, _, unique⟩ := read_canonical
  have perm : ["4", "x", "1-2"].Perm ["1-2", "4", "x"] := by decide
  have malformed : ∀ form, ¬Lists "x" form := read_eq_empty_iff.mp (by decide)
  have again : "4" ∈ ["1-2"] ++ ["4"] := by decide
  refine ⟨perm, malformed, again, permuted _ _ perm, idle ["1-2", "4"] [] "x" (.inr malformed),
    idle ["1-2"] ["4"] "4" (.inl again), by decide, unique _ _ fun v => ?_⟩
  rw [Bool.eq_iff_iff, contains_iff, contains_iff, mem_ofList, mem_ofList]
  simp only [List.mem_cons, List.not_mem_nil, or_false]
  omega

end Unveil.OverlaySet
