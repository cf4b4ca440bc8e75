import Unveil.Proofs.Overlay.Cover

namespace Unveil

namespace OverlayItem

/-- The members of a range in 32 bits, from its ends. -/
def rangeMembers? (a b : Int) : Option (List Int) :=
  if b < a then (Numeral.narrow? (-a)).map fun marker => [marker]
  else (Numeral.narrow? (b - a)).map fun (length : Int) =>
    if (maxSpan : Int) < length then [] else (List.range (length.toNat + 1)).map fun (i : Nat) => a + (i : Int)

/-- The members that an item adds, worked out in 32 bits: `none` when a step overflows. A malformed item
adds no members. -/
def members? (cs : List Char) : Option (List Int) :=
  if '-' ∉ cs then some ((Numeral.int32? cs).elim [] fun n => [n])
  else if cs.head? = some '-' then
    match (Numeral.int32? (Text.trim cs.tail)).filter (0 < ·) with
    | some n => some [n]
    | none => some []
  else if cs.getLast? = some '-' then
    match (Numeral.int32? (Text.trim cs.dropLast)).filter (0 < ·) with
    | some n => (Numeral.narrow? (-n)).map fun marker => [n, marker]
    | none => some []
  else
    match Text.entries '-' cs with
    | [a, b] =>
      match Numeral.int32? a, Numeral.int32? b with
      | some a, some b => rangeMembers? a b
      | _, _ => some []
    | _ => some []

theorem fits_natCast {n : Nat} (room : n < Numeral.bound32) : Numeral.Fits32 n ∧ Numeral.Fits32 (-n) := by
  simp only [Numeral.Fits32]
  omega

theorem rangeMembers?_eq {a b : Nat} (first : a < Numeral.bound32) (last : b < Numeral.bound32) :
    rangeMembers? a b = some ((between? a b).elim [] members) := by
  by_cases descends : b < a
  · have marker : Numeral.narrow? (-(a : Int)) = some (-(a : Int)) :=
      Numeral.narrow?_eq_some (fits_natCast first).2
    have below : (b : Int) < a := by omega
    simp [rangeMembers?, between?, below, descends, marker, members]
  · have length : Numeral.narrow? ((b : Int) - a) = some ((b - a : Nat) : Int) := by
      have cast : (b : Int) - a = (b - a : Nat) := by omega
      rw [cast]
      exact Numeral.narrow?_eq_some (fits_natCast (by omega)).1
    have above : ¬(b : Int) < a := by omega
    by_cases long : maxSpan < b - a
    · have longInt : (maxSpan : Int) < (b - a : Nat) := by omega
      simp only [rangeMembers?, above, if_false, length, Option.map_some, longInt, if_true, between?,
        descends, long, Option.elim_none]
    · have shortInt : ¬(maxSpan : Int) < (b - a : Nat) := by omega
      have count : b + 1 - a = b - a + 1 := by omega
      simp only [rangeMembers?, above, if_false, length, Option.map_some, shortInt, between?, descends,
        long, Option.elim_some, members, Int.toNat_natCast, count, Int.natCast_add]

/-- A number above zero and its opposite. -/
theorem positive_members {cs : List Char} {f : Int → Option (List Int)} {item : Nat → OverlayItem}
    (same : ∀ n : Nat, n < Numeral.bound32 → f n = some (item n).members) :
    (match (Numeral.int32? cs).filter (0 < ·) with
      | some n => f n
      | none => some []) =
        some (((((Numeral.int32? cs).filter (0 < ·)).map Int.toNat).map item).elim [] members) := by
  cases read : (Numeral.int32? cs).filter (0 < ·) with
  | none => rfl
  | some v =>
    obtain ⟨read, positive⟩ := Option.filter_eq_some_iff.mp read
    have fits := Numeral.int32?_fits read
    simp only [decide_eq_true_eq] at positive
    lift v to Nat using by omega
    exact same v (Int.ofNat_lt.mp fits.2)

/-- The ends of a range are numbers without a sign. -/
theorem ends_members {first last : List Char} (one : '-' ∉ first) (two : '-' ∉ last) :
    (match Numeral.int32? first, Numeral.int32? last with
      | some a, some b => rangeMembers? a b
      | _, _ => some []) =
        some ((match Numeral.int32? first, Numeral.int32? last with
          | some a, some b => between? a.toNat b.toNat
          | _, _ => none).elim [] members) := by
  cases readFirst : Numeral.int32? first with
  | none => rfl
  | some v =>
    cases readLast : Numeral.int32? last with
    | none => rfl
    | some w =>
      obtain ⟨a, numberFirst, rfl⟩ := (int32?_eq_some_iff one).mp readFirst
      obtain ⟨b, numberLast, rfl⟩ := (int32?_eq_some_iff two).mp readLast
      exact rangeMembers?_eq numberFirst.2 numberLast.2

/-- What an item adds can be worked out in 32 bits. -/
theorem members?_eq {cs : List Char} (tight : Text.Tight cs) :
    members? cs = some ((read? cs).elim [] members) := by
  by_cases inner : '-' ∈ cs
  · by_cases head : cs.head? = some '-'
    · simp only [members?, read?, inner, not_true, if_false, head, if_true, positive?]
      exact positive_members fun n _ => rfl
    · by_cases last : cs.getLast? = some '-'
      · simp only [members?, read?, inner, not_true, if_false, head, last, if_true, positive?]
        refine positive_members fun n room => ?_
        rw [Numeral.narrow?_eq_some (fits_natCast room).2]
        rfl
      · simp only [members?, read?, inner, not_true, if_false, head, last]
        generalize entries : Text.entries '-' cs = found
        rcases found with _ | ⟨first, _ | ⟨final, _ | _⟩⟩
        · rfl
        · rfl
        · obtain ⟨_, _, _, one, two, _⟩ := Text.exists_gap entries
            (fun c member => ⟨fun same => head (same ▸ member), tight.head c member⟩)
            (fun c member => ⟨fun same => last (same ▸ member), tight.last c member⟩)
          exact ends_members one.whole two.whole
        · rfl
  · rw [members?, if_pos inner, read?, if_pos inner]
    cases read : Numeral.int32? cs with
    | none => rfl
    | some v =>
      obtain ⟨n, _, rfl⟩ := (int32?_eq_some_iff inner).mp read
      rfl

end OverlayItem

namespace OverlaySet

/-- Reads a specification in 32 bits: `none` when a step overflows. -/
def read? (spec : List Char) : Option OverlaySet :=
  (Text.entries ',' spec).foldlM
    (fun set entry => (OverlayItem.members? entry).map fun vs => vs.foldl insert set) empty

/-- Whether a pass is allowed, worked out in 32 bits: `none` when a step overflows. -/
def visible? (set : OverlaySet) (pass : Nat) : Option Bool :=
  if set.isEmpty then some true
  else if Numeral.bound32 ≤ pass then some (set.members.any (· < 0))
  else if set.contains pass then some true
  else
    set.members.anyM fun v =>
      if v < 0 then (Numeral.narrow? (-v)).map fun (marker : Int) => decide (marker < pass) else some false

theorem foldlM_members {entries : List (List Char)} (tight : ∀ entry ∈ entries, Text.Tight entry)
    (set : OverlaySet) :
    entries.foldlM
        (fun set entry => (OverlayItem.members? entry).map fun vs => vs.foldl insert set) set =
      some (((entries.filterMap OverlayItem.read?).flatMap OverlayItem.members).foldl insert set) := by
  induction entries generalizing set with
  | nil => rfl
  | cons entry rest ih =>
    obtain ⟨first, later⟩ := List.forall_mem_cons.mp tight
    rw [List.foldlM_cons, OverlayItem.members?_eq first, Option.map_some, Option.bind_eq_bind,
      Option.bind_some, ih later]
    cases read : OverlayItem.read? entry with
    | none => rw [List.filterMap_cons_none read]; rfl
    | some item => rw [List.filterMap_cons_some read, List.flatMap_cons, List.foldl_append]; rfl

/-- Reading never leaves 32 bits. -/
theorem read?_eq (spec : List Char) : read? spec = some (read spec) := by
  refine foldlM_members (fun entry inside => ?_) empty
  obtain ⟨_, piece, _, rfl⟩ := mem_entries_iff.mp inside
  exact Text.trim_tight piece

/-- Members are compared with a pass without leaving 32 bits. -/
theorem visible?_eq {set : OverlaySet} (room : ∀ v ∈ set.members, v.natAbs < Numeral.bound32) (pass : Nat) :
    set.visible? pass = some (set.visible pass) := by
  have markers (vs : List Int) (room : ∀ v ∈ vs, v.natAbs < Numeral.bound32) :
      (vs.anyM fun v =>
        if v < 0 then (Numeral.narrow? (-v)).map fun (marker : Int) => decide (marker < pass)
        else some false) = some (vs.any fun v => v < 0 && -v < pass) := by
    induction vs with
    | nil => rfl
    | cons v rest ih =>
      obtain ⟨small, later⟩ := List.forall_mem_cons.mp room
      rw [List.anyM, ih later]
      by_cases negative : v < 0
      · have fits : Numeral.Fits32 (-v) := by
          simp only [Numeral.Fits32]
          omega
        by_cases before : -v < pass <;> simp [negative, before, Numeral.narrow?_eq_some fits]
      · simp [negative]
  unfold visible? visible
  split
  · rename_i silent
    rw [silent, Bool.true_or]
  · rename_i listed
    rw [Bool.not_eq_true] at listed
    rw [listed, Bool.false_or]
    split
    · rfl
    · split
      · rename_i inside
        rw [inside, Bool.true_or]
      · rename_i absent
        rw [Bool.not_eq_true] at absent
        rw [absent, Bool.false_or, markers set.members room]

/-- A specification shows content on a pass if none of its items is well formed or one of them covers the
pass; it asks for as many passes as the largest number that it mentions, and for one at least. Working
this out in 32 bits never overflows. -/
theorem read_means (spec : String) :
    let set := read spec.toList
    (∀ pass, set.visible pass = true ↔
      (∀ form, ¬Lists spec form) ∨ ∃ form, Lists spec form ∧ form.Covers pass) ∧
    ((∃ n ∈ mentioned spec, n ≠ 0) ∧ IsGreatest (mentioned spec) set.maxBound ∨
      (∀ n ∈ mentioned spec, n = 0) ∧ set.maxBound = 1) ∧
    read? spec.toList = some set ∧ ∀ pass, set.visible? pass = some (set.visible pass) := by
  intro set
  have room (v : Int) (inside : v ∈ set.members) := read_natAbs_lt inside
  refine ⟨fun pass => ?_, maxBound_read spec, read?_eq _, visible?_eq room⟩
  rw [visible_iff room, read_eq_empty_iff]
  refine or_congr_right ?_
  constructor
  · rintro (inside | ⟨v, inside, marker⟩)
    · obtain ⟨form, lists, atPass⟩ := mem_read_iff.mp inside
      obtain ⟨_, _, written⟩ := id lists
      exact ⟨form, lists, (written.covers_iff pass).mpr (.inl atPass)⟩
    · obtain ⟨form, lists, atV⟩ := mem_read_iff.mp inside
      obtain ⟨_, _, written⟩ := id lists
      exact ⟨form, lists, (written.covers_iff pass).mpr (.inr ⟨v, atV, marker⟩)⟩
  · rintro ⟨form, lists, covers⟩
    obtain ⟨_, _, written⟩ := id lists
    rcases (written.covers_iff pass).mp covers with atPass | ⟨v, atV, marker⟩
    · exact .inl (mem_read_iff.mpr ⟨form, lists, atPass⟩)
    · exact .inr ⟨v, mem_read_iff.mpr ⟨form, lists, atV⟩, marker⟩

end OverlaySet

end Unveil
