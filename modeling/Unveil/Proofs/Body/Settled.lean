import Unveil.Proofs.Reveal.Chars
import Unveil.Proofs.Text

namespace Unveil

namespace Paragraph

theorem isEmpty_iff_chars (p : Paragraph) : p.isEmpty = true ↔ p.chars = [] := by
  simp [isEmpty, chars, Run.chars]

theorem push_isEmpty {p : Paragraph} (nonempty : p.isEmpty = false) (text : String) (face : Face) (hidden : Bool) :
    (p.push text face hidden).isEmpty = false := by
  rw [← Bool.not_eq_true, isEmpty_iff_chars] at nonempty ⊢
  rw [push_chars]
  exact List.append_ne_nil_of_left_ne_nil nonempty _

theorem push_some (p : Paragraph) {text : String} (nonempty : text.toList ≠ []) (face : Face) (hidden : Bool) :
    (p.push text face hidden).isEmpty = false := by
  rw [← Bool.not_eq_true, isEmpty_iff_chars, push_chars]
  exact List.append_ne_nil_of_right_ne_nil _ nonempty

/-- Text changes neither the bullet nor the level. -/
theorem push_label (p : Paragraph) (text : String) (face : Face) (hidden : Bool) :
    (p.push text face hidden).bullet = p.bullet ∧ (p.push text face hidden).level = p.level := by
  unfold push
  split <;> exact ⟨rfl, rfl⟩

end Paragraph

namespace TextBody

variable {b c d : TextBody} {i : Nat} {p : Paragraph} {bullet : Option Bullet} {level : Nat}

theorem mapLast_getElem? (f : Paragraph → Paragraph) (ps : List Paragraph) (i : Nat) :
    (mapLast f ps)[i]? = if i + 1 = ps.length then ps[i]?.map f else ps[i]? := by
  induction ps generalizing i with
  | nil => simp [mapLast]
  | cons p rest ih =>
    rcases rest with _ | ⟨second, more⟩
    · cases i <;> simp [mapLast]
    · cases i with
      | zero => simp [mapLast]
      | succ j => simpa [mapLast] using ih j

theorem mapLast_length (f : Paragraph → Paragraph) (ps : List Paragraph) : (mapLast f ps).length = ps.length := by
  induction ps with
  | nil => rfl
  | cons p rest ih => cases rest <;> simp_all [mapLast]

theorem writable_eq (atI : b.paragraphs[i]? = some p) : b.writable = b.paragraphs := by
  unfold writable
  split
  · rename_i empty
    rw [empty] at atI
    cases atI
  · rfl

theorem current_eq (atI : b.paragraphs[i]? = some p) (last : b.paragraphs.length = i + 1) : b.current = p := by
  rw [current, writable_eq atI, List.getLastD_eq_getLast?, List.getLast?_eq_getElem?, last, Nat.add_sub_cancel, atI]
  rfl

/-- Paragraph `i` has this bullet and this level. -/
def Labelled (b : TextBody) (i : Nat) (bullet : Option Bullet) (level : Nat) : Prop :=
  ∃ p, b.paragraphs[i]? = some p ∧ p.bullet = bullet ∧ p.level = level

/-- Paragraph `i` is the last one and still empty, and has this bullet and this level. A body is written at its
end, so no other paragraph can change. -/
structure StartsAt (b : TextBody) (i : Nat) (bullet : Option Bullet) (level : Nat) : Prop where
  last : b.paragraphs.length = i + 1
  empty : b.current.isEmpty = true
  labelled : b.Labelled i bullet level

theorem mapLast_starts {ps : List Paragraph} {q : Paragraph} (last : ps[i]? = some q) (length : ps.length = i + 1)
    (empty : q.isEmpty = true) (size : Float32) :
    (⟨mapLast (fun p => { p with bullet, level, size }) ps⟩ : TextBody).StartsAt i bullet level := by
  have atI : (mapLast (fun p => { p with bullet, level, size }) ps)[i]? = some { q with bullet, level, size } := by
    rw [mapLast_getElem?, if_pos length.symm, last]
    rfl
  have whole := (mapLast_length (fun p => { p with bullet, level, size }) ps).trans length
  refine ⟨whole, ?_, _, atI, rfl, rfl⟩
  rw [current_eq (b := ⟨_⟩) atI whole]
  exact empty

/-- A paragraph of a list is empty at first, whether it is a new one or one that is taken over. -/
theorem startParagraph_starts (b : TextBody) (bullet : Option Bullet) (level : Nat) (size : Float32) :
    ∃ i, (b.startParagraph bullet level size).StartsAt i bullet level := by
  have length : b.writable.length = b.writable.length - 1 + 1 :=
    (Nat.sub_add_cancel (List.length_pos_iff.mpr b.writable_ne_nil)).symm
  unfold startParagraph
  split
  · rename_i untouched
    have last : b.writable[b.writable.length - 1]? = some b.current := by
      rw [current, List.getLastD_eq_getLast?, ← List.getLast?_eq_getElem?,
        List.getLast?_eq_some_getLast b.writable_ne_nil, Option.getD_some]
    exact ⟨_, mapLast_starts last length (Bool.and_eq_true_iff.mp untouched).1 size⟩
  · exact ⟨b.writable.length, mapLast_starts (q := .empty size) (by simp) (by simp) rfl size⟩

/-- All paragraphs are still there with their bullets and levels, and none has lost its text. -/
def Keeps (b c : TextBody) : Prop :=
  ∀ (i : Nat) (p : Paragraph), b.paragraphs[i]? = some p → ∃ q : Paragraph, c.paragraphs[i]? = some q ∧
    q.bullet = p.bullet ∧ q.level = p.level ∧ (p.isEmpty = false → q.isEmpty = false)

namespace Keeps

theorem refl (b : TextBody) : b.Keeps b := fun _ p atI => ⟨p, atI, rfl, rfl, id⟩

theorem trans (first : b.Keeps c) (later : c.Keeps d) : b.Keeps d := by
  intro i p atI
  obtain ⟨q, atQ, bullet, level, text⟩ := first i p atI
  obtain ⟨r, atR, sameBullet, sameLevel, sameText⟩ := later i q atQ
  exact ⟨r, atR, sameBullet.trans bullet, sameLevel.trans level, sameText ∘ text⟩

theorem pushPiece (b : TextBody) (face : Face) (hidden : Bool) (piece : List Char) :
    b.Keeps (b.pushPiece face hidden piece) := by
  intro i p atI
  rw [TextBody.pushPiece, push, mapCurrent, writable_eq atI, mapLast_getElem?, atI]
  split
  · exact ⟨_, rfl, (p.push_label _ face hidden).1, (p.push_label _ face hidden).2,
      fun nonempty => p.push_isEmpty nonempty _ face hidden⟩
  · exact ⟨p, rfl, rfl, rfl, id⟩

theorem breakParagraph (b : TextBody) : b.Keeps b.breakParagraph := by
  intro i p atI
  rw [TextBody.breakParagraph, writable_eq atI, List.getElem?_append_left (List.getElem?_eq_some_iff.mp atI).1]
  exact ⟨p, atI, rfl, rfl, id⟩

theorem pieces (face : Face) (hidden : Bool) (pieces : List (List Char)) (b : TextBody) :
    b.Keeps (pieces.foldl (fun b piece => b.breakParagraph.pushPiece face hidden piece) b) := by
  induction pieces generalizing b with
  | nil => exact refl b
  | cons piece rest ih => exact ((breakParagraph b).trans (pushPiece _ face hidden piece)).trans (ih _)

/-- Text is written at the end, in the last paragraph and in new ones. -/
theorem append (b : TextBody) (text : String) (face : Face) (hidden : Bool) : b.Keeps (b.append text face hidden) := by
  unfold TextBody.append
  dsimp only
  split
  · exact refl b
  · exact (pushPiece b face hidden _).trans (pieces face hidden _ _)

theorem length_le (keeps : b.Keeps c) : b.paragraphs.length ≤ c.paragraphs.length := by
  refine Nat.le_of_not_lt fun fewer => ?_
  obtain ⟨q, atQ, _⟩ := keeps _ _ (List.getElem?_eq_getElem fewer)
  exact Nat.lt_irrefl _ (List.getElem?_eq_some_iff.mp atQ).1

end Keeps

/-- Paragraph `i` has this bullet and this level, and no list item takes it over. -/
def Settled (b : TextBody) (i : Nat) (bullet : Option Bullet) (level : Nat) : Prop :=
  ∃ p, b.paragraphs[i]? = some p ∧ p.bullet = bullet ∧ p.level = level ∧
    (b.paragraphs.length = i + 1 → p.isUntouched = false)

/-- A paragraph with a bullet is not taken over, though it is empty. -/
theorem StartsAt.settled {bullet : Bullet} (starts : b.StartsAt i (some bullet) level) :
    b.Settled i (some bullet) level := by
  obtain ⟨p, atI, sameBullet, sameLevel⟩ := starts.labelled
  refine ⟨p, atI, sameBullet, sameLevel, fun _ => ?_⟩
  rw [Paragraph.isUntouched, sameBullet, Option.isNone_some, Bool.and_false]

namespace Settled

theorem labelled (settled : b.Settled i bullet level) : b.Labelled i bullet level := by
  obtain ⟨p, atI, sameBullet, sameLevel, _⟩ := settled
  exact ⟨p, atI, sameBullet, sameLevel⟩

theorem keeps (settled : b.Settled i bullet level) (keeps : b.Keeps c) : c.Settled i bullet level := by
  obtain ⟨p, atI, rfl, rfl, kept⟩ := settled
  obtain ⟨q, atQ, sameBullet, sameLevel, text⟩ := keeps i p atI
  refine ⟨q, atQ, sameBullet, sameLevel, fun last => ?_⟩
  have longer := keeps.length_le
  have inside := (List.getElem?_eq_some_iff.mp atI).1
  have touched := kept (by omega)
  unfold Paragraph.isUntouched at touched ⊢
  rw [sameBullet]
  rcases empty : p.isEmpty with _ | _
  · rw [text empty, Bool.false_and]
  · rw [empty, Bool.true_and] at touched
    rw [touched, Bool.and_false]

/-- The next paragraph of a list is a new one, or one behind that is taken over. -/
theorem startParagraph (settled : b.Settled i bullet level) (other : Option Bullet) (otherLevel : Nat) (size : Float32) :
    (b.startParagraph other otherLevel size).Settled i bullet level := by
  obtain ⟨p, atI, sameBullet, sameLevel, kept⟩ := settled
  have inside := (List.getElem?_eq_some_iff.mp atI).1
  unfold TextBody.startParagraph
  rw [writable_eq atI]
  dsimp only
  split
  · rename_i untouched
    have later : i + 1 ≠ b.paragraphs.length := fun last => by
      rw [current_eq atI last.symm, kept last.symm] at untouched
      cases untouched
    refine ⟨p, ?_, sameBullet, sameLevel, fun last => absurd (last.symm.trans (mapLast_length _ _)) later⟩
    rw [mapLast_getElem?, if_neg later, atI]
  · have later : i + 1 ≠ (b.paragraphs ++ [Paragraph.empty size]).length := by
      rw [List.length_append, List.length_singleton]
      omega
    refine ⟨p, ?_, sameBullet, sameLevel, fun last => absurd (last.symm.trans (mapLast_length _ _)) later⟩
    rw [mapLast_getElem?, if_neg later, List.getElem?_append_left inside, atI]

/-- A list that opens takes the bullet of an empty paragraph only. -/
theorem mapCurrent_unmarked (settled : b.Settled i bullet level)
    (text : bullet ≠ none → b.paragraphs.length = i + 1 → b.current.isEmpty = false) :
    (b.mapCurrent fun p => if p.isEmpty then { p with bullet := none } else p).Settled i bullet level := by
  obtain ⟨p, atI, rfl, sameLevel, kept⟩ := settled
  refine ⟨p, ?_, rfl, sameLevel, fun last => kept ?_⟩
  · rw [mapCurrent, writable_eq atI, mapLast_getElem?, atI]
    split
    · rename_i last
      have nonempty : p.isEmpty = false := by
        rcases marked : p.bullet with _ | mark
        · have touched := kept last.symm
          rwa [Paragraph.isUntouched, marked, Option.isNone_none, Bool.and_true] at touched
        · rw [← current_eq atI last.symm]
          exact text (by rw [marked]; exact Option.some_ne_none mark) last.symm
      simp [nonempty]
    · rfl
  · rwa [mapCurrent, writable_eq atI, mapLast_length] at last

end Settled

theorem dropReturns_ne_nil {c : Char} {cs : List Char} (inside : c ∈ cs) (other : c ≠ '\r') : dropReturns cs ≠ [] := by
  intro empty
  have returns := List.dropWhile_eq_nil_iff.mp (List.reverse_eq_nil_iff.mp empty) c (List.mem_reverse.mpr inside)
  exact other (of_decide_eq_true returns)

theorem mem_dropLineBreak {c : Char} {cs : List Char} (inside : c ∈ cs) (noBreak : c ≠ '\n') (noReturn : c ≠ '\r') :
    c ∈ dropLineBreak cs := by
  unfold dropLineBreak
  split
  · simpa [noBreak, noReturn] using inside
  · simpa [noBreak] using inside
  · exact inside

/-- Text that does more than to break lines settles the paragraph that it is written into: it stands in it, or in one
behind. -/
theorem StartsAt.append (starts : b.StartsAt i bullet level) {text : String}
    (nonempty : ∃ c ∈ text.toList, c ≠ '\n' ∧ c ≠ '\r') (face : Face) (hidden : Bool) :
    (b.append text face hidden).Settled i bullet level := by
  obtain ⟨c, inside, noBreak, noReturn⟩ := nonempty
  obtain ⟨p, atI, sameBullet, sameLevel⟩ := starts.labelled
  obtain ⟨piece, atPiece, within⟩ := Text.mem_pieces (mem_dropLineBreak inside noBreak noReturn) noBreak
  unfold TextBody.append
  rw [starts.empty, if_pos rfl]
  dsimp only
  cases found : Text.pieces '\n' (dropLineBreak text.toList) with
  | nil => exact absurd found (Text.pieces_ne_nil _ _)
  | cons first rest =>
    have pushed := Keeps.pushPiece b face hidden first
    cases rest with
    | nil =>
      -- the only piece has the character
      rw [found] at atPiece
      obtain rfl := List.mem_singleton.mp atPiece
      have written : (String.ofList (dropReturns piece)).toList ≠ [] := by
        rw [String.toList_ofList]
        exact dropReturns_ne_nil within noReturn
      have atPushed : (b.pushPiece face hidden piece).paragraphs[i]? =
          some (p.push (String.ofList (dropReturns piece)) face hidden) := by
        rw [pushPiece, push, mapCurrent, writable_eq atI, mapLast_getElem?, if_pos starts.last.symm, atI]
        rfl
      refine ⟨_, atPushed, (p.push_label _ face hidden).1.trans sameBullet,
        (p.push_label _ face hidden).2.trans sameLevel, fun _ => ?_⟩
      rw [Paragraph.isUntouched, p.push_some written, Bool.false_and]
    | cons second more =>
      -- the second piece starts a paragraph behind
      obtain ⟨q, atQ, bulletQ, levelQ, _⟩ := (pushed.trans (Keeps.breakParagraph _)) i p atI
      have longer : (b.pushPiece face hidden first).breakParagraph.paragraphs.length ≠ i + 1 := by
        have kept := pushed.length_le
        obtain ⟨r, atR, _⟩ := pushed i p atI
        rw [breakParagraph, writable_eq atR, List.length_append, List.length_singleton]
        have whole := starts.last
        omega
      have broken : (b.pushPiece face hidden first).breakParagraph.Settled i bullet level :=
        ⟨q, atQ, bulletQ.trans sameBullet, levelQ.trans sameLevel, fun last => absurd last longer⟩
      exact broken.keeps ((Keeps.pushPiece _ face hidden second).trans (Keeps.pieces face hidden more _))

end TextBody

end Unveil
