import Mathlib.Data.List.DropRight
import Unveil.Text.Blank

namespace Unveil.Text

/-- A text without blanks at its two ends. -/
structure Tight (cs : List Char) : Prop where
  head : ∀ c, cs.head? = some c → isBlank c = false
  last : ∀ c, cs.getLast? = some c → isBlank c = false

/-- Blanks only. -/
def Blank (cs : List Char) : Prop := ∀ c ∈ cs, isBlank c = true

theorem isBlank_of_isDigit {c : Char} (digit : c.isDigit) : isBlank c = false := by
  simp only [Char.isDigit, Bool.and_eq_true, decide_eq_true_eq, UInt32.le_iff_toNat_le] at digit
  have below : c.toNat ≤ 57 := digit.2
  have above : 48 ≤ c.toNat := digit.1
  simp only [isBlank, Bool.or_eq_false_iff, Bool.and_eq_false_iff, decide_eq_false_iff_not,
    beq_eq_false_iff_ne]
  omega

theorem dropWhile_append {cs more : List Char} (blank : Blank cs) :
    (cs ++ more).dropWhile isBlank = more.dropWhile isBlank :=
  List.dropWhile_append_of_pos blank

theorem dropWhile_tight {cs more : List Char} (nonempty : cs ≠ []) (tight : Tight cs) :
    (cs ++ more).dropWhile isBlank = cs ++ more := by
  cases cs with
  | nil => exact absurd rfl nonempty
  | cons c rest => simp [tight.head c rfl]

theorem Tight.reverse {cs : List Char} (tight : Tight cs) : Tight cs.reverse := by
  refine ⟨fun c head => tight.last c ?_, fun c last => tight.head c ?_⟩
  · rwa [List.head?_reverse] at head
  · rwa [List.getLast?_reverse] at last

theorem Blank.reverse {cs : List Char} (blank : Blank cs) : Blank cs.reverse :=
  fun c inside => blank c (List.mem_reverse.mp inside)

/-- What stands between blanks is left. -/
theorem trim_append {left text right : List Char} (before : Blank left) (tight : Tight text)
    (after : Blank right) : trim (left ++ text ++ right) = text := by
  by_cases empty : text = []
  · subst empty
    have all : (left ++ right).dropWhile isBlank = [] := by
      rw [dropWhile_append before]
      exact List.dropWhile_eq_nil_iff.mpr after
    rw [trim, List.append_nil, all]
    rfl
  · have back : text.reverse ≠ [] := by simpa using empty
    rw [trim, List.append_assoc, dropWhile_append before, dropWhile_tight empty tight,
      List.reverse_append, dropWhile_append after.reverse]
    have kept : (text.reverse ++ []).dropWhile isBlank = text.reverse ++ [] :=
      dropWhile_tight back tight.reverse
    rw [List.append_nil] at kept
    rw [kept, List.reverse_reverse]

theorem trim_append_right {text right : List Char} (tight : Tight text) (after : Blank right) :
    trim (text ++ right) = text :=
  trim_append (nofun : Blank []) tight after

/-- What is left of a text has no blanks at its ends. -/
theorem trim_tight (cs : List Char) : Tight (trim cs) := by
  have cut : trim cs = (cs.dropWhile isBlank).rdropWhile isBlank := rfl
  refine ⟨fun c head => ?_, fun c last => ?_⟩
  · obtain ⟨rest, whole⟩ := List.rdropWhile_prefix isBlank (l := cs.dropWhile isBlank)
    rw [← cut] at whole
    have same : (cs.dropWhile isBlank).head? = some c := by
      rw [← whole, List.head?_append, head]
      rfl
    have first := List.head?_dropWhile_not isBlank cs
    rw [same] at first
    exact first
  · rw [cut] at last
    have nonempty : (cs.dropWhile isBlank).rdropWhile isBlank ≠ [] := by
      intro empty
      rw [empty] at last
      cases last
    have tail := List.rdropWhile_last_not isBlank _ nonempty
    rw [List.getLast?_eq_getLast_of_ne_nil nonempty] at last
    rw [Option.some.inj last] at tail
    simpa using tail

/-- Only blanks are lost. -/
theorem exists_trim (cs : List Char) :
    ∃ left right, Blank left ∧ Blank right ∧ cs = left ++ trim cs ++ right := by
  refine ⟨cs.takeWhile isBlank, (cs.dropWhile isBlank).rtakeWhile isBlank, ?_, ?_, ?_⟩
  · exact fun c inside => List.mem_takeWhile_imp inside
  · exact fun c inside => List.mem_rtakeWhile_imp inside
  · have back : trim cs ++ (cs.dropWhile isBlank).rtakeWhile isBlank = cs.dropWhile isBlank :=
      List.rdropWhile_append_rtakeWhile
    rw [List.append_assoc, back, List.takeWhile_append_dropWhile]

/-- Nothing is left of blanks only. -/
theorem trim_eq_nil_iff {cs : List Char} : trim cs = [] ↔ Blank cs := by
  refine ⟨fun empty => ?_, fun blank => ?_⟩
  · obtain ⟨left, right, before, after, whole⟩ := exists_trim cs
    rw [empty, List.append_nil] at whole
    intro c inside
    rw [whole] at inside
    exact (List.mem_append.mp inside).elim (before c) (after c)
  · have empty : trim (cs ++ [] ++ []) = [] := trim_append blank ⟨nofun, nofun⟩ nofun
    simpa using empty

theorem trim_cons {c : Char} (blank : isBlank c = true) (cs : List Char) : trim (c :: cs) = trim cs := by
  rw [trim, List.dropWhile_cons_of_pos blank]
  rfl

/-- A text that starts with no blank is only cut at its end. -/
theorem exists_trim_of_head {cs : List Char} (head : ∀ c, cs.head? = some c → isBlank c = false) :
    ∃ right, Blank right ∧ cs = trim cs ++ right := by
  obtain ⟨left, right, before, after, whole⟩ := exists_trim cs
  cases left with
  | nil => exact ⟨right, after, by simpa using whole⟩
  | cons c more =>
    have dark := head c (by rw [whole]; rfl)
    have blank := before c List.mem_cons_self
    rw [blank] at dark
    cases dark

section Pieces

variable {sep : Char}

theorem pieces_eq_splitOn (cs : List Char) : pieces sep cs = cs.splitOn sep := by
  induction cs with
  | nil => simp [pieces]
  | cons c rest ih =>
    rw [pieces, List.splitOn_eq_splitOnP, List.splitOnP_cons_eq_if_modifyHead, ← List.splitOn_eq_splitOnP,
      ← ih]
    by_cases same : c = sep
    · simp [same]
    · simp only [same, if_false, beq_iff_eq]
      cases cut : pieces sep rest with
      | nil => exact absurd cut (pieces_ne_nil sep rest)
      | cons piece more => rfl

theorem pieces_of_notMem {cs : List Char} (absent : sep ∉ cs) : pieces sep cs = [cs] := by
  induction cs with
  | nil => rfl
  | cons c rest ih =>
    rw [List.mem_cons, not_or] at absent
    obtain ⟨other, later⟩ := absent
    rw [pieces, if_neg (Ne.symm other), ih later]

/-- Text up to the first separator is a piece. -/
theorem pieces_append {first : List Char} (absent : sep ∉ first) (rest : List Char) :
    pieces sep (first ++ sep :: rest) = first :: pieces sep rest := by
  induction first with
  | nil => simp [pieces]
  | cons c more ih =>
    rw [List.mem_cons, not_or] at absent
    obtain ⟨other, later⟩ := absent
    rw [List.cons_append, pieces, if_neg (Ne.symm other), ih later]

theorem notMem_of_mem_pieces {cs piece : List Char} (atPiece : piece ∈ pieces sep cs) :
    sep ∉ piece := by
  induction cs generalizing piece with
  | nil =>
    cases List.mem_singleton.mp atPiece
    exact List.not_mem_nil
  | cons c rest ih =>
    rw [pieces] at atPiece
    split at atPiece
    · rcases List.mem_cons.mp atPiece with rfl | later
      · exact List.not_mem_nil
      · exact ih later
    · rename_i other
      cases found : pieces sep rest with
      | nil => exact absurd found (pieces_ne_nil sep rest)
      | cons first more =>
        rw [found] at atPiece
        rcases List.mem_cons.mp atPiece with rfl | later
        · exact List.not_mem_cons_of_ne_of_not_mem (Ne.symm other) (ih (found ▸ .head _))
        · exact ih (found ▸ .tail _ later)

/-- What is no separator is in a piece. -/
theorem mem_pieces {c : Char} {cs : List Char} (inside : c ∈ cs) (other : c ≠ sep) :
    ∃ piece ∈ pieces sep cs, c ∈ piece := by
  induction cs with
  | nil => cases inside
  | cons first rest ih =>
    rw [pieces]
    split
    · rename_i same
      have later : c ∈ rest := (List.mem_cons.mp inside).resolve_left fun here => other (here.trans same)
      obtain ⟨piece, atPiece, within⟩ := ih later
      exact ⟨piece, .tail _ atPiece, within⟩
    · cases found : pieces sep rest with
      | nil => exact absurd found (pieces_ne_nil sep rest)
      | cons piece more =>
        rcases List.mem_cons.mp inside with rfl | later
        · exact ⟨c :: piece, .head _, .head _⟩
        · obtain ⟨q, atQ, within⟩ := ih later
          rw [found] at atQ
          rcases List.mem_cons.mp atQ with rfl | behind
          · exact ⟨first :: q, .head _, .tail _ within⟩
          · exact ⟨q, .tail _ behind, within⟩

/-- Separators and blanks only. -/
def Filler (sep : Char) (cs : List Char) : Prop := ∀ c ∈ cs, c = sep ∨ isBlank c = true

theorem Blank.filler {cs : List Char} (blank : Blank cs) : Filler sep cs := fun c inside => .inr (blank c inside)

/-- Separators and blanks in front make no entry. -/
theorem entries_cons {c : Char} (filler : c = sep ∨ isBlank c = true) (cs : List Char) :
    entries sep (c :: cs) = entries sep cs := by
  by_cases same : c = sep
  · simp [entries, pieces, same, trim]
  · have blank := filler.resolve_left same
    rw [entries, pieces, if_neg same, entries]
    cases cut : pieces sep cs with
    | nil => exact absurd cut (pieces_ne_nil sep cs)
    | cons piece more => simp only [List.map_cons, trim_cons blank]

/-- What stands before the first entry has no effect. -/
theorem entries_filler {gap : List Char} (filler : Filler sep gap) (cs : List Char) :
    entries sep (gap ++ cs) = entries sep cs := by
  induction gap with
  | nil => rfl
  | cons c rest ih =>
    obtain ⟨first, later⟩ := List.forall_mem_cons.mp filler
    rw [List.cons_append, entries_cons first, ih later]

/-- An entry as it stands in a list. -/
structure Entry (sep : Char) (cs : List Char) : Prop where
  ne_nil : cs ≠ []
  tight : Tight cs
  whole : sep ∉ cs

theorem Entry.entries_append {first right : List Char} (entry : Entry sep first) (after : Blank right)
    (absent : sep ∉ right) (rest : List Char) :
    entries sep (first ++ right ++ sep :: rest) = first :: entries sep rest := by
  have whole : sep ∉ first ++ right := by simp [entry.whole, absent]
  rw [entries, pieces_append whole, List.map_cons, trim_append_right entry.tight after,
    List.filter_cons_of_pos (by simpa using entry.ne_nil)]
  rfl

theorem Entry.entries_last {last right : List Char} (entry : Entry sep last) (after : Blank right)
    (absent : sep ∉ right) : entries sep (last ++ right) = [last] := by
  have whole : sep ∉ last ++ right := by simp [entry.whole, absent]
  rw [entries, pieces_of_notMem whole, List.map_singleton, trim_append_right entry.tight after]
  simp [entry.ne_nil]

/-- Two entries with filler between them. -/
theorem entries_pair {first gap last : List Char} (one : Entry sep first) (two : Entry sep last)
    (filler : Filler sep gap) (inside : sep ∈ gap) :
    entries sep (first ++ gap ++ last) = [first, last] := by
  obtain ⟨right, more, cut, absent⟩ := List.eq_append_cons_of_mem inside
  have blank : Blank right := by
    intro c atC
    refine (filler c (cut ▸ List.mem_append_left _ atC)).resolve_left fun same => absent (same ▸ atC)
  have later : Filler sep more := fun c atC => filler c (cut ▸ List.mem_append_right _ (.tail _ atC))
  have assoc : first ++ gap ++ last = first ++ right ++ sep :: (more ++ last) := by simp [cut]
  have alone : entries sep (last ++ []) = [last] := two.entries_last nofun nofun
  rw [List.append_nil] at alone
  rw [assoc, one.entries_append blank absent, entries_filler later, alone]

/-- What comes before the first entry, the entry itself, and what comes after it. -/
inductive Cut (sep : Char) : List Char → List (List Char) → Prop
  | filler {cs : List Char} : Filler sep cs → Cut sep cs []
  | last {gap entry right : List Char} : Filler sep gap → Entry sep entry → Blank right →
      Cut sep (gap ++ (entry ++ right)) [entry]
  | entry {gap entry right rest : List Char} {more : List (List Char)} : Filler sep gap →
      Entry sep entry → Blank right → entries sep rest = more →
      Cut sep (gap ++ (entry ++ right ++ sep :: rest)) (entry :: more)

theorem entry_of_head {piece : List Char} {c : Char} (head : piece.head? = some c)
    (dark : isBlank c = false) (absent : sep ∉ piece) :
    ∃ entry right, Entry sep entry ∧ Blank right ∧ sep ∉ right ∧ piece = entry ++ right := by
  obtain ⟨right, after, whole⟩ :=
    exists_trim_of_head fun d member => Option.some.inj (head.symm.trans member) ▸ dark
  rw [whole, List.mem_append, not_or] at absent
  refine ⟨trim piece, right, ⟨fun empty => ?_, trim_tight piece, absent.1⟩, after, absent.2, whole⟩
  have blank := trim_eq_nil_iff.mp empty c (List.mem_of_mem_head? head)
  rw [blank] at dark
  cases dark

/-- A text that starts with an entry. -/
theorem cut_of_head {c : Char} {rest : List Char} (other : c ≠ sep) (dark : isBlank c = false) :
    Cut sep (c :: rest) (entries sep (c :: rest)) := by
  by_cases inside : sep ∈ c :: rest
  · obtain ⟨piece, more, cut, absent⟩ := List.eq_append_cons_of_mem inside
    have head : piece.head? = some c := by
      cases piece with
      | nil => exact absurd (List.cons.inj cut).1 other
      | cons d _ => rw [(List.cons.inj cut).1]; rfl
    obtain ⟨entry, right, found, after, clear, rfl⟩ := entry_of_head head dark absent
    rw [cut, found.entries_append after clear]
    exact .entry (nofun : Filler sep []) found after rfl
  · obtain ⟨entry, right, found, after, clear, whole⟩ :=
      entry_of_head (rfl : (c :: rest).head? = some c) dark inside
    rw [whole, found.entries_last after clear]
    exact .last (nofun : Filler sep []) found after

/-- Every text is filler with entries in it. -/
theorem entries_cut (sep : Char) (cs : List Char) : Cut sep cs (entries sep cs) := by
  induction cs with
  | nil => exact .filler nofun
  | cons c rest ih =>
    by_cases filler : c = sep ∨ isBlank c = true
    · rw [entries_cons filler]
      have front {gap : List Char} (later : Filler sep gap) : Filler sep (c :: gap) :=
        List.forall_mem_cons.mpr ⟨filler, later⟩
      generalize entries sep rest = found at ih
      cases ih with
      | filler later => exact .filler (front later)
      | last later entry after => exact .last (front later) entry after
      | entry later entry after more => exact .entry (front later) entry after more
    · rw [not_or, Bool.not_eq_true] at filler
      exact cut_of_head filler.1 filler.2

/-- A character that belongs to an entry. -/
def Solid (sep c : Char) : Prop := c ≠ sep ∧ isBlank c = false

theorem Filler.eq_nil_of_head {gap rest : List Char} (filler : Filler sep gap)
    (head : ∀ c, (gap ++ rest).head? = some c → Solid sep c) : gap = [] := by
  cases gap with
  | nil => rfl
  | cons c more =>
    obtain ⟨other, dark⟩ := head c rfl
    have blank := (filler c List.mem_cons_self).resolve_left other
    rw [blank] at dark
    cases dark

theorem Filler.eq_nil_of_last {gap : List Char} (filler : Filler sep gap) (rest : List Char)
    (last : ∀ c, (rest ++ gap).getLast? = some c → Solid sep c) : gap = [] := by
  have back : Filler sep gap.reverse := fun c inside => filler c (List.mem_reverse.mp inside)
  have head (c : Char) (member : (gap.reverse ++ rest.reverse).head? = some c) : Solid sep c := by
    rw [← List.reverse_append, List.head?_reverse] at member
    exact last c member
  exact List.reverse_eq_nil_iff.mp (back.eq_nil_of_head head)

/-- A text of two entries that starts with the first and ends with the second. -/
theorem exists_gap {cs first last : List Char} (found : entries sep cs = [first, last])
    (head : ∀ c, cs.head? = some c → Solid sep c) (tail : ∀ c, cs.getLast? = some c → Solid sep c) :
    ∃ gap, Filler sep gap ∧ sep ∈ gap ∧ Entry sep first ∧ Entry sep last ∧ cs = first ++ gap ++ last := by
  have cut := entries_cut sep cs
  rw [found] at cut
  cases cut with
  | @entry front _ right rest _ filler one blank more =>
    cases filler.eq_nil_of_head head
    have second := entries_cut sep rest
    rw [more] at second
    cases second with
    | @last gap _ after between two blankAfter =>
      have filler : Filler sep after := blankAfter.filler
      cases filler.eq_nil_of_last (first ++ right ++ sep :: (gap ++ last)) (by simpa using tail)
      refine ⟨right ++ sep :: gap, ?_, by simp, one, two, by simp⟩
      intro c inside
      rcases List.mem_append.mp inside with inside | inside
      · exact .inr (blank c inside)
      · rcases List.mem_cons.mp inside with same | inside
        · exact .inl same
        · exact between c inside
    | @entry gap _ after left _ between two blankAfter nothing =>
      -- what follows the second entry would end the text
      have filler : Filler sep (sep :: left) := by
        have rest := entries_cut sep left
        rw [nothing] at rest
        cases rest with
        | filler rest => exact List.forall_mem_cons.mpr ⟨.inl rfl, rest⟩
      have empty := filler.eq_nil_of_last (first ++ right ++ sep :: (gap ++ (last ++ after)))
        (by simpa using tail)
      cases empty

end Pieces

end Unveil.Text
