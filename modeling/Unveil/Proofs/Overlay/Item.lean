import Unveil.Overlay
import Unveil.Proofs.Numeral
import Unveil.Proofs.Text

namespace Unveil.OverlayItem

/-- The forms of an item that is well formed. -/
inductive Form where
  /-- `n` -/
  | alone (n : Nat)
  /-- `-n` -/
  | upTo (n : Nat)
  /-- `n-` -/
  | onward (n : Nat)
  /-- `a-b` -/
  | range (a b : Nat)
  deriving Repr, DecidableEq

/-- A number that is written with room in 32 bits. -/
def Number (cs : List Char) (n : Nat) : Prop := Numeral.Unsigned cs n ∧ n < Numeral.bound32

/-- How a form is written. Between the ends of a range there may be blanks and more dashes; a range that
does not descend may not be long. -/
inductive Written : List Char → Form → Prop
  | alone {cs : List Char} {n : Nat} : Number cs n → Written cs (.alone n)
  | upTo {cs : List Char} {n : Nat} : Number (Text.trim cs) n → 0 < n → Written ('-' :: cs) (.upTo n)
  | onward {cs : List Char} {n : Nat} :
      Number (Text.trim cs) n → 0 < n → Written (cs ++ ['-']) (.onward n)
  | range {first gap last : List Char} {a b : Nat} : Number first a → Number last b → '-' ∈ gap →
      (∀ c ∈ gap, c = '-' ∨ Text.isBlank c) → b < a ∨ b - a ≤ 1024 →
      Written (first ++ gap ++ last) (.range a b)

/-- What a form is read as. -/
def Form.item : Form → OverlayItem
  | alone n => single n
  | upTo n => single n
  | onward n => OverlayItem.onward n
  | range a b => if b < a then after a else span a b

theorem isDigit_or_plus {cs : List Char} {n : Nat} (number : Numeral.Unsigned cs n) :
    cs ≠ [] ∧ ∀ c ∈ cs, c.isDigit ∨ c = '+' := by
  cases number with
  | bare decimal => exact ⟨decimal.ne_nil, fun c inside => .inl (decimal.digits c inside)⟩
  | plus decimal =>
    refine ⟨List.cons_ne_nil _ _, List.forall_mem_cons.mpr ⟨.inr rfl, fun c inside => ?_⟩⟩
    exact .inl (decimal.digits c inside)

/-- No character of a number is a dash or a blank. -/
theorem Number.solid {cs : List Char} {n : Nat} (number : Number cs n) :
    cs ≠ [] ∧ ∀ c ∈ cs, Text.Solid '-' c := by
  obtain ⟨nonempty, all⟩ := isDigit_or_plus number.1
  refine ⟨nonempty, fun c inside => ?_⟩
  rcases all c inside with digit | rfl
  · exact ⟨fun dash => absurd (dash ▸ digit) (by decide), Text.isBlank_of_isDigit digit⟩
  · exact ⟨by decide, by decide⟩

theorem Number.entry {cs : List Char} {n : Nat} (number : Number cs n) : Text.Entry '-' cs := by
  obtain ⟨nonempty, solid⟩ := number.solid
  refine ⟨nonempty, ⟨fun c head => ?_, fun c last => ?_⟩, fun inside => (solid _ inside).1 rfl⟩
  · exact (solid c (List.mem_of_mem_head? head)).2
  · exact (solid c (List.mem_of_getLast? last)).2

theorem Number.unsigned {cs : List Char} {n : Nat} (number : Number cs n) : cs.head? ≠ some '-' :=
  fun head => number.entry.whole (List.mem_of_mem_head? head)

theorem int32?_eq_some_iff {cs : List Char} {v : Int} (whole : '-' ∉ cs) :
    Numeral.int32? cs = some v ↔ ∃ n : Nat, Number cs n ∧ v = n := by
  have unsigned : cs.head? ≠ some '-' := fun head => whole (List.mem_of_mem_head? head)
  simp only [Numeral.int32?_eq_some_iff unsigned, Number, and_assoc]

/-- What is behind a dash or before one has to be more than zero, so it has no sign of its own. -/
theorem positive?_eq_some_iff {cs : List Char} {n : Nat} :
    positive? cs = some n ↔ Number (Text.trim cs) n ∧ 0 < n := by
  have found : positive? cs = some n ↔ ∃ v, Numeral.int32? (Text.trim cs) = some v ∧ 0 < v ∧ v.toNat = n := by
    simp only [positive?, Option.map_eq_some_iff, Option.filter_eq_some_iff, decide_eq_true_eq, and_assoc]
  rw [found]
  by_cases signed : (Text.trim cs).head? = some '-'
  · refine iff_of_false ?_ fun number => number.1.unsigned signed
    rintro ⟨v, read, positive, _⟩
    obtain ⟨rest, cut⟩ := List.head?_eq_some_iff.mp signed
    rw [cut] at read
    have nonpos := Numeral.int32?_nonpos read
    omega
  · simp only [Numeral.int32?_eq_some_iff signed]
    constructor
    · rintro ⟨v, ⟨m, written, room, rfl⟩, positive, rfl⟩
      exact ⟨⟨written, room⟩, by omega⟩
    · rintro ⟨⟨written, room⟩, positive⟩
      exact ⟨n, ⟨n, written, room, rfl⟩, by omega, by omega⟩

/-- Two ends make a range, unless they lie too far apart. -/
theorem between?_eq_some_iff {a b : Nat} {item : OverlayItem} :
    between? a b = some item ↔ (b < a ∨ b - a ≤ 1024) ∧ (Form.range a b).item = item := by
  unfold between? Form.item maxSpan
  by_cases descends : b < a
  · simp [descends]
  · by_cases long : 1024 < b - a
    · simp [descends, long, Nat.not_le.mpr long]
    · simp [descends, long, Nat.not_lt.mp long]

/-- A number behind a dash or before one does not start with another dash. -/
theorem Number.head_of_trim {cs : List Char} {n : Nat} (number : Number (Text.trim cs) n) :
    ∃ c rest, cs = c :: rest ∧ c ≠ '-' := by
  obtain ⟨nonempty, solid⟩ := number.solid
  cases cs with
  | nil => exact absurd rfl nonempty
  | cons c rest =>
    refine ⟨c, rest, rfl, ?_⟩
    rintro rfl
    have dark (c : Char) (head : ('-' :: rest).head? = some c) : Text.isBlank c = false := by
      cases Option.some.inj head
      rfl
    obtain ⟨right, _, whole⟩ := Text.exists_trim_of_head dark
    cases trimmed : Text.trim ('-' :: rest) with
    | nil => exact nonempty trimmed
    | cons d more =>
      rw [trimmed] at whole solid
      exact (solid d List.mem_cons_self).1 (List.cons.inj whole).1.symm

theorem Written.ne_nil {cs : List Char} {form : Form} (written : Written cs form) : cs ≠ [] := by
  cases written with
  | alone number => exact number.entry.ne_nil
  | upTo => exact List.cons_ne_nil _ _
  | onward => exact List.append_ne_nil_of_right_ne_nil _ (List.cons_ne_nil _ _)
  | range _ two => exact List.append_ne_nil_of_right_ne_nil _ two.entry.ne_nil

/-- An item with its dashes inside is read if it has two ends. -/
theorem read?_inner {cs : List Char} {item : OverlayItem} (inner : '-' ∈ cs) (head : cs.head? ≠ some '-')
    (last : cs.getLast? ≠ some '-') :
    read? cs = some item ↔ ∃ first last a b, Text.entries '-' cs = [first, last] ∧
      Numeral.int32? first = some a ∧ Numeral.int32? last = some b ∧
        between? a.toNat b.toNat = some item := by
  simp only [read?, inner, not_true, if_false, head, last]
  constructor
  · intro read
    split at read
    · rename_i first last entries
      split at read
      · rename_i a b one two
        exact ⟨first, last, a, b, entries, one, two, read⟩
      · cases read
    · cases read
  · rintro ⟨first, last, a, b, entries, one, two, read⟩
    simp only [entries, one, two, read]

/-- What is written in one of the forms is read. -/
theorem Written.read?_eq {cs : List Char} {form : Form} (written : Written cs form) :
    read? cs = some form.item := by
  cases written with
  | @alone cs n number =>
    have read := (int32?_eq_some_iff number.entry.whole).mpr ⟨n, number, rfl⟩
    simp [read?, number.entry.whole, read, Form.item]
  | @upTo cs n number positive =>
    have read := positive?_eq_some_iff.mpr ⟨number, positive⟩
    simp [read?, read, Form.item]
  | @onward cs n number positive =>
    have read := positive?_eq_some_iff.mpr ⟨number, positive⟩
    obtain ⟨c, rest, rfl, other⟩ := number.head_of_trim
    have head : (c :: rest ++ ['-']).head? ≠ some '-' := fun same => other (Option.some.inj same)
    rw [read?, if_neg (by simp), if_neg head, if_pos List.getLast?_concat, List.dropLast_concat, read]
    rfl
  | @range first gap last a b one two inner filler room =>
    have head : (first ++ gap ++ last).head? ≠ some '-' := by
      rw [List.append_assoc, List.head?_append_of_ne_nil _ one.entry.ne_nil]
      exact one.unsigned
    have unsigned : (first ++ gap ++ last).getLast? ≠ some '-' := by
      rw [List.getLast?_append_of_ne_nil _ two.entry.ne_nil]
      exact fun last => two.entry.whole (List.mem_of_getLast? last)
    refine (read?_inner (by simp [inner]) head unsigned).mpr
      ⟨first, last, a, b, Text.entries_pair one.entry two.entry filler inner, ?_, ?_, ?_⟩
    · exact (int32?_eq_some_iff one.entry.whole).mpr ⟨a, one, rfl⟩
    · exact (int32?_eq_some_iff two.entry.whole).mpr ⟨b, two, rfl⟩
    · exact between?_eq_some_iff.mpr ⟨room, rfl⟩

/-- An item is read exactly when it is written in one of the forms. -/
theorem read?_eq_some_iff {cs : List Char} {item : OverlayItem} (tight : Text.Tight cs) :
    read? cs = some item ↔ ∃ form, Written cs form ∧ form.item = item := by
  refine ⟨fun read => ?_, fun ⟨form, written, same⟩ => same ▸ written.read?_eq⟩
  by_cases inner : '-' ∈ cs
  · by_cases head : cs.head? = some '-'
    · obtain ⟨rest, rfl⟩ := List.head?_eq_some_iff.mp head
      rw [read?, if_neg (not_not.mpr inner), if_pos head, List.tail_cons, Option.map_eq_some_iff] at read
      obtain ⟨n, read, rfl⟩ := read
      obtain ⟨number, positive⟩ := positive?_eq_some_iff.mp read
      exact ⟨.upTo n, .upTo number positive, rfl⟩
    · by_cases last : cs.getLast? = some '-'
      · obtain ⟨rest, rfl⟩ := List.getLast?_eq_some_iff.mp last
        rw [read?, if_neg (not_not.mpr inner), if_neg head, if_pos last, List.dropLast_concat,
          Option.map_eq_some_iff] at read
        obtain ⟨n, read, rfl⟩ := read
        obtain ⟨number, positive⟩ := positive?_eq_some_iff.mp read
        exact ⟨.onward n, .onward number positive, rfl⟩
      · obtain ⟨first, final, v, w, entries, readFirst, readLast, room⟩ :=
          (read?_inner inner head last).mp read
        obtain ⟨gap, filler, dash, one, two, whole⟩ := Text.exists_gap entries
          (fun c member => ⟨fun same => head (same ▸ member), tight.head c member⟩)
          (fun c member => ⟨fun same => last (same ▸ member), tight.last c member⟩)
        obtain ⟨a, numberFirst, rfl⟩ := (int32?_eq_some_iff one.whole).mp readFirst
        obtain ⟨b, numberLast, rfl⟩ := (int32?_eq_some_iff two.whole).mp readLast
        obtain ⟨bound, same⟩ := between?_eq_some_iff.mp room
        exact ⟨.range a b, whole ▸ .range numberFirst numberLast dash filler bound, same⟩
  · rw [read?, if_pos inner, Option.map_eq_some_iff] at read
    obtain ⟨v, read, rfl⟩ := read
    obtain ⟨n, number, rfl⟩ := (int32?_eq_some_iff inner).mp read
    exact ⟨.alone n, .alone number, rfl⟩

end Unveil.OverlayItem
