import Unveil.ColumnSpec
import Unveil.Proofs.Except
import Unveil.Proofs.Numeral

namespace Unveil

/-- What a specification writes: the columns and the vertical lines, in order. -/
inductive ColumnMark where
  | border
  | column (spec : ColumnSpec)
  deriving Repr

namespace ColumnMark

def column? : ColumnMark → Option ColumnSpec
  | border => none
  | column spec => some spec

def columns (marks : List ColumnMark) : List ColumnSpec := marks.filterMap column?

@[simp] theorem columns_nil : columns [] = [] := rfl

@[simp] theorem columns_append (marks more : List ColumnMark) :
    columns (marks ++ more) = columns marks ++ columns more := List.filterMap_append

@[simp] theorem columns_border : columns [border] = [] := rfl

@[simp] theorem columns_column (spec : ColumnSpec) : columns [column spec] = [spec] := rfl

/-- A line is drawn at every border, after the columns that precede it. -/
def Draws (marks : List ColumnMark) (k : Nat) : Prop :=
  ∃ before after, marks = before ++ border :: after ∧ (columns before).length = k

theorem draws_concat {marks : List ColumnMark} {mark : ColumnMark} {k : Nat} :
    Draws (marks ++ [mark]) k ↔ Draws marks k ∨ mark = border ∧ (columns marks).length = k := by
  constructor
  · rintro ⟨before, after, cut, count⟩
    rcases List.eq_nil_or_concat after with rfl | ⟨after, last, rfl⟩
    · obtain ⟨rfl, same⟩ := List.append_inj' cut rfl
      exact .inr ⟨(List.cons.inj same).1, count⟩
    · rw [List.concat_eq_append, ← List.cons_append, ← List.append_assoc] at cut
      obtain ⟨rfl, _⟩ := List.append_inj' cut rfl
      exact .inl ⟨before, after, rfl, count⟩
  · rintro (⟨before, after, rfl, count⟩ | ⟨rfl, count⟩)
    · exact ⟨before, after ++ [mark], by simp, count⟩
    · exact ⟨marks, [], rfl, count⟩

end ColumnMark

namespace ColumnText

open ColumnItem (maxColumns closeGroup group readCount copiesOf)

def enclose (text : List Char) : List Char := '\x7b' :: text ++ ['\x7d']

theorem enclose_append (text rest : List Char) :
    enclose text ++ rest = '\x7b' :: (text ++ '\x7d' :: rest) := by
  simp [enclose]

/-- Pieces one after another, with braces around stretches of them. -/
inductive Sequence (piece : List Char → List ColumnMark → Prop) : List Char → List ColumnMark → Prop
  | nil : Sequence piece [] []
  | piece {first rest : List Char} {marks more : List ColumnMark} :
      piece first marks → Sequence piece rest more → Sequence piece (first ++ rest) (marks ++ more)
  | braces {inner rest : List Char} {marks more : List ColumnMark} :
      Sequence piece inner marks → Sequence piece rest more →
      Sequence piece (enclose inner ++ rest) (marks ++ more)

inductive Plain : List Char → List ColumnMark → Prop
  | intro {c : Char} : c ≠ '\x7b' → c ≠ '\x7d' → Plain [c] []

/-- Text in which braces come in pairs. -/
def Balanced (text : List Char) : Prop := Sequence Plain text []

/-- The characters that have a meaning. -/
def marked : List Char :=
  ['l', 'c', 'r', '|', 'p', 'm', 'b', '@', '!', '>', '<', '*', '\x7b', '\x7d']

/-- One item. What may stand behind the star of a repetition is a parameter. -/
inductive Item (copies : List Char → List ColumnMark → Prop) : List Char → List ColumnMark → Prop
  | border : Item copies ['|'] [.border]
  | left : Item copies ['l'] [.column ⟨.left, none⟩]
  | center : Item copies ['c'] [.column ⟨.center, none⟩]
  | right : Item copies ['r'] [.column ⟨.right, none⟩]
  | sized {owner : Char} {width : List Char} {length : Length} :
      owner ∈ ['p', 'm', 'b'] → Balanced width → Length.read? width = some length →
      Item copies (owner :: enclose width) [.column ⟨.left, some length⟩]
  | material {owner : Char} {text : List Char} :
      owner ∈ ['@', '!', '>', '<'] → Balanced text → Item copies (owner :: enclose text) []
  | copies {text : List Char} {marks : List ColumnMark} : copies text marks → Item copies ('*' :: text) marks
  | other {c : Char} : c ∉ marked → Item copies [c] []

/-- Inside a repetition there are no repetitions. -/
def NoCopies (_ : List Char) (_ : List ColumnMark) : Prop := False

/-- The two groups of a repetition. Only what is repeated at least once has to be well formed. -/
inductive Copies : List Char → List ColumnMark → Prop
  | intro {count inner : List Char} {n : Nat} {once : List ColumnMark} :
      Balanced count → Numeral.Unsigned count n → n ≤ maxColumns → Balanced inner →
      (0 < n → Sequence (Item NoCopies) inner once) →
      Copies (enclose count ++ enclose inner) (List.replicate n once).flatten

section
variable {piece : List Char → List ColumnMark → Prop}

/-- Text that closes `depth` braces that are open before it, and the marks between them. -/
inductive Closing (piece : List Char → List ColumnMark → Prop) : Nat → List Char → List ColumnMark → Prop
  | last {text : List Char} {marks : List ColumnMark} : Sequence piece text marks → Closing piece 0 text marks
  | close {inner rest : List Char} {marks more : List ColumnMark} {depth : Nat} :
      Sequence piece inner marks → Closing piece depth rest more →
      Closing piece (depth + 1) (inner ++ '\x7d' :: rest) (marks ++ more)

/-- What may stand before a sequence may stand before text that closes braces. -/
theorem Closing.prepend {first : List Char} {marks : List ColumnMark}
    (before : ∀ {text more}, Sequence piece text more → Sequence piece (first ++ text) (marks ++ more))
    {depth : Nat} {rest : List Char} {more : List ColumnMark} (closing : Closing piece depth rest more) :
    Closing piece depth (first ++ rest) (marks ++ more) := by
  cases closing with
  | last sequence => exact .last (before sequence)
  | close inner rest =>
    rw [← List.append_assoc, ← List.append_assoc]
    exact .close (before inner) rest

theorem Closing.prepend_piece {first rest : List Char} {marks more : List ColumnMark} {depth : Nat}
    (found : piece first marks) (closing : Closing piece depth rest more) :
    Closing piece depth (first ++ rest) (marks ++ more) :=
  closing.prepend fun sequence => .piece found sequence

/-- An opening brace belongs to the first brace that is closed. -/
theorem Closing.opening {rest : List Char} {marks : List ColumnMark} {depth : Nat}
    (closing : Closing piece (depth + 1) rest marks) : Closing piece depth ('\x7b' :: rest) marks := by
  cases closing with
  | close inner rest =>
    rw [← enclose_append]
    exact rest.prepend fun sequence => .braces inner sequence

theorem Closing.closing {rest : List Char} {marks : List ColumnMark} {depth : Nat}
    (closing : Closing piece depth rest marks) : Closing piece (depth + 1) ('\x7d' :: rest) marks :=
  .close .nil closing

theorem Closing.sequence {text : List Char} {marks : List ColumnMark} (closing : Closing piece 0 text marks) :
    Sequence piece text marks := by
  cases closing with
  | last sequence => exact sequence

end

theorem closeGroup_plain {c : Char} (noOpening : c ≠ '\x7b') (close : c ≠ '\x7d') (depth : Nat)
    (cs : List Char) :
    closeGroup depth (c :: cs) = (closeGroup depth cs).map fun (text, rest) => (c :: text, rest) := by
  conv_lhs => unfold closeGroup
  rw [if_neg close, if_neg noOpening]

theorem closeGroup_opening (depth : Nat) (cs : List Char) :
    closeGroup depth ('\x7b' :: cs) =
      (closeGroup (depth + 1) cs).map fun (text, rest) => ('\x7b' :: text, rest) := rfl

theorem closeGroup_closing (depth : Nat) (cs : List Char) :
    closeGroup (depth + 1) ('\x7d' :: cs) =
      (closeGroup depth cs).map fun (text, rest) => ('\x7d' :: text, rest) := rfl

/-- Balanced text does not close a group that is open before it. -/
theorem closeGroup_append {text : List Char} {marks : List ColumnMark} (balanced : Sequence Plain text marks)
    (depth : Nat) (cs : List Char) :
    closeGroup depth (text ++ cs) =
      (closeGroup depth cs).map fun (more, rest) => (text ++ more, rest) := by
  induction balanced generalizing depth cs with
  | nil => exact (congrFun Option.map_id (closeGroup depth cs)).symm
  | piece plain _ ih =>
    obtain ⟨noOpening, close⟩ := plain
    rw [List.append_assoc, List.singleton_append, closeGroup_plain noOpening close, ih, Option.map_map]
    rfl
  | braces _ _ ihInner ihRest =>
    simp only [enclose_append, List.cons_append, List.append_assoc]
    rw [closeGroup_opening, ihInner, closeGroup_closing, ihRest, Option.map_map, Option.map_map,
      Option.map_map]
    rfl

/-- What is found before the end of a group closes the braces that are open in the group. -/
theorem closing_of_closeGroup {depth : Nat} {cs text rest : List Char}
    (found : closeGroup depth cs = some (text, rest)) :
    Closing Plain depth text [] ∧ cs = text ++ '\x7d' :: rest := by
  induction cs generalizing depth text with
  | nil => simp [closeGroup] at found
  | cons c cs ih =>
    have later {depth' : Nat}
        (found : (closeGroup depth' cs).map (fun (text, rest) => (c :: text, rest)) = some (text, rest)) :
        ∃ more, text = c :: more ∧ Closing Plain depth' more [] ∧ cs = more ++ '\x7d' :: rest := by
      obtain ⟨⟨more, rest'⟩, foundLater, same⟩ := Option.map_eq_some_iff.mp found
      cases same
      exact ⟨more, rfl, ih foundLater⟩
    by_cases close : c = '\x7d'
    · subst close
      cases depth with
      | zero =>
        cases found
        exact ⟨.last .nil, rfl⟩
      | succ depth =>
        obtain ⟨more, rfl, closing, cut⟩ := later found
        exact ⟨closing.closing, congrArg _ cut⟩
    · by_cases opening : c = '\x7b'
      · subst opening
        obtain ⟨more, rfl, closing, cut⟩ := later found
        exact ⟨closing.opening, congrArg _ cut⟩
      · rw [closeGroup_plain opening close] at found
        obtain ⟨more, rfl, closing, cut⟩ := later found
        exact ⟨closing.prepend_piece (.intro opening close), congrArg _ cut⟩

/-- A group is found exactly where a balanced text stands in braces. -/
theorem group_eq_ok_iff {owner : Char} {cs text rest : List Char} :
    group owner cs = .ok (text, rest) ↔ Balanced text ∧ cs = enclose text ++ rest := by
  rw [enclose_append]
  constructor
  · intro read
    unfold group at read
    split at read
    · split at read
      · rename_i found
        cases read
        obtain ⟨closing, rfl⟩ := closing_of_closeGroup found
        exact ⟨closing.sequence, rfl⟩
      · cases read
    · cases read
  · rintro ⟨balanced, rfl⟩
    simp only [group, closeGroup_append balanced]
    simp [closeGroup]

/-- A count of copies is a number without a sign, up to the limit. -/
theorem readCount_eq_ok_iff {text : List Char} {n : Nat} :
    readCount text = .ok n ↔ Numeral.Unsigned text n ∧ n ≤ maxColumns := by
  have room (small : n ≤ maxColumns) : n < Numeral.bound64 := Nat.lt_of_le_of_lt small (by decide)
  unfold readCount
  cases read : Numeral.count? text with
  | none =>
    refine iff_of_false nofun fun ⟨unsigned, small⟩ => ?_
    rw [Numeral.count?_eq_some_iff.mpr ⟨unsigned, room small⟩] at read
    cases read
  | some m =>
    have unsigned := (Numeral.count?_eq_some_iff.mp read).1
    by_cases large : maxColumns < m
    · simp only [large, if_true]
      refine iff_of_false nofun fun ⟨unsigned, small⟩ => ?_
      rw [Numeral.count?_eq_some_iff.mpr ⟨unsigned, room small⟩] at read
      cases read
      omega
    · simp only [large, if_false]
      constructor
      · intro same
        cases same
        exact ⟨unsigned, Nat.le_of_not_lt large⟩
      · rintro ⟨other, small⟩
        rw [Numeral.count?_eq_some_iff.mpr ⟨other, room small⟩] at read
        cases read
        rfl

/-- A repetition is a count and a text in braces. -/
theorem copiesOf_eq_ok_iff {cs inner rest : List Char} {n : Nat} :
    copiesOf cs = .ok ((n, inner), rest) ↔
      ∃ count, Balanced count ∧ readCount count = .ok n ∧ Balanced inner ∧
        cs = enclose count ++ (enclose inner ++ rest) := by
  unfold copiesOf
  constructor
  · intro read
    obtain ⟨⟨count, after⟩, first, read⟩ := bind_eq_ok_iff.mp read
    obtain ⟨m, number, read⟩ := bind_eq_ok_iff.mp read
    obtain ⟨⟨text, final⟩, second, read⟩ := bind_eq_ok_iff.mp read
    cases read
    obtain ⟨balanced, rfl⟩ := group_eq_ok_iff.mp first
    obtain ⟨inner, rfl⟩ := group_eq_ok_iff.mp second
    exact ⟨count, balanced, number, inner, rfl⟩
  · rintro ⟨count, balanced, number, inner, rfl⟩
    refine bind_eq_ok_iff.mpr ⟨_, group_eq_ok_iff.mpr ⟨balanced, rfl⟩, ?_⟩
    refine bind_eq_ok_iff.mpr ⟨_, number, ?_⟩
    exact bind_eq_ok_iff.mpr ⟨_, group_eq_ok_iff.mpr ⟨inner, rfl⟩, rfl⟩

end ColumnText

end Unveil
