import Unveil.Proofs.Digest.Encoding
import Unveil.Proofs.Markup.Depiction
import Unveil.Proofs.Slide.PassCount

namespace Unveil

open Digest Numeral

def Face.Fits (face : Face) : Prop := face.font.utf8ByteSize < bound64

theorem Face.bytes_delimited : Delimited Face.Fits Face.bytes := by
  intro a b first second rest other same
  simp only [Face.bytes, List.append_assoc, List.cons_append, List.nil_append] at same
  obtain ⟨font, same⟩ := ofString_delimited _ _ first second _ _ same
  obtain ⟨size, same⟩ := ofFloat32_delimited _ _ trivial trivial _ _ same
  obtain ⟨red, same⟩ := List.cons.inj same
  obtain ⟨green, same⟩ := List.cons.inj same
  obtain ⟨blue, same⟩ := List.cons.inj same
  obtain ⟨bold, same⟩ := ofBool_delimited _ _ trivial trivial _ _ same
  obtain ⟨italic, same⟩ := ofBool_delimited _ _ trivial trivial _ _ same
  obtain ⟨underline, same⟩ := ofBool_delimited _ _ trivial trivial _ _ same
  obtain ⟨smallCaps, behind⟩ := ofBool_delimited _ _ trivial trivial _ _ same
  obtain ⟨_, _, ⟨_, _, _⟩, _, _, _, _⟩ := a
  obtain ⟨_, _, ⟨_, _, _⟩, _, _, _, _⟩ := b
  simp_all

structure Run.Fits (r : Run) : Prop where
  text : r.text.utf8ByteSize < bound64
  face : r.face.Fits

theorem Run.bytes_delimited : Delimited Run.Fits Run.bytes := by
  intro a b first second rest other same
  simp only [Run.bytes, List.append_assoc] at same
  obtain ⟨text, same⟩ := ofString_delimited _ _ first.text second.text _ _ same
  obtain ⟨face, same⟩ := Face.bytes_delimited _ _ first.face second.face _ _ same
  obtain ⟨hidden, behind⟩ := ofBool_delimited _ _ trivial trivial _ _ same
  exact ⟨by cases a; cases b; simp_all, behind⟩

/-- A symbol is one character, and a number has a point behind its digits. -/
theorem BulletMark.label_inj {a b : BulletMark} (same : a.label = b.label) : a = b := by
  have digits (n : Nat) : (toString n).toList = Nat.toDigits 10 n := String.toList_ofList
  have apart (c : Char) (n : Nat) : (symbol c).label ≠ (BulletMark.number n).label := by
    intro same
    have length : 1 = (Nat.toDigits 10 n).length + 1 := by
      simpa [label, digits] using congrArg (fun s => s.toList.length) same
    have positive : 0 < (Nat.toDigits 10 n).length := Nat.length_toDigits_pos
    omega
  cases a with
  | symbol c =>
    cases b with
    | symbol d =>
      have chars : [c] = [d] := by simpa [label] using congrArg String.toList same
      rw [List.singleton_inj.mp chars]
    | number n => exact absurd same (apart c n)
  | number m =>
    cases b with
    | symbol d => exact absurd same.symm (apart d m)
    | number n =>
      have numerals : Nat.toDigits 10 m = Nat.toDigits 10 n := by
        simpa [label, digits] using congrArg String.toList same
      have numbers := congrArg (fun cs => Nat.ofDigitChars 10 cs 0) numerals
      simp only [Nat.ofDigitChars_ten_toDigits] at numbers
      rw [numbers]

def Bullet.Fits (b : Bullet) : Prop := b.mark.label.utf8ByteSize < bound64

theorem Bullet.bytes_delimited : Delimited Bullet.Fits Bullet.bytes := by
  intro a b first second rest other same
  simp only [Bullet.bytes, List.append_assoc] at same
  obtain ⟨label, same⟩ := ofString_delimited _ _ first second _ _ same
  obtain ⟨hidden, behind⟩ := ofBool_delimited _ _ trivial trivial _ _ same
  have mark := BulletMark.label_inj label
  exact ⟨by cases a; cases b; simp_all, behind⟩

theorem Align.index_delimited : Delimited (fun _ : Align => True) fun a => Digest.ofNat a.index :=
  ofNat_delimited.ofCode (by intro a; cases a <;> decide) (by intro a b; cases a <;> cases b <;> decide)

structure Paragraph.Fits (p : Paragraph) : Prop where
  runs : p.runs.length < bound64 ∧ ∀ r ∈ p.runs, r.Fits
  bullet : ∀ b ∈ p.bullet, b.Fits
  level : p.level < bound64

theorem Paragraph.bytes_delimited : Delimited Paragraph.Fits Paragraph.bytes := by
  intro a b first second rest other same
  simp only [Paragraph.bytes, List.append_assoc] at same
  obtain ⟨runs, same⟩ := ofList_delimited Run.bytes_delimited _ _ first.runs second.runs _ _ same
  obtain ⟨bullet, same⟩ := ofOption_delimited Bullet.bytes_delimited _ _ first.bullet second.bullet _ _ same
  obtain ⟨level, same⟩ := ofNat_delimited _ _ first.level second.level _ _ same
  obtain ⟨align, same⟩ := Align.index_delimited _ _ trivial trivial _ _ same
  obtain ⟨size, behind⟩ := ofFloat32_delimited _ _ trivial trivial _ _ same
  exact ⟨by cases a; cases b; simp_all, behind⟩

def TextBody.Fits (b : TextBody) : Prop := b.paragraphs.length < bound64 ∧ ∀ p ∈ b.paragraphs, p.Fits

/-- A text is told by its bytes, and so is where it ends. -/
theorem TextBody.bytes_delimited : Delimited TextBody.Fits TextBody.bytes := by
  intro a b first second rest other same
  obtain ⟨paragraphs, behind⟩ := ofList_delimited Paragraph.bytes_delimited _ _ first second _ _ same
  exact ⟨by cases a; cases b; simp_all, behind⟩

theorem Column.bytes_delimited : Delimited (fun _ => True) Column.bytes := by
  intro a b _ _ rest other same
  simp only [Column.bytes, List.append_assoc] at same
  obtain ⟨align, same⟩ := Align.index_delimited _ _ trivial trivial _ _ same
  obtain ⟨width, same⟩ := ofFloat32_delimited _ _ trivial trivial _ _ same
  obtain ⟨fixed, behind⟩ := ofBool_delimited _ _ trivial trivial _ _ same
  exact ⟨by cases a; cases b; simp_all, behind⟩

theorem CellBorders.code_delimited : Delimited (fun _ => True) fun side => Digest.ofNat (CellBorders.code side) := by
  refine ofNat_delimited.ofCode ?_ ?_
  · rintro (_ | _ | _) <;> decide
  · rintro (_ | _ | _) (_ | _ | _) <;> decide

theorem Cell.align_delimited :
    Delimited (fun _ : Option Align => True) fun a => Digest.ofNat ((a.map fun a => a.index + 1).getD 0) := by
  refine ofNat_delimited.ofCode ?_ ?_
  · rintro (_ | _ | _ | _) <;> decide
  · rintro (_ | _ | _ | _) (_ | _ | _ | _) <;> decide

theorem Cell.bytes_delimited : Delimited (fun c : Cell => c.body.Fits) Cell.bytes := by
  intro a b first second rest other same
  simp only [Cell.bytes, List.append_assoc] at same
  obtain ⟨body, same⟩ := TextBody.bytes_delimited _ _ first second _ _ same
  obtain ⟨align, same⟩ := Cell.align_delimited _ _ trivial trivial _ _ same
  obtain ⟨left, same⟩ := CellBorders.code_delimited _ _ trivial trivial _ _ same
  obtain ⟨right, behind⟩ := CellBorders.code_delimited _ _ trivial trivial _ _ same
  obtain ⟨_, _, ⟨_, _⟩⟩ := a
  obtain ⟨_, _, ⟨_, _⟩⟩ := b
  simp_all

theorem Rect.bytes_delimited : Delimited (fun _ => True) Rect.bytes := by
  intro a b _ _ rest other same
  simp only [Rect.bytes, List.append_assoc] at same
  obtain ⟨left, same⟩ := ofFloat32_delimited _ _ trivial trivial _ _ same
  obtain ⟨top, same⟩ := ofFloat32_delimited _ _ trivial trivial _ _ same
  obtain ⟨width, same⟩ := ofFloat32_delimited _ _ trivial trivial _ _ same
  obtain ⟨height, behind⟩ := ofFloat32_delimited _ _ trivial trivial _ _ same
  exact ⟨by cases a; cases b; simp_all, behind⟩

structure PartialLine.Fits (l : PartialLine) : Prop where
  row : l.row < bound64
  first : l.first < bound64
  last : l.last < bound64

theorem PartialLine.bytes_delimited : Delimited PartialLine.Fits PartialLine.bytes := by
  intro a b first second rest other same
  simp only [PartialLine.bytes, List.append_assoc] at same
  obtain ⟨row, same⟩ := ofNat_delimited _ _ first.row second.row _ _ same
  obtain ⟨left, same⟩ := ofNat_delimited _ _ first.first second.first _ _ same
  obtain ⟨right, behind⟩ := ofNat_delimited _ _ first.last second.last _ _ same
  exact ⟨by cases a; cases b; simp_all, behind⟩

structure Merge.Fits (m : Merge) : Prop where
  row : m.row < bound64
  col : m.col < bound64
  span : m.span < bound64

theorem Merge.bytes_delimited : Delimited Merge.Fits Merge.bytes := by
  intro a b first second rest other same
  simp only [Merge.bytes, List.append_assoc] at same
  obtain ⟨row, same⟩ := ofNat_delimited _ _ first.row second.row _ _ same
  obtain ⟨col, same⟩ := ofNat_delimited _ _ first.col second.col _ _ same
  obtain ⟨span, behind⟩ := ofNat_delimited _ _ first.span second.span _ _ same
  exact ⟨by cases a; cases b; simp_all, behind⟩

namespace Grid

structure Fits (g : Grid) : Prop where
  columns : g.columns.length < bound64
  declaredRows : g.declaredRows < bound64
  rows : ∀ cells ∈ g.rows, cells.length < bound64 ∧ ∀ cell ∈ cells, cell.body.Fits
  verticals : ∀ i ∈ g.verticals, i < bound64
  horizontals : ∀ i ∈ g.horizontals, i < bound64
  partials : ∀ l ∈ g.partials, l.Fits
  merges : ∀ m ∈ g.merges, m.Fits

/-- The numbers that the bytes of a table do not tell: of its rows, its lines and its merged cells. -/
def tally (g : Grid) : List Nat :=
  [g.rows.length, g.verticals.length, g.horizontals.length, g.partials.length, g.merges.length]

/-- A table is told by its bytes among those with as many rows, lines and merged cells. -/
theorem bytes_inj {g h : Grid} (first : g.Fits) (second : h.Fits) (tallies : g.tally = h.tally)
    {rest other : List UInt8} (same : g.bytes ++ rest = h.bytes ++ other) : g = h ∧ rest = other := by
  simp only [tally, List.cons.injEq, and_true] at tallies
  obtain ⟨rowCount, verticalCount, horizontalCount, partialCount, mergeCount⟩ := tallies
  have small (s : String) (short : s.utf8ByteSize = 1) : s.utf8ByteSize < bound64 := by
    rw [short]
    decide
  simp only [bytes, List.append_assoc] at same
  obtain ⟨columnCount, same⟩ := ofNat_delimited _ _ first.columns second.columns _ _ same
  obtain ⟨declaredRows, same⟩ := ofNat_delimited _ _ first.declaredRows second.declaredRows _ _ same
  obtain ⟨columns, same⟩ :=
    flatMap_delimited Column.bytes_delimited (fun _ _ => trivial) (fun _ _ => trivial) columnCount same
  obtain ⟨rows, same⟩ :=
    flatMap_delimited (ofList_delimited Cell.bytes_delimited) first.rows second.rows rowCount same
  obtain ⟨_, same⟩ := ofString_delimited _ _ (small "|" rfl) (small "|" rfl) _ _ same
  obtain ⟨verticals, same⟩ :=
    flatMap_delimited ofNat_delimited first.verticals second.verticals verticalCount same
  obtain ⟨_, same⟩ := ofString_delimited _ _ (small "-" rfl) (small "-" rfl) _ _ same
  obtain ⟨horizontals, same⟩ :=
    flatMap_delimited ofNat_delimited first.horizontals second.horizontals horizontalCount same
  obtain ⟨partials, same⟩ :=
    flatMap_delimited PartialLine.bytes_delimited first.partials second.partials partialCount same
  obtain ⟨merges, behind⟩ :=
    flatMap_delimited Merge.bytes_delimited first.merges second.merges mergeCount same
  exact ⟨by cases g; cases h; simp_all, behind⟩

end Grid

namespace Content

def Fits : Content → Prop
  | text body => body.Fits
  | image picture => picture.path.utf8ByteSize < bound64 ∧ picture.name.utf8ByteSize < bound64
  | table grid => grid.Fits

end Content

namespace Shape

/-- What every shape starts with. -/
theorem headBytes_inj {s t : Shape} {rest other : List UInt8}
    (same : s.headBytes ++ rest = t.headBytes ++ other) :
    s.kindName = t.kindName ∧ s.bounds = t.bounds ∧ s.hidden = t.hidden ∧ rest = other := by
  have words : ∀ word ∈ ["text", "image", "table", "group"], word.utf8ByteSize < bound64 := by decide
  have short (s : Shape) : s.kindName.utf8ByteSize < bound64 := by
    refine words _ ?_
    rcases s with ⟨_, _ | _ | _, _⟩ | _ <;> simp [kindName]
  simp only [headBytes, List.append_assoc] at same
  obtain ⟨kind, same⟩ := ofString_delimited _ _ (short s) (short t) _ _ same
  obtain ⟨bounds, same⟩ := Rect.bytes_delimited _ _ trivial trivial _ _ same
  obtain ⟨hidden, behind⟩ := ofBool_delimited _ _ trivial trivial _ _ same
  exact ⟨kind, bounds, hidden, behind⟩

mutual

def Fits : Shape → Prop
  | single _ content _ => content.Fits
  | group _ members _ => members.length < bound64 ∧ FitsAll members

def FitsAll : List Shape → Prop
  | [] => True
  | s :: rest => Fits s ∧ FitsAll rest

end

theorem picture_delimited :
    Delimited (fun picture => (Content.image picture).Fits) fun picture => (Content.image picture).bytes := by
  intro a b first second rest other same
  simp only [Content.bytes, List.append_assoc] at same
  obtain ⟨path, same⟩ := ofString_delimited _ _ first.1 second.1 _ _ same
  obtain ⟨name, behind⟩ := ofString_delimited _ _ first.2 second.2 _ _ same
  exact ⟨by cases a; cases b; simp_all, behind⟩

/-- A single shape is told by its bytes, and by the numbers of its table if it is one. -/
theorem content_inj {bounds bounds' : Rect} {a b : Content} {hidden hidden' : Bool} (first : a.Fits) (second : b.Fits)
    (kind : (single bounds a hidden).kindName = (single bounds' b hidden').kindName)
    {rest other : List UInt8} {later others : List (List Nat)} (same : a.bytes ++ rest = b.bytes ++ other)
    (tallies : (single bounds a hidden).grids.map Grid.tally ++ later =
      (single bounds' b hidden').grids.map Grid.tally ++ others) : a = b ∧ rest = other ∧ later = others := by
  cases a with
  | text body =>
    cases b with
    | text body' =>
      obtain ⟨rfl, behind⟩ := TextBody.bytes_delimited _ _ first second _ _ same
      exact ⟨rfl, behind, tallies⟩
    | _ => simp [kindName] at kind
  | image picture =>
    cases b with
    | image picture' =>
      obtain ⟨rfl, behind⟩ := picture_delimited _ _ first second _ _ same
      exact ⟨rfl, behind, tallies⟩
    | _ => simp [kindName] at kind
  | table grid =>
    cases b with
    | table grid' =>
      obtain ⟨here, later⟩ := List.cons.inj tallies
      obtain ⟨rfl, behind⟩ := Grid.bytes_inj first second here same
      exact ⟨rfl, behind, later⟩
    | _ => simp [kindName] at kind

/-- A group starts with another word than a single shape. -/
theorem kindName_single_ne_group (bounds bounds' : Rect) (content : Content) (members : List Shape)
    (hidden hidden' : Bool) : (single bounds content hidden).kindName ≠ (group bounds' members hidden').kindName := by
  cases content <;> simp [kindName]

mutual

/-- A shape is told by its bytes once the numbers of its tables are known. They are taken off the front of a
list, as the bytes are. -/
theorem bytes_inj : ∀ (s t : Shape), s.Fits → t.Fits → ∀ {rest other : List UInt8} {later others : List (List Nat)},
    s.bytes ++ rest = t.bytes ++ other →
    s.grids.map Grid.tally ++ later = t.grids.map Grid.tally ++ others → s = t ∧ rest = other ∧ later = others
  | .single bounds a hidden, .single bounds' b hidden', first, second, rest, other, later, others, same,
      tallies => by
    simp only [bytes, List.append_assoc] at same
    obtain ⟨kind, place, visible, contents⟩ := headBytes_inj same
    obtain ⟨rfl, behind⟩ := content_inj first second kind contents tallies
    obtain rfl : bounds = bounds' := place
    obtain rfl : hidden = hidden' := visible
    exact ⟨rfl, behind⟩
  | .group bounds members hidden, .group bounds' members' hidden', first, second, rest, other, later, others,
      same, tallies => by
    simp only [bytes, List.append_assoc] at same
    obtain ⟨_, place, visible, contents⟩ := headBytes_inj same
    obtain ⟨count, contents⟩ := ofNat_delimited _ _ first.1 second.1 _ _ contents
    obtain ⟨rfl, behind⟩ := bytesAll_inj members members' first.2 second.2 count contents tallies
    obtain rfl : bounds = bounds' := place
    obtain rfl : hidden = hidden' := visible
    exact ⟨rfl, behind⟩
  | .single bounds content hidden, .group bounds' members hidden', _, _, _, _, _, _, same, _ => by
    simp only [bytes, List.append_assoc] at same
    exact absurd (headBytes_inj same).1 (kindName_single_ne_group _ _ _ _ _ _)
  | .group bounds members hidden, .single bounds' content hidden', _, _, _, _, _, _, same, _ => by
    simp only [bytes, List.append_assoc] at same
    exact absurd (headBytes_inj same).1.symm (kindName_single_ne_group _ _ _ _ _ _)

/-- Shapes of a given number are told by their bytes one after the other. -/
theorem bytesAll_inj : ∀ (shapes others : List Shape), FitsAll shapes → FitsAll others →
    shapes.length = others.length → ∀ {rest other : List UInt8} {later tail : List (List Nat)},
    bytesAll shapes ++ rest = bytesAll others ++ other →
    (gridsAll shapes).map Grid.tally ++ later = (gridsAll others).map Grid.tally ++ tail →
    shapes = others ∧ rest = other ∧ later = tail
  | [], [], _, _, _, _, _, _, _, same, tallies => ⟨rfl, same, tallies⟩
  | s :: shapes, t :: others, first, second, count, rest, other, later, tail, same, tallies => by
    simp only [bytesAll, gridsAll, List.map_append, List.append_assoc] at same tallies
    obtain ⟨rfl, further, numbers⟩ := bytes_inj s t first.1 second.1 same tallies
    obtain ⟨rfl, behind⟩ := bytesAll_inj shapes others first.2 second.2 (Nat.succ.inj count) further numbers
    exact ⟨rfl, behind⟩

end

end Shape

namespace Pass

structure Fits (p : Pass) : Prop where
  number : p.number < bound64
  title : ∀ s ∈ p.title, s.Fits
  count : p.shapes.length < bound64
  shapes : Shape.FitsAll p.shapes

/-- Passes with tables of as many rows, lines and merged cells can be told from their bytes: the number, the
title and all shapes. -/
theorem eq_of_bytes_eq {p q : Pass} (first : p.Fits) (second : q.Fits)
    (tallies : p.grids.map Grid.tally = q.grids.map Grid.tally) (same : p.bytes = q.bytes) :
    p.number = q.number ∧ p.title = q.title ∧ p.shapes = q.shapes := by
  obtain ⟨number, maxPass, title, shapes⟩ := p
  obtain ⟨number', maxPass', title', shapes'⟩ := q
  simp only [bytes, List.append_assoc] at same
  obtain ⟨numbers, same⟩ := ofNat_delimited _ _ first.number second.number _ _ same
  -- what stands behind the title, once its tables are taken off
  have behind (counts : ofNat shapes.length ++ Shape.bytesAll shapes = ofNat shapes'.length ++ Shape.bytesAll shapes')
      (numbers : (Shape.gridsAll shapes).map Grid.tally = (Shape.gridsAll shapes').map Grid.tally) :
      shapes = shapes' := by
    obtain ⟨count, contents⟩ := ofNat_delimited _ _ first.count second.count _ _ counts
    have contents : Shape.bytesAll shapes ++ [] = Shape.bytesAll shapes' ++ [] := by rw [contents]
    have numbers : (Shape.gridsAll shapes).map Grid.tally ++ [] = (Shape.gridsAll shapes').map Grid.tally ++ [] := by
      rw [numbers]
    exact (Shape.bytesAll_inj _ _ first.shapes second.shapes count contents numbers).1
  cases title with
  | none =>
    cases title' with
    | none => exact ⟨numbers, rfl, behind (List.cons.inj same).2 tallies⟩
    | some t => exact absurd (List.cons.inj same).1 (by decide)
  | some s =>
    cases title' with
    | none => exact absurd (List.cons.inj same).1 (by decide)
    | some t =>
      have listed : s.grids.map Grid.tally ++ (Shape.gridsAll shapes).map Grid.tally =
          t.grids.map Grid.tally ++ (Shape.gridsAll shapes').map Grid.tally := by
        rw [← List.map_append, ← List.map_append]
        exact tallies
      obtain ⟨title, counts, further⟩ :=
        Shape.bytes_inj s t (first.title s rfl) (second.title t rfl) (List.cons.inj same).2 listed
      exact ⟨numbers, congrArg some title, behind counts further⟩

/-- A pass with a table of one cell, merged over some columns. -/
def merging (span : Nat) : Pass :=
  ⟨1, 1, none, [.single ⟨0, 0, 40, 20⟩
    (.table ⟨[⟨.left, 40, true⟩], [[.empty 10]], 1, [], [], [], [⟨0, 0, span⟩]⟩) false]⟩

theorem merging_fits {span : Nat} (small : span < bound64) : (merging span).Fits := by
  have one : 1 < bound64 := by decide
  have zero : 0 < bound64 := by decide
  have cell : (Cell.empty 10).body.Fits :=
    ⟨one, List.forall_mem_singleton.mpr ⟨⟨zero, nofun⟩, nofun, zero⟩⟩
  have rows : ∀ cells ∈ [[Cell.empty 10]], cells.length < bound64 ∧ ∀ c ∈ cells, c.body.Fits :=
    List.forall_mem_singleton.mpr ⟨one, List.forall_mem_singleton.mpr cell⟩
  have merges : ∀ m ∈ [(⟨0, 0, span⟩ : Merge)], m.Fits := List.forall_mem_singleton.mpr ⟨zero, zero, small⟩
  exact ⟨one, nofun, one, ⟨one, one, rows, nofun, nofun, nofun, merges⟩, trivial⟩

/-- Cells merged over two and over three columns are told apart. -/
theorem eq_of_bytes_eq_merging : (merging 2).bytes ≠ (merging 3).bytes := by
  intro same
  have two : 2 < bound64 := by decide
  have three : 3 < bound64 := by decide
  obtain ⟨_, _, equal⟩ := eq_of_bytes_eq (merging_fits two) (merging_fits three) rfl same
  simp [merging] at equal

end Pass

namespace SlideJob

/-- A slide of one table with three columns of a given width. -/
def tableSlide (content : List Node) : SlideJob :=
  .ofNode 1 ⟨.part .slide, .none, "", none,
    [⟨.tabular, .none, "p\x7b40pt\x7dp\x7b40pt\x7dp\x7b40pt\x7d", none, content⟩]⟩

/-- A line above all three columns. -/
def lined : SlideJob :=
  tableSlide [⟨.cline, .none, "", some (.text "1-3"), []⟩, ⟨.multiColumn, .none, "l", some (.number 1), []⟩]

/-- A cell over the first two columns. -/
def merged : SlideJob := tableSlide [⟨.multiColumn, .none, "l", some (.number 2), []⟩]

/-- The slides of `lined` and `merged` have one pass each. Their tables are not the same, and their bytes are. -/
theorem compose_bytes_collide :
    ∃ slide other p q, lined.compose .standard noPictures = .ok slide ∧
      merged.compose .standard noPictures = .ok other ∧ slide.passes = [p] ∧ other.passes = [q] ∧
      p.bytes = q.bytes ∧ p.grids.map Grid.partials = [[⟨0, 0, 2⟩]] ∧ q.grids.map Grid.partials = [[]] := by
  have evaluated : (lined.compose .standard noPictures).toOption.bind (fun slide =>
      (merged.compose .standard noPictures).toOption.map fun other =>
        (slide.passes.map Pass.bytes == other.passes.map Pass.bytes,
          slide.passes.map fun p => p.grids.map Grid.partials,
          other.passes.map fun p => p.grids.map Grid.partials)) =
      some (true, [[[⟨0, 0, 2⟩]]], [[[]]]) := by
    decide +kernel
  rcases first : lined.compose .standard noPictures with error | slide
  · rw [first] at evaluated
    cases evaluated
  rcases second : merged.compose .standard noPictures with error | other
  · rw [first, second] at evaluated
    cases evaluated
  rw [first, second] at evaluated
  obtain ⟨same, tables⟩ := Prod.mk.inj (Option.some.inj evaluated)
  obtain ⟨lines, cells⟩ := Prod.mk.inj tables
  obtain ⟨p, onlyP, lines⟩ := List.map_eq_singleton_iff.mp lines
  obtain ⟨q, onlyQ, cells⟩ := List.map_eq_singleton_iff.mp cells
  rw [onlyP, onlyQ] at same
  exact ⟨slide, other, p, q, rfl, rfl, onlyP, onlyQ, List.singleton_inj.mp (eq_of_beq same), lines, cells⟩

end SlideJob

end Unveil
