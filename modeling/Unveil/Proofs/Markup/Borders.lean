import Mathlib.Data.List.Pairwise
import Unveil.Proofs.Markup.Drawing
import Unveil.Proofs.Table.Shape

namespace Unveil

open Markup Markup.State Calls

/-- A stroke that draws a side of a cell or takes it away. -/
def Stroke.side (row col : Nat) (side : CellSide) (visible : Bool) : Stroke := ⟨row, col, .border side visible⟩

namespace Markup.State

variable {side : CellSide} {visible : Bool} {row col : Nat}

theorem mem_setBorder {other : CellSide} {cell : CellEntry} :
    side ∈ (setBorder other visible cell).borders ↔ if side = other then visible = true else side ∈ cell.borders := by
  rcases eq_or_ne side other with rfl | away
  · cases visible <;> simp [setBorder]
  · cases visible <;> simp [setBorder, away]

/-- Only a stroke on the side itself changes it. -/
theorem mem_drawn_borders (side : CellSide) (row col : Nat) (cell : Nat → Nat → CellEntry) (k : Stroke) :
    (∃ v, k = .side row col side v ∧ (side ∈ (drawn cell k row col).borders ↔ v = true)) ∨
      ((∀ v, k ≠ .side row col side v) ∧
        (side ∈ (drawn cell k row col).borders ↔ side ∈ (cell row col).borders)) := by
  rcases k with ⟨i, j, ink⟩
  by_cases here : row = i ∧ col = j
  · obtain ⟨rfl, rfl⟩ := here
    rcases ink with w | ⟨other, v⟩ | count
    · exact .inr ⟨by simp [Stroke.side], by simp [drawn, Ink.draw]⟩
    · rcases eq_or_ne side other with rfl | away
      · exact .inl ⟨v, rfl, by simp [drawn, Ink.draw, mem_setBorder]⟩
      · exact .inr ⟨by simp [Stroke.side, away.symm], by simp [drawn, Ink.draw, mem_setBorder, away]⟩
    · exact .inr ⟨by simp [Stroke.side], by simp [drawn, Ink.draw]⟩
  · exact .inr ⟨fun v same => here (by cases same; exact ⟨rfl, rfl⟩), by simp [drawn, here]⟩

/-- Strokes on a side that agree draw it as each of them does. -/
theorem mem_foldl_drawn {strokes : List Stroke} {cell : Nat → Nat → CellEntry}
    (agree : ∀ v, Stroke.side row col side v ∈ strokes → v = visible)
    (before : side ∈ (cell row col).borders ↔ visible = true) :
    side ∈ (strokes.foldl drawn cell row col).borders ↔ visible = true := by
  induction strokes generalizing cell with
  | nil => exact before
  | cons k rest ih =>
    refine ih (fun v later => agree v (.tail k later)) ?_
    rcases mem_drawn_borders side row col cell k with ⟨v, rfl, drawn⟩ | ⟨_, same⟩
    · exact agree v (.head rest) ▸ drawn
    · exact same.trans before

end Markup.State

/-- Merges that share no cell. -/
def Merge.Apart (m other : Merge) : Prop :=
  m.row = other.row → m.col + m.span ≤ other.col ∨ other.col + other.span ≤ m.col

instance : Std.Symm Merge.Apart := ⟨fun _ _ apart same => (apart same.symm).symm⟩

namespace Grid

variable {g : Grid} {row col : Nat} {side : CellSide} {visible : Bool}

/-- If all strokes on a side agree, it is drawn exactly when one of them draws it. -/
theorem mem_drawnCell_borders
    (agree : ∀ u v, Stroke.side row col side u ∈ g.strokes → Stroke.side row col side v ∈ g.strokes → u = v) :
    side ∈ (g.drawnCell row col).borders ↔ Stroke.side row col side true ∈ g.strokes := by
  by_cases draws : Stroke.side row col side true ∈ g.strokes
  · obtain ⟨first, last, strokes⟩ := List.append_of_mem draws
    have later (v : Bool) (inLast : Stroke.side row col side v ∈ last) : v = true := by
      refine agree v true ?_ draws
      rw [strokes]
      exact List.mem_append_right first (.tail _ inLast)
    refine iff_of_true ?_ draws
    rw [drawnCell, strokes, List.foldl_append, List.foldl_cons]
    refine (mem_foldl_drawn later ?_).mpr rfl
    simp [drawn, Stroke.side, Ink.draw, mem_setBorder]
  · refine iff_of_false (fun kept => ?_) draws
    have never (v : Bool) (inside : Stroke.side row col side v ∈ g.strokes) : v = false := by
      rcases v
      · rfl
      · exact absurd inside draws
    exact Bool.false_ne_true ((mem_foldl_drawn never (by simp [CellEntry.empty])).mp kept)

/-- The strokes for the texts of a table belong to its cells that are not covered. -/
theorem mem_textStrokes {k : Stroke} :
    k ∈ g.textStrokes ↔ ∃ row col cell, g.cell? row col = some cell ∧ g.isCovered row col = false ∧
      k ∈ g.cellStrokes row col cell := by
  constructor
  · intro inside
    obtain ⟨⟨cells, row⟩, atRow, inRow⟩ := List.mem_flatMap.mp inside
    obtain ⟨⟨cell, col⟩, atCol, inCell⟩ := List.mem_flatMap.mp inRow
    dsimp only at inCell
    split at inCell
    · cases inCell
    · rename_i clear
      exact ⟨row, col, cell, Option.bind_eq_some_iff.mpr ⟨cells, List.mem_zipIdx_iff_getElem?.mp atRow,
        List.mem_zipIdx_iff_getElem?.mp atCol⟩, Bool.eq_false_iff.mpr clear, inCell⟩
  · rintro ⟨row, col, cell, atCell, clear, inCell⟩
    obtain ⟨cells, atRow, atCol⟩ := Option.bind_eq_some_iff.mp atCell
    refine List.mem_flatMap.mpr ⟨(cells, row), List.mem_zipIdx_iff_getElem?.mpr atRow,
      List.mem_flatMap.mpr ⟨(cell, col), List.mem_zipIdx_iff_getElem?.mpr atCol, ?_⟩⟩
    dsimp only
    rwa [if_neg (Bool.eq_false_iff.mp clear)]

theorem side_mem_cellStrokes {i j : Nat} {cell : Cell} :
    Stroke.side row col side visible ∈ g.cellStrokes i j cell ↔
      row = i ∧ ((side = .left ∧ col = j ∧ visible = g.showsLine cell.borders.left j) ∨
        (side = .right ∧ col = j + g.spanAt i j - 1 ∧
          visible = g.showsLine cell.borders.right (j + g.spanAt i j))) := by
  have noText : Stroke.side row col side visible ∉ bodyStrokes i j cell.body := by
    intro inBody
    obtain ⟨w, _, same⟩ := List.mem_map.mp inBody
    cases same
  rw [cellStrokes, List.mem_append, or_iff_right noText]
  simp only [List.mem_cons, List.not_mem_nil, or_false, Stroke.side, Stroke.mk.injEq, Ink.border.injEq]
  constructor
  · rintro (⟨rfl, rfl, rfl, drawn⟩ | ⟨rfl, edge, rfl, drawn⟩)
    · exact ⟨rfl, .inl ⟨rfl, rfl, drawn⟩⟩
    · exact ⟨rfl, .inr ⟨rfl, edge, drawn⟩⟩
  · rintro ⟨rfl, ⟨rfl, rfl, drawn⟩ | ⟨rfl, edge, drawn⟩⟩
    · exact .inl ⟨rfl, rfl, rfl, drawn⟩
    · exact .inr ⟨rfl, edge, rfl, drawn⟩

/-- A horizontal line runs above a row over a column, all the way through or as a part. -/
def Ruled (g : Grid) (line col : Nat) : Prop :=
  line ∈ g.horizontals ∨ ∃ l ∈ g.partials, l.row = line ∧ l.first ≤ col ∧ col ≤ l.last

theorem side_mem_lineStrokes (inside : col < g.columns.length) :
    Stroke.side row col side visible ∈ g.lineStrokes ↔
      visible = true ∧ 0 < g.rowCount ∧ ∃ line, g.edge line = (row, side) ∧ g.Ruled line col := by
  have atEdge (line : Nat) (cols : List Nat) : Stroke.side row col side visible ∈ g.edgeStrokes line cols ↔
      visible = true ∧ g.edge line = (row, side) ∧ col ∈ cols := by
    rw [edgeStrokes, List.mem_map]
    constructor
    · rintro ⟨_, inCols, same⟩
      cases same
      exact ⟨rfl, rfl, inCols⟩
    · rintro ⟨rfl, edge, inCols⟩
      exact ⟨col, inCols, by rw [edge]; rfl⟩
  have inPart (l : PartialLine) : col ∈ g.lineColumns l ↔ l.first ≤ col ∧ col ≤ l.last := by
    rw [lineColumns, List.mem_range'_1]
    omega
  rcases Nat.eq_zero_or_pos g.rowCount with rowless | positive
  · rw [lineStrokes, if_pos rowless, rowless]
    simp
  · rw [lineStrokes, if_neg (Nat.pos_iff_ne_zero.mp positive), List.mem_append, List.mem_flatMap, List.mem_flatMap]
    simp only [atEdge, inPart, List.mem_range, inside, and_true, positive, true_and, Ruled]
    constructor
    · rintro (⟨line, inLines, drawn, edge⟩ | ⟨l, inLines, drawn, edge, part⟩)
      · exact ⟨drawn, line, edge, .inl inLines⟩
      · exact ⟨drawn, l.row, edge, .inr ⟨l, inLines, rfl, part⟩⟩
    · rintro ⟨drawn, line, edge, full | ⟨l, inLines, rfl, part⟩⟩
      · exact .inl ⟨line, full, drawn, edge⟩
      · exact .inr ⟨l, inLines, drawn, edge, part⟩

theorem side_mem_strokes :
    Stroke.side row col side visible ∈ g.strokes ↔
      Stroke.side row col side visible ∈ g.textStrokes ∨ Stroke.side row col side visible ∈ g.lineStrokes := by
  have noMerge : Stroke.side row col side visible ∉ g.mergeStrokes := by
    intro inMerges
    obtain ⟨m, _, same⟩ := mem_mergeStrokes inMerges
    cases same
  simp only [strokes, List.mem_append, noMerge, or_false]

theorem edge_eq_top {line : Nat} : g.edge line = (row, .top) ↔ line < g.rowCount ∧ line = row := by
  unfold edge
  split <;> simp [*]

theorem edge_eq_bottom {line : Nat} : g.edge line = (row, .bottom) ↔ g.rowCount ≤ line ∧ g.rowCount - 1 = row := by
  unfold edge
  split
  · simp [Nat.not_le.mpr ‹_›]
  · simp [Nat.not_lt.mp ‹_›]

theorem edge_horizontal {line : Nat} (edge : g.edge line = (row, side)) : side ≠ .left ∧ side ≠ .right := by
  unfold Grid.edge at edge
  split at edge <;> cases edge <;> decide

/-- The cell from `start` on ends in a column: the merge from there does, or it is a cell of its own. -/
def Ends (g : Grid) (row start col : Nat) : Prop :=
  (∃ m ∈ g.merges, m.row = row ∧ m.col = start ∧ m.col + m.span = col + 1) ∨
    (start = col ∧ g.isCovered row col = false ∧ g.mergeAt? row col = none)

/-- Merges of one cell or more, no two of which share a cell. -/
structure Disjoint (g : Grid) : Prop where
  positive : ∀ m ∈ g.merges, 1 ≤ m.span
  apart : g.merges.Pairwise Merge.Apart

/-- A cell that is not covered lies under no merge from further left. -/
theorem isCovered_eq_false :
    g.isCovered row col = false ↔ ∀ m ∈ g.merges, m.row = row → m.col < col → m.col + m.span ≤ col := by
  simp [isCovered, Merge.covers]

theorem mergeAt?_some {m : Merge} (found : g.mergeAt? row col = some m) :
    m ∈ g.merges ∧ m.row = row ∧ m.col = col :=
  ⟨List.mem_of_find?_eq_some found, by simpa using List.find?_some found⟩

namespace Disjoint

/-- Merges that share a cell are the same. -/
theorem eq_of_shared (disjoint : g.Disjoint) {m other : Merge} (inMerges : m ∈ g.merges) (inOthers : other ∈ g.merges)
    (row : m.row = other.row) (starts : m.col ≤ col) (otherFrom : other.col ≤ col) (here : col < m.col + m.span)
    (otherHere : col < other.col + other.span) : m = other := by
  by_contra different
  have apart := disjoint.apart.forall inMerges inOthers different row
  omega

theorem mergeAt?_eq (disjoint : g.Disjoint) {m : Merge} (inMerges : m ∈ g.merges) :
    g.mergeAt? m.row m.col = some m := by
  rcases found : g.mergeAt? m.row m.col with _ | other
  · exact absurd (List.find?_eq_none.mp found m inMerges) (by simp)
  · obtain ⟨inOthers, row, col⟩ := mergeAt?_some found
    have positive := disjoint.positive m inMerges
    have otherSome := disjoint.positive other inOthers
    rw [disjoint.eq_of_shared inMerges inOthers row.symm (Nat.le_refl _) (Nat.le_of_eq col) (by omega) (by omega)]

theorem one_le_spanAt (disjoint : g.Disjoint) (row col : Nat) : 1 ≤ g.spanAt row col := by
  unfold spanAt
  rcases found : g.mergeAt? row col with _ | m
  · exact Nat.le_refl 1
  · exact disjoint.positive m (mergeAt?_some found).1

/-- The cell that ends in a column is the one whose span ends there. -/
theorem ends_iff (disjoint : g.Disjoint) {start : Nat} :
    g.Ends row start col ↔ g.isCovered row start = false ∧ start + g.spanAt row start = col + 1 := by
  constructor
  · rintro (⟨m, inMerges, rfl, rfl, last⟩ | ⟨rfl, clear, alone⟩)
    · refine ⟨isCovered_eq_false.mpr fun other inOthers row before => ?_, ?_⟩
      · by_contra covered
        have positive := disjoint.positive m inMerges
        obtain rfl := disjoint.eq_of_shared inOthers inMerges row (Nat.le_of_lt before) (Nat.le_refl _) (by omega)
          (by omega)
        exact Nat.lt_irrefl _ before
      · rw [spanAt, disjoint.mergeAt?_eq inMerges]
        exact last
    · exact ⟨clear, by rw [spanAt, alone]; rfl⟩
  · rintro ⟨clear, last⟩
    unfold spanAt at last
    rcases found : g.mergeAt? row start with _ | m
    · rw [found] at last
      obtain rfl : start = col := Nat.succ.inj last
      exact .inr ⟨rfl, clear, found⟩
    · rw [found] at last
      obtain ⟨inMerges, atRow, atCol⟩ := mergeAt?_some found
      exact .inl ⟨m, inMerges, atRow, atCol, by rw [atCol]; exact last⟩

/-- A cell further right is covered by a merge that ends at the same column or later. -/
theorem ends_unique (disjoint : g.Disjoint) {start other : Nat} (ends : g.Ends row start col)
    (others : g.Ends row other col) : start = other := by
  have notBefore {first second : Nat} (here : g.Ends row first col) (there : g.Ends row second col) :
      ¬first < second := by
    intro before
    obtain ⟨_, last⟩ := disjoint.ends_iff.mp here
    obtain ⟨clear, otherLast⟩ := disjoint.ends_iff.mp there
    have positive := disjoint.one_le_spanAt row second
    rcases here with ⟨m, inMerges, atRow, atCol, _⟩ | ⟨rfl, _⟩
    · have ended := isCovered_eq_false.mp clear m inMerges atRow (by omega)
      omega
    · omega
  exact Nat.le_antisymm (Nat.not_lt.mp (notBefore others ends)) (Nat.not_lt.mp (notBefore ends others))

end Disjoint

/-- How the receiver keeps the sides of a cell. A side may be asked for more than once, and every request replaces
what was drawn before. -/
structure Bordered (g : Grid) (row col : Nat) (cell : Cell) (kept : CellEntry) : Prop where
  left : .left ∈ kept.borders ↔ g.isCovered row col = false ∧ g.showsLine cell.borders.left col = true
  right : .right ∈ kept.borders ↔ ∃ start first, g.Ends row start col ∧ g.cell? row start = some first ∧
    g.showsLine first.borders.right (col + 1) = true
  top : .top ∈ kept.borders ↔ g.Ruled row col
  bottom : .bottom ∈ kept.borders ↔ row + 1 = g.rowCount ∧ ∃ line, g.rowCount ≤ line ∧ g.Ruled line col

section Sides

variable {cell : Cell}

theorem noLine_of_vertical (inside : col < g.columns.length) (vertical : side = .left ∨ side = .right) :
    Stroke.side row col side visible ∉ g.lineStrokes := by
  intro inLines
  obtain ⟨_, _, _, edge, _⟩ := (side_mem_lineStrokes inside).mp inLines
  obtain ⟨noLeft, noRight⟩ := edge_horizontal edge
  exact vertical.elim noLeft noRight

/-- The left side is asked for by the cell itself. -/
theorem left_mem_strokes (inside : col < g.columns.length) :
    Stroke.side row col .left visible ∈ g.strokes ↔ ∃ cell, g.cell? row col = some cell ∧
      g.isCovered row col = false ∧ visible = g.showsLine cell.borders.left col := by
  rw [side_mem_strokes, or_iff_left (noLine_of_vertical inside (.inl rfl)), mem_textStrokes]
  simp only [side_mem_cellStrokes, true_and, reduceCtorEq, false_and, or_false]
  constructor
  · rintro ⟨_, _, cell, atCell, clear, rfl, rfl, shown⟩
    exact ⟨cell, atCell, clear, shown⟩
  · rintro ⟨cell, atCell, clear, shown⟩
    exact ⟨row, col, cell, atCell, clear, rfl, rfl, shown⟩

/-- The right side is asked for by the cell that ends there. -/
theorem right_mem_strokes (disjoint : g.Disjoint) (inside : col < g.columns.length) :
    Stroke.side row col .right visible ∈ g.strokes ↔ ∃ start first, g.Ends row start col ∧
      g.cell? row start = some first ∧ visible = g.showsLine first.borders.right (col + 1) := by
  rw [side_mem_strokes, or_iff_left (noLine_of_vertical inside (.inr rfl)), mem_textStrokes]
  simp only [side_mem_cellStrokes, true_and, reduceCtorEq, false_and, false_or, disjoint.ends_iff]
  constructor
  · rintro ⟨_, start, first, atCell, clear, rfl, last, shown⟩
    have positive := disjoint.one_le_spanAt row start
    have same : start + g.spanAt row start = col + 1 := by omega
    exact ⟨start, first, ⟨clear, same⟩, atCell, same ▸ shown⟩
  · rintro ⟨start, first, ⟨clear, last⟩, atCell, shown⟩
    exact ⟨row, start, first, atCell, clear, rfl, by omega, last ▸ shown⟩

theorem noText_of_horizontal (noLeft : side ≠ .left) (noRight : side ≠ .right) :
    Stroke.side row col side visible ∉ g.textStrokes := by
  intro inTexts
  obtain ⟨_, _, _, _, _, inCell⟩ := mem_textStrokes.mp inTexts
  rcases (side_mem_cellStrokes.mp inCell).2 with ⟨left, _⟩ | ⟨right, _⟩
  · exact noLeft left
  · exact noRight right

/-- The top side is asked for by a line above the row. -/
theorem top_mem_strokes (inRow : row < g.rowCount) (inside : col < g.columns.length) :
    Stroke.side row col .top visible ∈ g.strokes ↔ visible = true ∧ g.Ruled row col := by
  rw [side_mem_strokes, or_iff_right (noText_of_horizontal (by decide) (by decide)), side_mem_lineStrokes inside]
  simp only [edge_eq_top, Nat.zero_lt_of_lt inRow, true_and]
  constructor
  · rintro ⟨drawn, _, ⟨_, rfl⟩, ruled⟩
    exact ⟨drawn, ruled⟩
  · rintro ⟨drawn, ruled⟩
    exact ⟨drawn, row, ⟨inRow, rfl⟩, ruled⟩

/-- The bottom side is asked for below the last row only. -/
theorem bottom_mem_strokes (inRow : row < g.rowCount) (inside : col < g.columns.length) :
    Stroke.side row col .bottom visible ∈ g.strokes ↔
      visible = true ∧ row + 1 = g.rowCount ∧ ∃ line, g.rowCount ≤ line ∧ g.Ruled line col := by
  rw [side_mem_strokes, or_iff_right (noText_of_horizontal (by decide) (by decide)), side_mem_lineStrokes inside]
  simp only [edge_eq_bottom, Nat.zero_lt_of_lt inRow, true_and]
  constructor
  · rintro ⟨drawn, line, ⟨past, last⟩, ruled⟩
    exact ⟨drawn, by omega, line, past, ruled⟩
  · rintro ⟨drawn, last, line, past, ruled⟩
    exact ⟨drawn, line, ⟨past, by omega⟩, ruled⟩

/-- Strokes on a side of a cell agree, since no two cells end in one column and lines are drawn only. -/
theorem drawnCell_bordered (disjoint : g.Disjoint) (inRow : row < g.rowCount) (inside : col < g.columns.length)
    (atCell : g.cell? row col = some cell) : g.Bordered row col cell (g.drawnCell row col) where
  left := by
    rw [mem_drawnCell_borders fun u v one other => ?agree, left_mem_strokes inside]
    case agree =>
      obtain ⟨_, atOne, _, rfl⟩ := (left_mem_strokes inside).mp one
      obtain ⟨_, atOther, _, rfl⟩ := (left_mem_strokes inside).mp other
      cases atOne.symm.trans atOther
      rfl
    rw [atCell]
    exact ⟨fun ⟨_, same, clear, shown⟩ => ⟨clear, by cases same; exact shown.symm⟩,
      fun ⟨clear, shown⟩ => ⟨cell, rfl, clear, shown.symm⟩⟩
  right := by
    rw [mem_drawnCell_borders fun u v one other => ?agree, right_mem_strokes disjoint inside]
    case agree =>
      obtain ⟨_, _, ends, atOne, rfl⟩ := (right_mem_strokes disjoint inside).mp one
      obtain ⟨_, _, others, atOther, rfl⟩ := (right_mem_strokes disjoint inside).mp other
      cases disjoint.ends_unique ends others
      cases atOne.symm.trans atOther
      rfl
    simp only [eq_comm]
  top := by
    rw [mem_drawnCell_borders fun u v one other => ?agree, top_mem_strokes inRow inside]
    case agree =>
      rw [((top_mem_strokes inRow inside).mp one).1, ((top_mem_strokes inRow inside).mp other).1]
    exact and_iff_right rfl
  bottom := by
    rw [mem_drawnCell_borders fun u v one other => ?agree, bottom_mem_strokes inRow inside]
    case agree =>
      rw [((bottom_mem_strokes inRow inside).mp one).1, ((bottom_mem_strokes inRow inside).mp other).1]
    exact and_iff_right rfl

end Sides

end Grid

namespace Markup

def ShapeBody.cell? : ShapeBody → Nat → Nat → Option CellEntry
  | .table _ rows, row, col => rows[row]?.bind fun cells => cells[col]?
  | _, _, _ => none

/-- A cell of a table that was received. -/
def State.cell? (s : State) (table row col : Nat) : Option CellEntry :=
  s.shapes[table]?.bind fun entry => entry.body.cell? row col

end Markup

namespace Grid

variable {g : Grid} {s t : State} {slide id row col : Nat} {bounds : Rect} {hidden : Bool}

theorem HasShape.inside {rows cols : Nat} (shape : g.HasShape rows cols) {cell : Cell}
    (atCell : g.cell? row col = some cell) : row < rows ∧ col < cols := by
  obtain ⟨cells, atRow, atCol⟩ := Option.bind_eq_some_iff.mp atCell
  obtain ⟨inRow, _⟩ := List.getElem?_eq_some_iff.mp atRow
  obtain ⟨inCol, _⟩ := List.getElem?_eq_some_iff.mp atCol
  exact ⟨shape.rows ▸ inRow, shape.cols cells (List.mem_of_getElem? atRow) ▸ inCol⟩

/-- All that is drawn lies in the table if its lines and merges do. -/
theorem inRange_of_inside (shape : g.HasShape g.rowCount g.columns.length) (declared : g.rowCount ≤ g.declaredRows)
    (partials : ∀ l ∈ g.partials, l.last < g.columns.length)
    (merges : ∀ m ∈ g.merges, m.row < g.declaredRows ∧ 1 ≤ m.span ∧ m.col + m.span ≤ g.columns.length) :
    g.InRange := by
  intro k inside
  rcases mem_strokes inside with ⟨cells, atRow, inRow⟩ | line | merge
  · obtain ⟨_, col, inCells, same⟩ := mem_rowStrokes inRow
    have bound := (List.getElem?_eq_some_iff.mp atRow).1
    rw [shape.cols cells (List.mem_of_getElem? atRow)] at inCells
    have span : 1 ≤ g.spanAt k.row col ∧ col + g.spanAt k.row col ≤ g.columns.length := by
      unfold spanAt
      rcases found : g.mergeAt? k.row col with _ | m
      · exact ⟨Nat.le_refl 1, inCells⟩
      · obtain ⟨inMerges, _, rfl⟩ := mergeAt?_some found
        exact (merges m inMerges).2
    rw [rowCount] at declared
    omega
  · obtain ⟨inRows, _, inCols | ⟨l, inPartials, inLine⟩⟩ := mem_lineStrokes line
    · omega
    · have last := partials l inPartials
      simp only [lineColumns, List.mem_range'_1] at inLine
      omega
  · obtain ⟨m, inMerges, rfl⟩ := mem_mergeStrokes merge
    obtain ⟨row, span, width⟩ := merges m inMerges
    dsimp only
    omega

/-- A table with cells is refused if it has more rows than were declared. -/
theorem InRange.declared (inRange : g.InRange) (shape : g.HasShape g.rowCount g.columns.length) {cell : Cell}
    (atCell : g.cell? row col = some cell) : g.rowCount ≤ g.declaredRows := by
  obtain ⟨inRow, inCol⟩ := shape.inside atCell
  have positive : 0 < g.columns.length := Nat.zero_lt_of_lt inCol
  obtain ⟨first, atFirst⟩ := shape.cell?_isSome (show g.rowCount - 1 < g.rowCount by omega) positive
  have clear : g.isCovered (g.rowCount - 1) 0 = false :=
    isCovered_eq_false.mpr fun _ _ _ before => absurd before (Nat.not_lt_zero _)
  have inStrokes := (left_mem_strokes positive).mpr ⟨first, atFirst, clear, rfl⟩
  have last : g.rowCount - 1 < g.declaredRows := (inRange _ inStrokes).1
  omega

theorem cell?_adding_drawnBody (s : State) (slide : Nat) (bounds : Rect) (hidden : Bool)
    (inRow : row < g.rowCount) (inCol : col < g.columns.length) :
    (s.adding ⟨slide, bounds, hidden, g.drawnBody, false⟩).cell? s.shapes.size row col =
      some (g.drawnCell row col) := by
  have last : (s.adding ⟨slide, bounds, hidden, g.drawnBody, false⟩).shapes[s.shapes.size]? = _ :=
    Array.getElem?_push_size
  rw [State.cell?, last, Option.bind_some, drawnBody, ShapeBody.cell?, cells, List.getElem?_map,
    List.getElem?_range inRow, Option.map_some, Option.bind_some, List.getElem?_map, List.getElem?_range inCol,
    Option.map_some]

/-- A table whose lines and merges lie inside of it is accepted with its declared rows. Each cell of a table that is
accepted, with merges that share no cells, has the sides of its own borders and of its columns, lines
above it, and below the last row those that were past the end. -/
theorem emit_borders (shape : g.HasShape g.rowCount g.columns.length)
    (partials : ∀ l ∈ g.partials, l.last < g.columns.length)
    (merges : ∀ m ∈ g.merges, m.row < g.declaredRows ∧ m.col + m.span ≤ g.columns.length) (disjoint : g.Disjoint)
    (known : slide < s.slides.size) (bounds : Rect) (hidden : Bool) :
    (g.rowCount ≤ g.declaredRows → ∃ id t, Gives (g.emit sink slide bounds hidden) s id t) ∧
      ∀ id t, Gives (g.emit sink slide bounds hidden) s id t → ∀ row col cell, g.cell? row col = some cell →
        ∃ kept, t.cell? id row col = some kept ∧ g.Bordered row col cell kept := by
  constructor
  · intro declared
    have inside : ∀ m ∈ g.merges, m.row < g.declaredRows ∧ 1 ≤ m.span ∧ m.col + m.span ≤ g.columns.length :=
      fun m inMerges => ⟨(merges m inMerges).1, disjoint.positive m inMerges, (merges m inMerges).2⟩
    have inRange := inRange_of_inside shape declared partials inside
    exact ⟨_, _, (gives_emit declared).mpr ⟨known, inRange, rfl, rfl⟩⟩
  · intro id t given row col cell atCell
    obtain ⟨_, inRange, _⟩ := gives_emit_cut.mp given
    obtain ⟨_, _, rfl, rfl⟩ := (gives_emit (inRange.declared shape atCell)).mp given
    obtain ⟨inRow, inCol⟩ := shape.inside atCell
    exact ⟨_, cell?_adding_drawnBody s slide bounds hidden inRow inCol, drawnCell_bordered disjoint inRow inCol atCell⟩

/-- Two rows of three that were declared. The first two cells of the first row are one cell, with a line of its own at
its end; there is a line above the table and two below it, past the rows that are left. -/
def cutLines : Grid where
  columns := List.replicate 3 ⟨.left, 20, true⟩
  rows := [[⟨.ofSize 10, none, ⟨none, some true⟩⟩, .empty 10, .empty 10], List.replicate 3 (.empty 10)]
  declaredRows := 3
  verticals := [0, 1]
  horizontals := [0]
  partials := [⟨2, 0, 0⟩, ⟨3, 2, 2⟩]
  merges := [⟨0, 0, 2⟩]

/-- A receiver that has made one slide. -/
def oneSlide : State := { State.ofConfig .compact with slides := #[⟨1, 1, none⟩] }

/-- The line of the merged cell stands at its last cell, and the lines past the end below the second row. -/
theorem emit_borders_cutLines :
    ∃ id t, Gives (cutLines.emit sink 0 .zero false) oneSlide id t ∧
      (∃ kept, t.cell? id 0 1 = some kept ∧ .left ∉ kept.borders ∧ .right ∈ kept.borders ∧ .top ∈ kept.borders ∧
        .bottom ∉ kept.borders) ∧
      ∃ kept, t.cell? id 1 2 = some kept ∧ .left ∉ kept.borders ∧ .right ∉ kept.borders ∧ .top ∉ kept.borders ∧
        .bottom ∈ kept.borders := by
  have disjoint : cutLines.Disjoint := ⟨by decide, List.pairwise_singleton _ _⟩
  obtain ⟨accepted, kept⟩ := emit_borders (g := cutLines) ⟨rfl, by decide⟩ (by decide) (by decide) disjoint
    (show 0 < oneSlide.slides.size by decide) .zero false
  obtain ⟨id, t, given⟩ := accepted (by decide)
  obtain ⟨first, atFirst, merged⟩ := kept id t given 0 1 (.empty 10) rfl
  obtain ⟨last, atLast, corner⟩ := kept id t given 1 2 (.empty 10) rfl
  refine ⟨id, t, given, ⟨first, atFirst, ?_, ?_, ?_, ?_⟩, last, atLast, ?_, ?_, ?_, ?_⟩
  · rw [merged.left]
    decide
  · exact merged.right.mpr ⟨0, _, .inl ⟨⟨0, 0, 2⟩, .head _, rfl, rfl, rfl⟩, rfl, rfl⟩
  · exact merged.top.mpr (.inl (.head _))
  · rw [merged.bottom]
    exact fun last => absurd last.1 (by decide)
  · rw [corner.left]
    decide
  · rw [corner.right]
    rintro ⟨start, other, ends, atOther, shown⟩
    obtain rfl := disjoint.ends_unique ends (.inr ⟨rfl, by decide, by decide⟩)
    cases atOther
    exact absurd shown (by decide)
  · rw [corner.top]
    simp [Ruled, cutLines]
  · exact corner.bottom.mpr ⟨rfl, 3, by decide, .inr ⟨⟨3, 2, 2⟩, .tail _ (.head _), rfl, by decide, by decide⟩⟩

end Grid

end Unveil
