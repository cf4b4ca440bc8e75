import Unveil.Ascending
import Unveil.Body.Layout

namespace Unveil

structure Column where
  align : Align
  width : Float32
  /-- the width was given and is kept -/
  fixed : Bool
  deriving Repr, BEq

/-- Lines beside one cell that replace those of its columns. -/
structure CellBorders where
  left : Option Bool
  right : Option Bool
  deriving Repr, DecidableEq

structure Cell where
  body : TextBody
  /-- replaces the alignment of the column -/
  align : Option Align
  borders : CellBorders
  deriving Repr, BEq

/-- The cells from `col` on, `span` of them, taken as one. -/
structure Merge where
  row : Nat
  col : Nat
  span : Nat
  deriving Repr, DecidableEq

/-- A line above `row` from one column to another, both included. -/
structure PartialLine where
  row : Nat
  first : Nat
  last : Nat
  deriving Repr, DecidableEq

/-- A table: cells in rows under columns, with lines between cells and cells merged over columns. -/
structure Grid where
  columns : List Column
  rows : List (List Cell)
  /-- number of rows before rows were taken away at the end -/
  declaredRows : Nat
  /-- `i` is the line left of column `i` -/
  verticals : List Nat
  /-- `i` is the line above row `i` -/
  horizontals : List Nat
  partials : List PartialLine
  merges : List Merge
  deriving Repr, BEq

namespace Cell

def empty (size : Float32) : Cell := ⟨.ofSize size, none, ⟨none, none⟩⟩

end Cell

namespace Merge

/-- `true` for a cell that the merged cell hides. -/
def covers (m : Merge) (row col : Nat) : Bool := m.row == row && m.col < col && col < m.col + m.span

end Merge

namespace Grid

def empty (columns : List Column) (rows : Nat) (size : Float32) : Grid :=
  ⟨columns, List.replicate rows (List.replicate columns.length (.empty size)), rows, [], [], [], []⟩

def rowCount (g : Grid) : Nat := g.rows.length

def cell? (g : Grid) (row col : Nat) : Option Cell := g.rows[row]?.bind fun cells => cells[col]?

def mapCell (g : Grid) (row col : Nat) (f : Cell → Cell) : Grid :=
  { g with rows := g.rows.modify row fun cells => cells.modify col f }

def addVertical (g : Grid) (i : Nat) : Grid := { g with verticals := Ascending.insert i g.verticals }

def addHorizontal (g : Grid) (i : Nat) : Grid :=
  { g with horizontals := Ascending.insert i g.horizontals }

def addPartial (g : Grid) (line : PartialLine) : Grid := { g with partials := g.partials ++ [line] }

def addMerge (g : Grid) (m : Merge) : Grid := { g with merges := g.merges ++ [m] }

def mergeAt? (g : Grid) (row col : Nat) : Option Merge :=
  g.merges.find? fun m => m.row == row && m.col == col

/-- `true` for a cell that lies under a merge from further left. -/
def isCovered (g : Grid) (row col : Nat) : Bool := g.merges.any (·.covers row col)

/-- Only the first rows. The line below the last kept row stays. -/
def keepRows (g : Grid) (count : Nat) : Grid :=
  if g.rowCount ≤ count then g
  else
    { g with
      rows := g.rows.take count
      merges := g.merges.filter (·.row < count)
      horizontals := g.horizontals.filter (· ≤ count)
      partials := g.partials.filter (·.row ≤ count) }

def width (g : Grid) : Float32 := Numeral.total (g.columns.map Column.width)

/-- Width for the text of a cell: its columns less the padding. -/
def cellWidth (g : Grid) (row col : Nat) : Float32 :=
  let span := ((g.mergeAt? row col).map Merge.span).getD 1
  let outer := Numeral.total (((g.columns.drop col).take span).map Column.width)
  Numeral.larger (outer - 2.0 * Metrics.padding) 0.0

/-- A row is as high as its highest cell that is not covered. -/
def rowHeight (g : Grid) (row : Nat) (cells : List Cell) : Float32 :=
  let heights := cells.zipIdx.filterMap fun (cell, col) =>
    if g.isCovered row col then none else some (cell.body.heightAt (g.cellWidth row col))
  Numeral.largest 0.0 heights + 2.0 * Metrics.padding

def rowHeights (g : Grid) : List Float32 := g.rows.zipIdx.map fun (cells, row) => g.rowHeight row cells

def height (g : Grid) : Float32 := Numeral.total g.rowHeights

/-- An infinite width, at which no line is broken. -/
def unbounded : Float32 := Float32.ofBits 0x7F800000

/-- The width that the unmerged cells of a column need. -/
def requiredWidth (g : Grid) (col : Nat) : Float32 :=
  let widths := g.rows.zipIdx.filterMap fun (cells, row) =>
    if g.isCovered row col || ((g.mergeAt? row col).map fun m => m.span != 1).getD false then none
    else cells[col]?.map fun cell => Line.maxWidth (cell.body.layout unbounded)
  Numeral.largest 0.0 widths + 2.0 * Metrics.padding

/-- Narrows the columns that have no given width to what their cells need. -/
def fitColumns (g : Grid) : Grid :=
  { g with
    columns := g.columns.zipIdx.map fun (column, col) =>
      if column.fixed then column
      else { column with width := Numeral.smaller column.width (g.requiredWidth col) } }

end Grid

namespace Column

def bytes (c : Column) : List UInt8 :=
  Digest.ofNat c.align.index ++ Digest.ofFloat32 c.width ++ Digest.ofBool c.fixed

end Column

namespace CellBorders

/-- 0 for no border of its own, 1 for a border left out, 2 for a border. -/
def code : Option Bool → Nat
  | none => 0
  | some false => 1
  | some true => 2

end CellBorders

namespace Cell

def bytes (c : Cell) : List UInt8 :=
  c.body.bytes ++ Digest.ofNat ((c.align.map fun a => a.index + 1).getD 0) ++
    Digest.ofNat (CellBorders.code c.borders.left) ++ Digest.ofNat (CellBorders.code c.borders.right)

end Cell

namespace PartialLine

def bytes (l : PartialLine) : List UInt8 :=
  Digest.ofNat l.row ++ Digest.ofNat l.first ++ Digest.ofNat l.last

end PartialLine

namespace Merge

def bytes (m : Merge) : List UInt8 := Digest.ofNat m.row ++ Digest.ofNat m.col ++ Digest.ofNat m.span

end Merge

namespace Grid

def bytes (g : Grid) : List UInt8 :=
  Digest.ofNat g.columns.length ++ Digest.ofNat g.declaredRows ++ g.columns.flatMap Column.bytes ++
    g.rows.flatMap (Digest.ofList Cell.bytes) ++ Digest.ofString "|" ++
    g.verticals.flatMap Digest.ofNat ++ Digest.ofString "-" ++ g.horizontals.flatMap Digest.ofNat ++
    g.partials.flatMap PartialLine.bytes ++ g.merges.flatMap Merge.bytes

end Grid

end Unveil
