import Unveil.ColumnSpec
import Unveil.Pass.Context

namespace Unveil

/-- The row in which a walk over a grid stands. -/
structure RowCursor where
  row : Nat
  /-- something of the row shows -/
  hasContent : Bool
  deriving Repr, DecidableEq

namespace RowCursor

/-- Rows that stay when the walk ends here. -/
def keptRows (c : RowCursor) : Nat := c.row + if c.hasContent then 1 else 0

end RowCursor

namespace Grid

/-- The shape of a grid whose walk ended at a cursor, or was completed. -/
def toShape? (g : Grid) (pausedAt : Option RowCursor) (mode : Mode) : Option Shape :=
  let g := match pausedAt with
    | some cursor => g.keepRows cursor.keptRows
    | none => g
  if !mode.emits || g.rowCount == 0 then none
  else some (.single ⟨0.0, 0.0, g.width, g.height⟩ (.table g) mode.isHidden)

end Grid

namespace Node

def isWhole (x : Float) : Bool :=
  x.isFinite && (18446744073709551616.0 ≤ x || x.toUInt64.toFloat == x)

/-- The columns that a cell asks for, 1 unless it names a positive whole number. -/
def columnSpan (n : Node) : Nat :=
  match n.payload.bind Payload.number? with
  | some x => if 1.0 ≤ x && isWhole x then x.toUInt64.toNat else 1
  | none => 1

/-- The columns that a partial line names, written `a-b` and counted from 1. -/
def namedColumns? (n : Node) : Option (Nat × Nat) := do
  let (first, last) ← Text.cutAt '-' (n.content?.getD "").toList
  let first ← Numeral.count? (Text.trim first)
  let last ← Numeral.count? (Text.trim last)
  return (first, last)

/-- The partial line that a node asks for. One that starts past the last column is ignored, one that ends there
is cut. -/
def partialLine (n : Node) (row lastCol : Nat) : Except DeckError (Option PartialLine) :=
  match n.namedColumns? with
  | none => .ok none
  | some (first, last) => do
    -- both are counted from 0 before they are looked at
    let left ← difference first 1
    let right ← difference last 1
    return if 1 ≤ first ∧ first ≤ last ∧ left ≤ lastCol then some ⟨row, left, min right lastCol⟩ else none

end Node

namespace ColumnPlan

/-- Columns with a given width have it and the padding of a cell, the others share what remains. -/
def toColumns (p : ColumnPlan) (c : Context) : List Column :=
  let given := p.columns.map fun column =>
    column.width.map fun length => length.toPoints c.measure + 2.0 * Metrics.padding
  let used := Numeral.total (given.filterMap id)
  let free := (given.filter Option.isNone).length
  let share :=
    if 0 < free then
      Numeral.larger ((c.area.width - used) / Metrics.countWidth free) (2.0 * Metrics.padding)
    else 0.0
  (p.columns.zip given).map fun (column, width) => ⟨column.align, width.getD share, width.isSome⟩

end ColumnPlan

/-- A walk over the cells of a table. -/
structure TableWalk where
  grid : Grid
  /-- the text of the cell in which the walk stands -/
  text : Inline
  cursor : RowCursor
  col : Nat

namespace TableWalk

def nextRow (t : TableWalk) : TableWalk := { t with cursor := ⟨t.cursor.row + 1, false⟩, col := 0 }

def writeCell (t : TableWalk) (rules : InlineRules) (mode : Mode) (col : Nat) (nodes : List Node) :
    Flow × TableWalk :=
  match t.grid.cell? t.cursor.row col with
  | none => (.completed, t)
  | some cell =>
    let (flow, text) := Inline.visitAll rules { t.text with body := cell.body } mode nodes
    (flow, { t with
      grid := t.grid.mapCell t.cursor.row col fun cell => { cell with body := text.body }
      text := { text with emitted := false }
      cursor := { t.cursor with hasContent := t.cursor.hasContent || text.emitted } })

/-- Gives a cell the columns, the alignment and the borders that its node asks for. -/
def spanCell (t : TableWalk) (n : Node) (col lastCol : Nat) : Except DeckError TableWalk := do
  let right ← difference lastCol col
  let span := min (max n.columnSpan 1) (right + 1)
  let (column, borders) ← (ColumnPlan.readCell n.params).mapError DeckError.columns
  let grid := t.grid.mapCell t.cursor.row col fun cell => { cell with align := some column.align, borders }
  let more ← difference span 1
  return { t with
    grid := if 1 < span then grid.addMerge ⟨t.cursor.row, col, span⟩ else grid
    col := t.col + more }

/-- Draws a partial line if there is one. -/
def drawPartial (t : TableWalk) : Option PartialLine → TableWalk
  | some line => { t with grid := t.grid.addPartial line }
  | none => t

/-- Walks one child of a table. Columns past the last one fall into it. -/
def step (t : TableWalk) (rules : InlineRules) (mode : Mode) (lastCol : Nat) (n : Node) :
    Except DeckError (Flow × TableWalk) :=
  match n.kind with
  | .tableColumn => .ok (.completed, { t with col := t.col + 1 })
  | .tableRow => .ok (.completed, t.nextRow)
  | .hline => .ok (.completed, { t with grid := t.grid.addHorizontal t.cursor.row })
  | .cline => (n.partialLine t.cursor.row lastCol).map fun line => (.completed, t.drawPartial line)
  | .multiColumn =>
    let col := min t.col lastCol
    (t.spanCell n col lastCol).map fun t => t.writeCell rules mode col [n]
  | _ => .ok (t.writeCell rules mode (min t.col lastCol) [n])

/-- Walks the children of a table in order, until a pause ends the walk. -/
def steps (t : TableWalk) (rules : InlineRules) (mode : Mode) (lastCol : Nat) :
    List Node → Except DeckError (Flow × TableWalk)
  | [] => .ok (.completed, t)
  | n :: rest =>
    match t.step rules mode lastCol n with
    | .error error => .error error
    | .ok (.paused, t) => .ok (.paused, t)
    | .ok (.completed, t) => t.steps rules mode lastCol rest

end TableWalk

namespace Node

/-- Rows of a table: a separator at the end opens one more, empty row. -/
def rowCount (n : Node) : Nat := (n.children.filter (·.kind = .tableRow)).length + 1

/-- Renders a table cell by cell. A pause cuts the table off at the row in which it stands. -/
def renderTable (n : Node) (c : Context) (tracker : Tracker) (faces : FaceStack) (mode : Mode) :
    Except DeckError Block := do
  let (mode, tracker) := mode.gate n tracker
  let plan ← (ColumnPlan.read n.params).mapError DeckError.columns
  if plan.columns.isEmpty then .error (.columns (.noColumns n.params))
  else
    let columns := plan.toColumns c
    let lastCol ← difference columns.length 1
    let size := faces.current.size
    let grid := { Grid.empty columns n.rowCount size with verticals := plan.borders }
    let start : TableWalk := ⟨grid, .ofFaces tracker faces default, ⟨0, false⟩, 0⟩
    let (flow, t) ← start.steps c.cellRules mode lastCol n.children
    let pausedAt := if flow = .paused then some t.cursor else none
    return ⟨t.grid.fitColumns.toShape? pausedAt mode, flow, t.text.deferred, t.text.tracker⟩

end Node

end Unveil
