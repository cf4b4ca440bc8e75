import Unveil.Output.Call

namespace Unveil

open Calls

variable {σ : Type}

namespace TextBody

def emit (sink : Sink σ) (shape : Nat) (b : TextBody) : Calls σ Unit :=
  forEach (fun p => do
    tell sink (.paragraph shape p)
    forEach (fun r => tell sink (.run shape r)) p.runs) b.paragraphs

end TextBody

namespace Grid

def emitBody (sink : Sink σ) (table row col : Nat) (b : TextBody) : Calls σ Unit :=
  forEach (fun p => do
    tell sink (.cellParagraph table row col p)
    forEach (fun r => tell sink (.cellRun table row col r)) p.runs) b.paragraphs

/-- Whether a line is drawn: as the cell says, else as the columns say. -/
def showsLine (g : Grid) (own : Option Bool) (line : Nat) : Bool := own.getD (g.verticals.contains line)

/-- Hands a cell over with the lines at its two ends. -/
def emitCell (sink : Sink σ) (table : Nat) (g : Grid) (row col : Nat) (cell : Cell) : Calls σ Unit := do
  emitBody sink table row col cell.body
  let span := ((g.mergeAt? row col).map Merge.span).getD 1
  tell sink (.border table row col .left (g.showsLine cell.borders.left col))
  tell sink (.border table row (col + span - 1) .right (g.showsLine cell.borders.right (col + span)))

/-- Hands the cells of a row over; covered ones are passed over. -/
def emitRow (sink : Sink σ) (table : Nat) (g : Grid) (row : Nat) (cells : List Cell) : Calls σ Unit :=
  forEach (fun (cell, col) =>
    if g.isCovered row col then pure () else emitCell sink table g row col cell) cells.zipIdx

/-- The row and the side at which a horizontal line is drawn: above its row, or below the last row. -/
def edge (g : Grid) (line : Nat) : Nat × CellSide :=
  if line < g.rowCount then (line, .top) else (g.rowCount - 1, .bottom)

def emitLine (sink : Sink σ) (table : Nat) (g : Grid) (line : Nat) (cols : List Nat) : Calls σ Unit :=
  let (row, side) := g.edge line
  forEach (fun col => tell sink (.border table row col side true)) cols

def lineColumns (g : Grid) (l : PartialLine) : List Nat :=
  let last := min l.last (g.columns.length - 1)
  List.range' l.first (last + 1 - l.first)

/-- Draws the horizontal lines. A table without rows has none. -/
def emitLines (sink : Sink σ) (table : Nat) (g : Grid) : Calls σ Unit :=
  if g.rowCount = 0 then pure ()
  else do
    forEach (fun line => emitLine sink table g line (List.range g.columns.length)) g.horizontals
    forEach (fun l => emitLine sink table g l.row (g.lineColumns l)) g.partials

/-- Hands a table over: it is made with all the rows that were declared, and cut at the end. -/
def emit (sink : Sink σ) (slide : Nat) (bounds : Rect) (hidden : Bool) (g : Grid) : Calls σ Nat := do
  let table ← handle sink (.table slide g.declaredRows g.columns.length bounds hidden)
  forEach (fun (column, col) => tell sink (.columnWidth table col column.width)) g.columns.zipIdx
  forEach (fun (cells, row) => emitRow sink table g row cells) g.rows.zipIdx
  emitLines sink table g
  forEach (fun m => tell sink (.merge table m.row m.col m.span)) g.merges
  if g.rowCount < g.declaredRows then tell sink (.keepRows table g.rowCount)
  return table

end Grid

namespace Shape

mutual

/-- Hands a shape over and gives its handle. A group whose receiver makes none goes by its first
member. -/
def emit (sink : Sink σ) (slide : Nat) : Shape → Calls σ Nat
  | .single bounds (.text body) hidden => do
    let shape ← handle sink (.text slide bounds hidden)
    body.emit sink shape
    return shape
  | .single bounds (.image picture) hidden => handle sink (.image slide picture.path bounds hidden)
  | .single bounds (.table grid) hidden => grid.emit sink slide bounds hidden
  | .group _ members _ => do
    let ids ← emitAll sink slide members
    return ((← make sink (.group slide ids)).or ids.head?).getD 0

def emitAll (sink : Sink σ) (slide : Nat) : List Shape → Calls σ (List Nat)
  | [] => return []
  | s :: rest => do
    let id ← emit sink slide s
    return id :: (← emitAll sink slide rest)

end

end Shape

/-- Hands one pass over. What is refused after the slide was made is told with its number. -/
def Pass.emit (sink : Sink σ) (slide : ComposedSlide) (pass : Pass) : Calls σ Unit := do
  let id ← handle sink (.slide slide pass)
  forEach (fun s => inSlide slide.index do
    let _ ← s.emit sink id) pass.allShapes

def ComposedSlide.emit (sink : Sink σ) (slide : ComposedSlide) : Calls σ Unit :=
  forEach (Pass.emit sink slide) slide.passes

/-- Hands slides over to a receiver, pass by pass and shape by shape, and finishes the output. -/
def emitSlides (sink : Sink σ) (format : SaveFormat) (slides : List ComposedSlide) : Calls σ Unit := do
  forEach (ComposedSlide.emit sink) slides
  tell sink (.finish format)

end Unveil
