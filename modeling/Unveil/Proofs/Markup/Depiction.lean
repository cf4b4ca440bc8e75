import Unveil.Proofs.Markup.Drawing
import Unveil.Proofs.Markup.Finished
import Unveil.Proofs.Table.Intact

namespace Unveil

/-- A table whose rows are as long as its columns are many, of which rows were at most taken away, and
in which merges join something. -/
structure Grid.Regular (g : Grid) : Prop where
  shape : g.HasShape g.rowCount g.columns.length
  kept : g.rowCount ≤ g.declaredRows
  spans : ∀ m ∈ g.merges, 1 ≤ m.span

namespace Shape

/-- The rectangle around some rectangles and those to come. -/
def around (bounds : Option Rect) : List Rect → Option Rect
  | [] => bounds
  | r :: rest => around (some ((bounds.map fun b => b.union r).getD r)) rest

mutual

/-- The bounds of a shape in the output: a group lies around its members. -/
def frame : Shape → Rect
  | single bounds _ _ => bounds
  | group _ members _ => (around none (frames members)).getD .zero

def frames : List Shape → List Rect
  | [] => []
  | s :: rest => frame s :: frames rest

end

end Shape

def Pass.grids (p : Pass) : List Grid := Shape.gridsAll p.allShapes

def ComposedSlide.grids (slide : ComposedSlide) : List Grid := slide.passes.flatMap Pass.grids

namespace Markup

open Calls State

def paragraphOf (p : Paragraph) : Element := paragraphElement (.whole p)

/-- The cells of a table row by row. A covered cell is empty, any other has its own paragraphs. The
attributes of cells tell spans and lines. -/
def gridRows (attributes : Grid → Nat → Nat → List Attribute) (g : Grid) : List Element :=
  g.rows.zipIdx.map fun (cells, row) =>
    .node "row" [] (cells.zipIdx.map fun (cell, col) =>
      .node "cell" (attributes g row col)
        (if g.isCovered row col then [] else cell.body.paragraphs.map paragraphOf))

mutual

/-- The element of a shape, with its members inside. -/
def shapeOf (attributes : Grid → Nat → Nat → List Attribute) : Shape → Element
  | .single bounds (.text body) hidden =>
    .node "text" (boundsAttributes bounds hidden) (body.paragraphs.map paragraphOf)
  | .single bounds (.image picture) hidden =>
    .empty "image" (boundsAttributes bounds hidden ++ [("src", picture.path)])
  | .single bounds (.table g) hidden =>
    .node "table" (boundsAttributes bounds hidden ++
      [("columns", " ".intercalate (g.columns.map fun c => Numeral.oneDecimal c.width))])
      (gridRows attributes g)
  | .group bounds members hidden =>
    .node "group" (boundsAttributes (Shape.group bounds members hidden).frame false)
      (shapesOf attributes members)

def shapesOf (attributes : Grid → Nat → Nat → List Attribute) : List Shape → List Element
  | [] => []
  | s :: rest => shapeOf attributes s :: shapesOf attributes rest

end

/-- The element of a pass: the title and then the other shapes. -/
def passOf (attributes : Grid → Nat → Nat → List Attribute) (digest : Pass → Option UInt64)
    (slide : ComposedSlide) (pass : Pass) : Element :=
  .node "slide"
    ([("index", toString slide.index), ("pass", toString pass.number)] ++
      ((digest pass).map fun d => ("digest", digestText d)).toList)
    (shapesOf attributes pass.allShapes)

/-- How some slides are to be seen in the markup, with one slide in it for each pass. -/
def deckOf (attributes : Grid → Nat → Nat → List Attribute) (digest : Pass → Option UInt64)
    (slides : List ComposedSlide) : Element :=
  let passes := slides.flatMap fun slide => slide.passes.map fun pass => (slide, pass)
  .node "deck" [("slides", toString passes.length)]
    (passes.map fun (slide, pass) => passOf attributes digest slide pass)

def cellAttributes (c : CellEntry) : List Attribute :=
  (if 1 < c.span then [("span", toString c.span)] else []) ++
    (if c.borders.isEmpty then [] else [("border", " ".intercalate (c.borders.map sideName))])

/-- The spans and lines of the cells of a table, as its strokes draw them. -/
def drawnAttributes (g : Grid) (row col : Nat) : List Attribute := cellAttributes (g.drawnCell row col)

theorem map_range_zipIdx {α β : Type} {f : Nat → β} {g : α × Nat → β} {xs : List α}
    (same : ∀ i x, xs[i]? = some x → f i = g (x, i)) : (List.range xs.length).map f = xs.zipIdx.map g := by
  refine List.ext_getElem (by simp) fun i inside _ => ?_
  have bound : i < xs.length := by simpa using inside
  simpa using same i xs[i] (List.getElem?_eq_getElem bound)

/-- The drawn cells of a regular table are those that are to be seen. -/
theorem map_rowElement_cells {g : Grid} (regular : g.Regular) :
    (cells g.rowCount g.columns.length g.drawnCell).map rowElement = gridRows drawnAttributes g := by
  rw [cells, List.map_map]
  refine map_range_zipIdx fun row cells atRow => ?_
  have width := regular.shape.cols cells (List.mem_of_getElem? atRow)
  rw [← width]
  refine congrArg (Element.node "row" []) ?_
  rw [List.map_map]
  refine map_range_zipIdx fun col cell atCol => ?_
  have written := Grid.drawnCell_paragraphs atRow atCol
  have element : cellElement (g.drawnCell row col) = .node "cell" (drawnAttributes g row col)
      ((g.drawnCell row col).paragraphs.map paragraphElement) := rfl
  dsimp only [Function.comp_apply]
  rw [element, written]
  split
  · rfl
  · rw [List.map_map]
    rfl

end Markup

end Unveil
