import Unveil.Pass.Table

namespace Unveil

/-- A walk over the items of a description list. -/
structure DescriptionWalk where
  grid : Grid
  /-- the text of the definition in which the walk stands -/
  text : Inline
  /-- the row of the last item, if there was one -/
  cursor : Option RowCursor

namespace DescriptionWalk

/-- The row after the items so far. -/
def nextRow (d : DescriptionWalk) : Nat := (d.cursor.map fun c => c.row + 1).getD 0

/-- Writes the term of an item, bold; an omitted or empty one leaves no trace. -/
def writeTerm (d : DescriptionWalk) (face : Face) (row : Nat) (term : String) (mode : Mode) :
    Bool × Grid :=
  if mode.emits && !term.isEmpty && (d.grid.cell? row 0).isSome then
    (true, d.grid.mapCell row 0 fun cell =>
      { cell with body := cell.body.append term { face with bold := true } mode.isHidden })
  else (false, d.grid)

/-- Walks an item into the next row. -/
def item (d : DescriptionWalk) (rules : InlineRules) (face : Face) (mode : Mode) (n : Node) :
    Flow × DescriptionWalk :=
  let row := d.nextRow
  let (mode, text) := d.text.gate n mode
  let (hasTerm, grid) := d.writeTerm face row n.params mode
  match grid.cell? row 1 with
  | none => (.completed, { d with grid, text })
  | some cell =>
    let (flow, text) := Inline.visitAll rules { text with body := cell.body } mode n.children
    (flow, {
      grid := grid.mapCell row 1 fun cell => { cell with body := text.body }
      text := { text with emitted := false }
      cursor := some ⟨row, hasTerm || text.emitted⟩ })

/-- Walks the children of a list in order. A pause between items stands at the row after them. Besides
the state, the result tells where a pause ended the walk. -/
def steps (d : DescriptionWalk) (rules : InlineRules) (face : Face) (mode : Mode) :
    List Node → Option RowCursor × DescriptionWalk
  | [] => (none, d)
  | n :: rest =>
    match n.kind with
    | .item =>
      match d.item rules face mode n with
      | (.paused, d) => (d.cursor, d)
      | (.completed, d) => d.steps rules face mode rest
    | .pause =>
      match d.text.meetPause with
      | (.paused, text) => (some ⟨d.nextRow, false⟩, { d with text })
      | (.completed, text) => { d with text }.steps rules face mode rest
    | _ => d.steps rules face mode rest

end DescriptionWalk

namespace Node

/-- Share of the terms in the width. -/
def termShare : Float32 := 0.3

def descriptionColumns (width : Float32) : List Column :=
  let term := width * termShare
  [⟨.left, term, true⟩, ⟨.left, width - term, true⟩]

def itemCount (n : Node) : Nat := (n.children.filter (·.kind = .item)).length

/-- Renders a description list as a table with a row for each item, the term on the left. -/
def renderDescription (n : Node) (c : Context) (tracker : Tracker) (faces : FaceStack) (mode : Mode) :
    Block :=
  let (mode, tracker) := mode.gate n tracker
  let face := faces.current
  let start : DescriptionWalk :=
    ⟨.empty (descriptionColumns c.area.width) n.itemCount face.size, .ofFaces tracker faces default, none⟩
  let (pausedAt, d) := start.steps c.cellRules face mode n.children
  ⟨d.grid.toShape? pausedAt mode, if pausedAt.isSome then .paused else .completed, d.text.deferred,
    d.text.tracker⟩

end Node

end Unveil
