import Unveil.Markup.Element
import Unveil.Output.Call

namespace Unveil.Markup

structure Config where
  /-- slides carry the digest of their pass -/
  digests : Bool
  /-- elements stand on lines of their own -/
  pretty : Bool
  deriving Repr, DecidableEq

namespace Config

def debug : Config := ⟨true, true⟩

def compact : Config := ⟨false, false⟩

instance : Inhabited Config := ⟨debug⟩

end Config

/-- Why a call is refused: it names something that does not exist. -/
inductive Fault where
  | slide (id : Nat)
  | shape (id : Nat)
  | textShape (id : Nat)
  | table (id : Nat)
  | column (col : Nat)
  | cell (row col : Nat)
  deriving Repr, DecidableEq

namespace Fault

def message : Fault → String
  | slide id => "unknown slide " ++ toString id
  | shape id => "unknown shape " ++ toString id
  | textShape id => "unknown text shape " ++ toString id
  | table id => "unknown table " ++ toString id
  | column col => "unknown table column " ++ toString col
  | cell row col => "unknown table cell " ++ toString row ++ ":" ++ toString col

end Fault

structure ParagraphEntry where
  level : Nat
  align : Align
  /-- label, and whether it is hidden -/
  bullet : Option (String × Bool)
  runs : List Run

namespace ParagraphEntry

/-- A paragraph that no call has started. -/
def plain : ParagraphEntry := ⟨0, .left, none, []⟩

def ofParagraph (p : Paragraph) : ParagraphEntry :=
  ⟨p.level, p.align, p.bullet.map fun b => (b.mark.label, b.hidden), []⟩

/-- Adds a run to the last paragraph, which is made if there is none. -/
def addRun (run : Run) : List ParagraphEntry → List ParagraphEntry
  | [] => [{ plain with runs := [run] }]
  | [p] => [{ p with runs := p.runs ++ [run] }]
  | p :: rest => p :: addRun run rest

end ParagraphEntry

structure CellEntry where
  paragraphs : List ParagraphEntry
  /-- the sides with a line, in the order in which they were drawn last -/
  borders : List CellSide
  span : Nat

def CellEntry.empty : CellEntry := ⟨[], [], 1⟩

inductive ShapeBody where
  | text (paragraphs : List ParagraphEntry)
  | image (path : String)
  | table (widths : List Float32) (rows : List (List CellEntry))
  | group (members : List Nat)

structure ShapeEntry where
  slide : Nat
  bounds : Rect
  hidden : Bool
  body : ShapeBody
  /-- written only inside of groups -/
  grouped : Bool

structure SlideEntry where
  index : Nat
  pass : Nat
  digest : Option UInt64

/-- Everything received so far, and the text of the last finish. -/
structure State where
  config : Config
  slides : Array SlideEntry
  shapes : Array ShapeEntry
  output : String

namespace State

def ofConfig (config : Config) : State := ⟨config, #[], #[], ""⟩

instance : Inhabited State := ⟨ofConfig default⟩

/-- A change that a call asks for, with the handle of what it makes. -/
abbrev Change := Except Fault (Option Nat × State)

def addSlide (s : State) (slide : ComposedSlide) (pass : Pass) : Change :=
  .ok (some s.slides.size, { s with
    slides := s.slides.push
      ⟨slide.index, pass.number, if s.config.digests then some pass.digest else none⟩ })

def addShape (s : State) (slide : Nat) (bounds : Rect) (hidden : Bool) (body : ShapeBody) : Change :=
  if slide < s.slides.size then
    .ok (some s.shapes.size, { s with shapes := s.shapes.push ⟨slide, bounds, hidden, body, false⟩ })
  else .error (.slide slide)

/-- Changes the body of a shape, unless the change is refused. -/
def changeBody (s : State) (shape : Nat) (f : ShapeBody → Except Fault ShapeBody) : Change :=
  match s.shapes[shape]? with
  | none => .error (.shape shape)
  | some entry =>
    (f entry.body).map fun body =>
      (none, { s with shapes := s.shapes.modify shape fun entry => { entry with body } })

def changeText (s : State) (shape : Nat) (f : List ParagraphEntry → List ParagraphEntry) : Change :=
  s.changeBody shape fun body =>
    match body with
    | .text paragraphs => .ok (.text (f paragraphs))
    | _ => .error (.textShape shape)

def changeCell (s : State) (table row col : Nat) (f : CellEntry → CellEntry) : Change :=
  s.changeBody table fun body =>
    match body with
    | .table widths rows =>
      match rows[row]?.bind fun cells => cells[col]? with
      | some _ => .ok (.table widths (rows.modify row fun cells => cells.modify col f))
      | none => .error (.cell row col)
    | _ => .error (.table table)

def setWidth (s : State) (table col : Nat) (width : Float32) : Change :=
  s.changeBody table fun body =>
    match body with
    | .table widths rows =>
      if col < widths.length then .ok (.table (widths.set col width) rows) else .error (.column col)
    | _ => .error (.column col)

def keepRows (s : State) (table count : Nat) : Change :=
  s.changeBody table fun body =>
    match body with
    | .table widths rows => .ok (.table widths (rows.take count))
    | _ => .error (.table table)

/-- Draws a side of a cell or takes it away. -/
def setBorder (side : CellSide) (visible : Bool) (cell : CellEntry) : CellEntry :=
  let others := cell.borders.filter (· ≠ side)
  { cell with borders := if visible then others ++ [side] else others }

/-- Marks shapes as members of a group and gives the bounds around them. The marks made before a shape
that does not exist stay. -/
def markGrouped (s : State) (bounds : Option Rect) : List Nat → Except Fault (Option Rect) × State
  | [] => (.ok bounds, s)
  | id :: rest =>
    match s.shapes[id]? with
    | none => (.error (.shape id), s)
    | some entry =>
      { s with shapes := s.shapes.modify id fun entry => { entry with grouped := true } }.markGrouped
        (some (match bounds with
          | some around => around.union entry.bounds
          | none => entry.bounds))
        rest

def group (s : State) (slide : Nat) (members : List Nat) : Except Fault (Option Nat) × State :=
  match s.markGrouped none members with
  | (.error fault, s) => (.error fault, s)
  | (.ok bounds, s) =>
    match s.addShape slide (bounds.getD .zero) false (.group members) with
    | .ok (id, s) => (.ok id, s)
    | .error fault => (.error fault, s)

def boundsAttributes (r : Rect) (hidden : Bool) : List Attribute :=
  [("x", Numeral.oneDecimal r.left), ("y", Numeral.oneDecimal r.top),
    ("w", Numeral.oneDecimal r.width), ("h", Numeral.oneDecimal r.height)] ++
  if hidden then [("hidden", "true")] else []

def alignName : Align → String
  | .left => "left"
  | .center => "center"
  | .right => "right"

def sideName : CellSide → String
  | .left => "left"
  | .right => "right"
  | .top => "top"
  | .bottom => "bottom"

/-- An attribute that is written only when it holds. -/
def flag (name : String) (on : Bool) : List Attribute := if on then [(name, "true")] else []

def runElement (r : Run) : Element :=
  .leaf "run"
    ([("font", r.face.font), ("size", Numeral.oneDecimal r.face.size), ("color", r.face.color.toHex)] ++
      flag "bold" r.face.bold ++ flag "italic" r.face.italic ++ flag "underline" r.face.underline ++
      flag "smallcaps" r.face.smallCaps ++ flag "hidden" r.hidden)
    r.text

def bulletAttributes : Option (String × Bool) → List Attribute
  | none => []
  | some (label, hidden) => ("bullet", label) :: flag "bullet-hidden" hidden

def paragraphElement (p : ParagraphEntry) : Element :=
  .node "p"
    ((if 0 < p.level then [("level", toString p.level)] else []) ++
      (if p.align = .left then [] else [("align", alignName p.align)]) ++ bulletAttributes p.bullet)
    (p.runs.map runElement)

def cellElement (c : CellEntry) : Element :=
  .node "cell"
    ((if 1 < c.span then [("span", toString c.span)] else []) ++
      (if c.borders.isEmpty then [] else [("border", " ".intercalate (c.borders.map sideName))]))
    (c.paragraphs.map paragraphElement)

def rowElement (cells : List CellEntry) : Element := .node "row" [] (cells.map cellElement)

/-- The element of a shape. The members of a group were made before it. -/
def shapeElement (s : State) (id : Nat) : Option Element :=
  s.shapes[id]?.map fun entry =>
    let attributes := boundsAttributes entry.bounds entry.hidden
    match entry.body with
    | .text paragraphs => .node "text" attributes (paragraphs.map paragraphElement)
    | .image path => .empty "image" (attributes ++ [("src", path)])
    | .table widths rows =>
      .node "table" (attributes ++ [("columns", " ".intercalate (widths.map Numeral.oneDecimal))])
        (rows.map rowElement)
    | .group members =>
      .node "group" attributes (members.filterMap fun member =>
        if _earlier : member < id then s.shapeElement member else none)
termination_by id

/-- The shapes of a slide that are in no group. -/
def slideShapes (s : State) (slide : Nat) : List Nat :=
  (List.range s.shapes.size).filter fun id =>
    (s.shapes[id]?.map fun entry => entry.slide == slide && !entry.grouped).getD false

/-- A 64 bit number in base sixteen, with all sixteen digits. -/
def digestText (d : UInt64) : String :=
  let digits := Nat.toDigits 16 d.toNat
  String.ofList (List.replicate (16 - digits.length) '0' ++ digits)

def slideElement (s : State) (id : Nat) (slide : SlideEntry) : Element :=
  .node "slide"
    ([("index", toString slide.index), ("pass", toString slide.pass)] ++
      (slide.digest.map fun d => ("digest", digestText d)).toList)
    ((s.slideShapes id).filterMap s.shapeElement)

/-- Everything received so far as one element. -/
def deckElement (s : State) : Element :=
  .node "deck" [("slides", toString s.slides.size)]
    (s.slides.toList.zipIdx.map fun (slide, id) => s.slideElement id slide)

/-- Writes the text. The format of the file has no influence on it. -/
def finish (s : State) : State :=
  { s with output := if s.config.pretty then s.deckElement.pretty else s.deckElement.compact }

/-- The change that a call asks for, for calls that do all or nothing. -/
def change (s : State) : Call → Change
  | .slide slide pass => s.addSlide slide pass
  | .text slide bounds hidden => s.addShape slide bounds hidden (.text [])
  | .paragraph shape p => s.changeText shape fun ps => ps ++ [.ofParagraph p]
  | .run shape run => s.changeText shape (ParagraphEntry.addRun run)
  | .image slide path bounds hidden => s.addShape slide bounds hidden (.image path)
  | .table slide rows cols bounds hidden =>
    s.addShape slide bounds hidden
      (.table (List.replicate cols 0.0) (List.replicate rows (List.replicate cols .empty)))
  | .columnWidth table col width => s.setWidth table col width
  | .cellParagraph table row col p =>
    s.changeCell table row col fun cell =>
      { cell with paragraphs := cell.paragraphs ++ [.ofParagraph p] }
  | .cellRun table row col run =>
    s.changeCell table row col fun cell =>
      { cell with paragraphs := ParagraphEntry.addRun run cell.paragraphs }
  | .border table row col side visible => s.changeCell table row col (setBorder side visible)
  | .merge table row col span => s.changeCell table row col fun cell => { cell with span }
  | .keepRows table count => s.keepRows table count
  | .group _ _ => .ok (none, s)
  | .finish _ => .ok (none, s.finish)

/-- A receiver that keeps slides as markup. Slides and shapes are numbered from 0 in the order in which they are
made. -/
def sink : Sink State := fun s call =>
  let refuse (fault : Fault) : Answer := .error (.sink fault.message)
  match call with
  | .group slide members =>
    match s.group slide members with
    | (.ok id, s) => (.ok id, s)
    | (.error fault, s) => (refuse fault, s)
  | call =>
    match s.change call with
    | .ok (id, s) => (.ok id, s)
    | .error fault => (refuse fault, s)

end State

end Unveil.Markup
