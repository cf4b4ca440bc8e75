import Unveil.Shape

namespace Unveil

/-- Shapes that flow down an area, below one another. Of two that follow each other, a text and a float share a
row where there is room for both. -/
structure ShapeFlow where
  area : Rect
  /-- top of the next free row -/
  cursor : Float32
  /-- shapes that a following shape may be placed beside; at most one between calls -/
  group : List Shape
  /-- shapes that have their place -/
  placed : List Shape

namespace ShapeFlow

def ofArea (area : Rect) : ShapeFlow := ⟨area, area.top, [], []⟩

instance : Inhabited ShapeFlow := ⟨ofArea .zero⟩

/-- Width that is left beside a float. -/
def beside (area : Rect) (float : Shape) : Float32 := area.width - float.bounds.width - Metrics.gap

/-- A text shape of a given place and width, as high as its lines. -/
def textAt (left top width : Float32) (body : TextBody) : Shape :=
  (Shape.ofBody ⟨left, top, width, 0.0⟩ body).fitHeight

/-- A text of another width, as high as its lines. -/
def narrowed (s : Shape) (width : Float32) : Shape :=
  (s.withBounds { s.bounds with width }).fitHeight

/-- A text shape with another body, as high as its lines. -/
def withBody (body : TextBody) : Shape → Shape
  | .single bounds _ hidden => (Shape.single bounds (.text body) hidden).fitHeight
  | s => s

/-- The last line of a text moves beside the float after it, or the float moves beside a text of one
line. -/
def textThenFloat (area : Rect) (text : Shape) (body : TextBody) (float : Shape) : List Shape :=
  let lines := body.layout text.bounds.width
  let room := beside area float
  match lines.getLast? with
  | none => [text, float]
  | some last =>
    if room < last.width then [text, float]
    else if 1 < lines.length then
      let (head, tail) := body.splitAt last.start
      let text := withBody head text
      let top := text.bounds.bottom
      [text, textAt area.left top room tail, float.moveTo (area.left + room + Metrics.gap) top]
    else
      let text := narrowed text room
      [text, float.moveTo (text.bounds.right + Metrics.gap) text.bounds.top]

/-- Two floats stand side by side if the area is wide enough. -/
def floatThenFloat (area : Rect) (first second : Shape) : List Shape :=
  if first.bounds.width + Metrics.gap + second.bounds.width ≤ area.width then
    [first, second.moveTo (first.bounds.right + Metrics.gap) first.bounds.top]
  else [first, second]

/-- The first line of a text, after the first, that starts at or below a given height. -/
def lineBelow? (height : Float32) : Float32 → List Line → Option TextPos
  | _, [] => none
  | y, line :: rest => if height ≤ y then some line.start else lineBelow? height (y + line.height) rest

/-- Where the text beside a float of this height ends. The first line stands beside the float in any
case. -/
def splitBelow? (height : Float32) : List Line → Option TextPos
  | [] => none
  | first :: rest => lineBelow? height (0.0 + first.height) rest

/-- A text starts beside the float before it if its first word fits there; what reaches below the
float goes on under both. -/
def floatThenText (area : Rect) (float text : Shape) (body : TextBody) : List Shape :=
  let room := beside area float
  let indent := (body.paragraphs.head?.map Paragraph.indent).getD 0.0
  if room ≤ 0.0 || room < indent + body.firstWordWidth then [float, text]
  else
    let place (body : TextBody) : Shape :=
      narrowed ((withBody body text).moveTo (float.bounds.right + Metrics.gap) float.bounds.top) room
    match splitBelow? float.bounds.height (body.layout room) with
    | none => [float, place body]
    | some pos =>
      let (head, tail) := body.splitAt pos
      let text := place head
      [float, text,
        textAt area.left (Numeral.larger float.bounds.bottom text.bounds.bottom) area.width tail]

def arrange (area : Rect) (first second : Shape) : List Shape :=
  match first, second with
  | .single _ (.text body) _, .single _ content _ =>
    match content with
    | .text _ => [first, second]
    | _ => textThenFloat area first body second
  | .single .., .single _ (.text body) _ => floatThenText area first second body
  | .single .., .single .. => floatThenFloat area first second
  | _, _ => [first, second]

def flush (f : ShapeFlow) : ShapeFlow :=
  { f with
    cursor := f.group.foldl (fun cursor s => Numeral.larger cursor s.bounds.bottom) f.cursor
    group := []
    placed := f.placed ++ f.group }

/-- Below the shapes so far; a text takes the whole width. -/
def below (f : ShapeFlow) (s : Shape) : Shape :=
  let top := (f.group.getLast?.map fun last => last.bounds.bottom).getD f.cursor
  let s := s.moveTo f.area.left top
  match s.role with
  | .text => narrowed s f.area.width
  | _ => s

/-- Adds a shape. The second shape of a group is arranged with the first. -/
def push (f : ShapeFlow) (s : Shape) : ShapeFlow :=
  let s := f.below s
  match f.group with
  | [first] => { f with group := arrange f.area first s }.flush
  | group => { f with group := group ++ [s] }

/-- Adds a shape that stands alone in the middle of its row. -/
def pushBlock (f : ShapeFlow) (s : Shape) : ShapeFlow :=
  let f := f.flush
  let left := f.area.left + Numeral.larger ((f.area.width - s.bounds.width) / 2.0) 0.0
  let s := s.moveTo left f.cursor
  { f with cursor := s.bounds.bottom, placed := f.placed ++ [s] }

/-- All shapes in the order of their places. -/
def shapes (f : ShapeFlow) : List Shape := f.flush.placed

end ShapeFlow

end Unveil
