import Unveil.Pass.Description
import Unveil.Pass.Title
import Unveil.ShapeFlow

namespace Unveil

/-- The content of a slide as it is being rendered into a flow of shapes. Text between blocks forms one shape. -/
structure Content.Walk where
  tracker : Tracker
  faces : FaceStack
  /-- text that no block has ended yet -/
  text : Option TextBody
  flow : ShapeFlow
  deferred : List Deferred
  titlePage : TitlePage

namespace Content.Walk

/-- A walk that goes on below the shapes of a flow. -/
def start (c : Context) (tracker : Tracker) (titlePage : TitlePage) (flow : ShapeFlow) : Walk :=
  ⟨tracker, .ofBase c.settings.fontSize, none, flow, [], titlePage⟩

def push (w : Walk) (s : Shape) : Walk := { w with flow := w.flow.push s }

/-- Makes a shape of the text so far; text of blanks only is dropped. -/
def closeText (w : Walk) : Walk :=
  match w.text with
  | none => w
  | some body =>
    let w := { w with text := none }
    if Text.allBlank body.plainText.toList then w else w.push (.ofBody .zero body)

def append (w : Walk) (text : String) (mode : Mode) : Walk :=
  if mode.emits then
    let body := w.text.getD (.ofSize w.faces.current.size)
    { w with text := some (body.append text w.faces.current mode.isHidden) }
  else w

/-- Ends the text and the row of shapes, unless the content is omitted. -/
def breakParagraph (w : Walk) (mode : Mode) : Walk :=
  if mode.emits then
    let w := w.closeText
    { w with flow := w.flow.flush }
  else w

def meetPause (w : Walk) : Flow × Walk :=
  let (flow, tracker) := w.tracker.pause
  (flow, { w with tracker })

def gate (w : Walk) (n : Node) (mode : Mode) : Mode × Walk :=
  let (mode, tracker) := mode.gate n w.tracker
  (mode, { w with tracker })

/-- Opens the scope of a style, which shows if the overlay of its node does. -/
def openStyle (w : Walk) (n : Node) : Walk :=
  let (apply, tracker) := w.tracker.reveal n.overlay
  { w with tracker, faces := w.faces.enter n apply }

def closeStyle (w : Walk) : Walk := { w with faces := w.faces.leave }

def placeBlock (w : Walk) (b : Block) : Flow × Walk :=
  let w := match b.shape with
    | some s => w.push s
    | none => w
  (b.flow, { w with tracker := b.tracker, deferred := w.deferred ++ b.deferred })

/-- Renders a bullet or numbered list as a text of its own. -/
def list (w : Walk) (c : Context) (n : Node) (mode : Mode) : Flow × Walk :=
  let w := w.closeText
  let (flow, text) :=
    Inline.visit c.listRules (.ofFaces w.tracker w.faces (.ofSize w.faces.current.size)) mode n
  let w := { w with tracker := text.tracker, deferred := w.deferred ++ text.deferred }
  (flow, if text.body.isBlank then w else w.push (.ofBody .zero text.body))

/-- Height of an image by its width. -/
def imageAspect : Float32 := 0.75

/-- Width and height as the parameters ask for. With both given the image may keep its aspect and fit
between them; with neither it takes a third of the area's width. -/
def requestedSize (params : Params) (m : Measure) (areaWidth : Float32) : Float32 × Float32 :=
  let usual := areaWidth / 3.0
  let width := (params.length? "width").map (·.toPoints m)
  let height := (params.length? "height").map (·.toPoints m)
  match width, height with
  | some w, some h =>
    if params.has "keepaspectratio" then
      let fit := Numeral.smaller (w / usual) (h / (usual * imageAspect))
      (usual * fit, usual * imageAspect * fit)
    else (w, h)
  | some w, none => (w, w * imageAspect)
  | none, some h => (h / imageAspect, h)
  | none, none => (usual, usual * imageAspect)

/-- The size of an image: scaled if a positive scale is given, and never wider than the area. -/
def imageSize (params : Params) (m : Measure) (areaWidth : Float32) : Float32 × Float32 :=
  let (w, h) := requestedSize params m areaWidth
  let (w, h) := match params.number? "scale" with
    | some scale => if 0.0 < scale then (w * scale, h * scale) else (w, h)
    | none => (w, h)
  if areaWidth < w then (areaWidth, h * (areaWidth / w)) else (w, h)

/-- Renders an image. The file of an omitted one is not searched. -/
def image (w : Walk) (c : Context) (n : Node) (mode : Mode) : Except DeckError Walk := do
  let (mode, w) := w.closeText.gate n mode
  if mode.emits then
    let name := String.ofList (Text.trim (n.content?.getD "").toList)
    let path ← c.findImage name
    let (width, height) := imageSize (.read n.params) c.measure c.area.width
    return w.push (.single ⟨0.0, 0.0, width, height⟩ (.image ⟨path, name⟩) mode.isHidden)
  else return w

/-- Renders the title page on a row of its own. -/
def title (w : Walk) (c : Context) (n : Node) (mode : Mode) : Flow × Walk :=
  let (mode, w) := w.closeText.gate n mode
  let (shape, flow, tracker) := w.titlePage.render w.tracker w.faces.base c.area.width mode
  let w := { w with tracker }
  match shape with
  | some s => (flow, { w with flow := w.flow.pushBlock (s.withHidden mode.isHidden) })
  | none => (flow, w)

/-- Goes on after a walk that was not interrupted. -/
def andThen (close : Walk → Walk) : Except DeckError (Flow × Walk) → Except DeckError (Flow × Walk)
  | .ok (.completed, w) => .ok (.completed, close w)
  | interrupted => interrupted

mutual

/-- Walks one node. The first pause that is not let through ends the walk, and so does the first error. -/
def visit (c : Context) (w : Walk) (mode : Mode) : Node → Except DeckError (Flow × Walk)
  | n@⟨kind, _, _, _, children⟩ =>
    match kind with
    | .text =>
      match n.content? with
      | some text => .ok (.completed, w.append text mode)
      | none => .ok (.completed, w)
    | .paragraph => .ok (.completed, w.breakParagraph mode)
    | .pause => .ok w.meetPause
    | .style _ => andThen closeStyle (visitAll c (w.openStyle n) mode children)
    | .veil _ | .item =>
      let (mode, w) := w.gate n mode
      visitAll c w mode children
    | .list .description =>
      let w := w.closeText
      .ok (w.placeBlock (n.renderDescription c w.tracker w.faces mode))
    | .list _ => .ok (w.list c n mode)
    | .tabular =>
      let w := w.closeText
      (n.renderTable c w.tracker w.faces mode).map w.placeBlock
    | .image => (w.image c n mode).map fun w => (.completed, w)
    | .titlePage => .ok (w.title c n mode)
    | .titleField _ => .ok (.completed, { w with titlePage := w.titlePage.update n })
    | .multiColumn | .part _ | .unrecognized _ => visitAll c w mode children
    | .tableColumn | .tableRow | .hline | .cline | .frameTitle | .frameSubtitle | .heading _
    | .graphicsPath | .path => .ok (.completed, w)

/-- Walks nodes in order, until a pause or an error ends the walk. -/
def visitAll (c : Context) (w : Walk) (mode : Mode) : List Node → Except DeckError (Flow × Walk)
  | [] => .ok (.completed, w)
  | n :: rest =>
    match visit c w mode n with
    | .ok (.completed, w) => visitAll c w mode rest
    | interrupted => interrupted

end

/-- Walks nodes that have a mode each. -/
def visitEach (c : Context) (w : Walk) : List Deferred → Except DeckError (Flow × Walk)
  | [] => .ok (.completed, w)
  | d :: rest =>
    match visit c w d.mode d.node with
    | .ok (.completed, w) => visitEach c w rest
    | interrupted => interrupted

/-- Ends the text and the row of shapes. -/
def close (w : Walk) : Walk :=
  let w := w.closeText
  { w with flow := w.flow.flush }

/-- Walks nodes and ends what they leave open, also after a pause. -/
def run (c : Context) (w : Walk) (nodes : List Deferred) : Except DeckError (Flow × Walk) :=
  (visitEach c w nodes).map fun (flow, w) => (flow, w.close)

end Content.Walk

end Unveil
