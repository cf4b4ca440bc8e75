import Unveil.Pass.Context
import Unveil.Record

namespace Unveil

/-- Blocks in titles become text. -/
def titleRules : InlineRules := ⟨.asText, false⟩

namespace FrameTitle

def titleSize : Float32 := 16.0

def subtitleSize : Float32 := 8.0

/-- A frame title on one pass. It has a tracker of its own. -/
structure Outcome where
  shape : Option Shape
  flow : Flow
  tracker : Tracker

/-- Walks a part of the title; what its overlay does not show is hidden. -/
def walkPart (tracker : Tracker) (body : TextBody) (size : Float32) (overlay : Overlay)
    (nodes : List Node) : Flow × Inline :=
  let (shown, tracker) := tracker.reveal overlay
  Inline.visitAll titleRules (.ofFaces tracker (.ofBase size) body)
    (if shown then .visible else .hidden) nodes

/-- Walks the title and, unless a pause ends it, the subtitle on a paragraph of its own. -/
def walk (f : FrameTitle) (scale : Float32) (tracker : Tracker) : Flow × Inline :=
  match walkPart tracker (.ofSize (titleSize * scale)) (titleSize * scale) f.titleOverlay f.title with
  | (.paused, text) => (.paused, text)
  | (.completed, text) =>
    match f.subtitle with
    | none => (.completed, text)
    | some nodes =>
      let size := subtitleSize * scale
      walkPart text.tracker (text.body.startParagraph none 0 size) size f.subtitleOverlay nodes

def render (f : FrameTitle) (settings : Settings) (state : PassState) : Outcome :=
  let (flow, text) := f.walk settings.scale (.ofState state)
  let bounds := settings.geometry.titleArea settings.scale
  ⟨if text.body.isBlank then none else some (.ofBody bounds text.body), flow, text.tracker⟩

end FrameTitle

namespace TitlePage

/-- The parts from top to bottom, with their sizes relative to the base size. -/
def parts (p : TitlePage) : List (Option (List Node) × Float32) :=
  [(p.title, 1.44), (p.author, 1.0), (p.date, 0.9)]

/-- A title page that is being placed. -/
structure Walk where
  members : List Shape
  /-- where the next part starts -/
  top : Float32
  tracker : Tracker

/-- Walks one part: a centred text below the parts before it, half a line away. -/
def walkPart (w : Walk) (size width : Float32) (mode : Mode) (nodes : List Node) : Flow × Walk :=
  let (flow, text) :=
    Inline.visitAll titleRules
      (.ofFaces w.tracker (.ofBase size) ((TextBody.ofSize size).setAlign .center)) mode nodes
  if mode.emits && !text.body.isBlank then
    let shape := (Shape.ofBody ⟨0.0, w.top, width, 0.0⟩ text.body).fitHeight
    (flow, ⟨w.members ++ [shape], shape.bounds.bottom + size * 0.5, text.tracker⟩)
  else (flow, { w with tracker := text.tracker })

/-- Walks the parts that are set, until a pause ends the walk. -/
def walk (w : Walk) (base width : Float32) (mode : Mode) :
    List (Option (List Node) × Float32) → Flow × Walk
  | [] => (.completed, w)
  | (none, _) :: rest => walk w base width mode rest
  | (some nodes, factor) :: rest =>
    match walkPart w (base * factor) width mode nodes with
    | (.paused, w) => (.paused, w)
    | (.completed, w) => walk w base width mode rest

def group? : List Shape → Option Shape
  | [] => none
  | first :: rest =>
    some (.group ((first :: rest).foldl (fun bounds s => bounds.union s.bounds) first.bounds)
      (first :: rest) false)

/-- Renders the title page in the tracker of the slide. -/
def render (p : TitlePage) (tracker : Tracker) (base width : Float32) (mode : Mode) :
    Option Shape × Flow × Tracker :=
  let (flow, w) := walk ⟨[], 0.0, tracker⟩ base width mode p.parts
  (group? w.members, flow, w.tracker)

end TitlePage

end Unveil
