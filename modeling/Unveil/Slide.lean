import Unveil.Pass.Content

namespace Unveil

/-- What a slide shows at one moment. Each pass is rendered from the whole slide. -/
structure Pass where
  /-- from 1 -/
  number : Nat
  /-- passes asked for by this one and those before it -/
  maxPass : Nat
  title : Option Shape
  shapes : List Shape

namespace Pass

def allShapes (p : Pass) : List Shape := p.title.toList ++ p.shapes

def isEmpty (p : Pass) : Bool := p.title.isNone && p.shapes.isEmpty

def bytes (p : Pass) : List UInt8 :=
  Digest.ofNat p.number ++ Digest.ofOption Shape.bytes p.title ++ Digest.ofNat p.shapes.length ++
    Shape.bytesAll p.shapes

def digest (p : Pass) : UInt64 := Blake3.hash64 p.bytes

end Pass

structure ComposedSlide where
  /-- number of the slide, from 1 -/
  index : Nat
  align : VerticalAlign
  passes : List Pass

/-- A slide with all that it is rendered from. -/
structure SlideJob where
  index : Nat
  node : Node
  frameTitle : Option FrameTitle
  titlePage : TitlePage
  align : VerticalAlign

namespace SlideJob

/-- A slide with the frame title among its own children. -/
def ofNode (index : Nat) (node : Node) : SlideJob :=
  ⟨index, node, FrameTitle.ofSlide? node, .empty, .ofOptions node.params⟩

/-- The area of the content; a frame title takes room even when it is empty. -/
def contentArea (j : SlideJob) (settings : Settings) : Rect :=
  settings.geometry.contentArea settings.scale j.frameTitle.isSome

def context (j : SlideJob) (settings : Settings) (findImage : ImageFinder) : Context :=
  ⟨settings, findImage, j.contentArea settings⟩

/-- What a pass shows, and what it found out about the passes to come. -/
structure Outcome where
  title : Option Shape
  shapes : List Shape
  paused : Bool
  maxPass : Nat

/-- Places the blocks put off by a walk, then those put off by these, and so on. Every block lies below
the one that put it off, so the height of the slide bounds the number of rounds. -/
def placeDeferred (j : SlideJob) (c : Context) (state : PassState) :
    Nat → ShapeFlow → List Deferred → Nat → Except DeckError (ShapeFlow × Nat)
  | 0, flow, _, maxPass => .ok (flow, maxPass)
  | rounds + 1, flow, pending, maxPass =>
    if pending.isEmpty then .ok (flow, maxPass)
    else do
      let start := Content.Walk.start c (.ignoringPauses state) j.titlePage flow
      let (_, w) ← start.run c pending
      placeDeferred j c state rounds w.flow w.deferred (max maxPass w.tracker.maxPass)

/-- Renders one pass: the title, the content, and below it the blocks that were put off. -/
def render (j : SlideJob) (settings : Settings) (findImage : ImageFinder) (state : PassState) :
    Except DeckError Outcome := do
  let c := j.context settings findImage
  let title := j.frameTitle.map fun f => f.render settings state
  let start := Content.Walk.start c (.ofState state) j.titlePage (.ofArea c.area)
  let (flow, w) ← start.run c (j.node.children.map fun n => ⟨n, .visible⟩)
  let titlePasses := (title.map fun t => t.tracker.maxPass).getD 1
  let (shapes, maxPass) ←
    j.placeDeferred c state j.node.height w.flow w.deferred (max titlePasses w.tracker.maxPass)
  return {
    title := title.bind FrameTitle.Outcome.shape
    shapes := shapes.shapes
    paused := (title.map fun t => t.flow == .paused).getD false || flow == .paused
    maxPass }

/-- The passes from a state on, until one ends without a pause and every overlay has had its pass. A pass that
was paused lets one more pause through on the next. -/
def passesFrom (j : SlideJob) (settings : Settings) (findImage : ImageFinder) (state : PassState)
    (maxPass : Nat) : Except DeckError (List Pass) :=
  match j.render settings findImage state with
  | .error error => .error error
  | .ok o =>
    let maxPass := max maxPass o.maxPass
    let pass : Pass := ⟨state.pass, maxPass, o.title, o.shapes⟩
    if !o.paused && maxPass ≤ state.pass then .ok [pass]
    else if settings.maxPasses ≤ state.pass then .error (.passLimit j.index settings.maxPasses)
    else
      (j.passesFrom settings findImage
        ⟨state.pass + 1, state.pauses + if o.paused then 1 else 0⟩ maxPass).map (pass :: ·)
termination_by settings.maxPasses - state.pass

/-- How far the content moves down: into the middle or to the bottom of the room that the last pass
leaves in the area, which shows everything. -/
def freeShift? (area : Rect) (align : VerticalAlign) (last : Pass) : Option Float32 :=
  let bottom := Numeral.largest area.top (last.shapes.map fun s => s.bounds.bottom)
  let free := area.bottom - bottom
  if free ≤ 0.0 then none
  else
    match align with
    | .top => none
    | .center => some (free / 2.0)
    | .bottom => some free

/-- Moves the content of all passes alike; the titles stay. -/
def alignPasses (area : Rect) (align : VerticalAlign) (passes : List Pass) : List Pass :=
  match passes.getLast?.bind (freeShift? area align) with
  | none => passes
  | some dy => passes.map fun p => { p with shapes := p.shapes.map fun s => s.moveDown dy }

def compose (j : SlideJob) (settings : Settings) (findImage : ImageFinder) :
    Except DeckError ComposedSlide :=
  (j.passesFrom settings findImage .first 1).map fun passes =>
    ⟨j.index, j.align, alignPasses (j.contentArea settings) j.align passes⟩

end SlideJob

end Unveil
