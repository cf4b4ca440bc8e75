import Unveil.Output.Emission
import Unveil.Record

namespace Unveil

/-- The slides of a document with all their passes. -/
structure Presentation where
  slides : List ComposedSlide
  headings : List Heading
  saveAs : SaveFormat

namespace Presentation

def passes (p : Presentation) : List Pass := p.slides.flatMap ComposedSlide.passes

def passCount (p : Presentation) : Nat := p.passes.length

def shapeCount (p : Presentation) : Nat :=
  (p.passes.flatMap Pass.allShapes).length

def emit {σ : Type} (sink : Sink σ) (p : Presentation) : Calls σ Unit := emitSlides sink p.saveAs p.slides

end Presentation

inductive ImageSource where
  | finder (find : ImageFinder)
  /-- files below a base directory and the paths of the preamble -/
  | files (isFile : String → Bool) (base : String)

namespace ImageSource

def toFinder (s : ImageSource) (paths : List String) : ImageFinder :=
  match s with
  | finder find => find
  | files isFile base => (ImageSearch.ofPaths base paths).search isFile

end ImageSource

structure Converter where
  settings : Settings
  /-- frame titles by the number of the slide; they replace those in the slides -/
  frameTitles : List (Nat × FrameTitle)
  images : ImageSource

/-- What a walk over the children of a body has found. -/
structure BodyScan where
  titlePage : TitlePage
  jobs : List SlideJob
  headings : List Heading

namespace Converter

/-- Takes one child of the body. Title values hold for the slides after them, headings belong to the
next slide. -/
def scanNode (c : Converter) (s : BodyScan) (n : Node) : BodyScan :=
  match n.kind with
  | .part .slide =>
    let index := s.jobs.length + 1
    let job := { SlideJob.ofNode index n with titlePage := s.titlePage }
    let job := match c.frameTitles.lookup index with
      | some title => { job with frameTitle := some title }
      | none => job
    { s with jobs := s.jobs ++ [job] }
  | .heading level => { s with headings := s.headings ++ [⟨s.jobs.length + 1, level, n.children⟩] }
  | _ => { s with titlePage := s.titlePage.update n }

def scan (c : Converter) (titlePage : TitlePage) (body : Node) : BodyScan :=
  body.children.foldl c.scanNode ⟨titlePage, [], []⟩

/-- Percent that are done before the first slide. -/
def basicProgress : Nat := 20

/-- Percent that are done after `done` of `total` slides. -/
def slideProgress (done total : Nat) : Nat :=
  min (basicProgress + (100 - basicProgress) * done / max total 1) 100

/-- Renders the slides in order, up to the first that fails, as it is done without the feature that renders them
in parallel. The progress is told after every slide, also after one that fails, but not once the run has ended. -/
def composeFrom (settings : Settings) (findImage : ImageFinder) (total : Nat) :
    Nat → List SlideJob → Except DeckError (List ComposedSlide) × List Nat
  | _, [] => (.ok [], [])
  | done, job :: rest =>
    let percent := slideProgress (done + 1) total
    match job.compose settings findImage with
    | .error error => (.error (error.inSlide job.index), if error = .aborted then [] else [percent])
    | .ok slide =>
      let (slides, progress) := composeFrom settings findImage total (done + 1) rest
      (slides.map (slide :: ·), percent :: progress)

/-- What a document is converted from: its preamble and its body. -/
def parts (d : Document) : Except DeckError (Preamble × Node) := do
  let preamble ← Preamble.ofNode (← d.preamble)
  return (preamble, ← d.body)

/-- The settings with the font size of the preamble. -/
def settingsFor (c : Converter) (preamble : Preamble) : Settings :=
  match preamble.fontSize with
  | some baseFontSize => { c.settings with baseFontSize }
  | none => c.settings

/-- Renders a document. Besides the result, the progress that was told. -/
def convert (c : Converter) (d : Document) : Except DeckError Presentation × List Nat :=
  match parts d with
  | .error error => (.error error, [])
  | .ok (preamble, body) =>
    let settings := c.settingsFor preamble
    let s := c.scan preamble.titlePage body
    if s.jobs.isEmpty then (.error .emptyPresentation, [])
    else
      let (slides, progress) :=
        composeFrom settings (c.images.toFinder preamble.graphicsPaths) s.jobs.length 0 s.jobs
      (slides.map fun slides => ⟨slides, s.headings, settings.saveAs⟩, basicProgress :: progress)

/-- Renders a document and hands it over to a receiver, if all its slides could be rendered. -/
def convertInto {σ : Type} (c : Converter) (sink : Sink σ) (d : Document) : Calls σ Presentation :=
  match (c.convert d).1 with
  | .error error => throw error
  | .ok p => do
    p.emit sink
    return p

end Converter

end Unveil
