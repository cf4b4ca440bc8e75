import Unveil.Error
import Unveil.Length
import Unveil.Node.Basic
import Unveil.Path

namespace Unveil

/-- The title and the subtitle above a slide. -/
structure FrameTitle where
  title : List Node
  titleOverlay : Overlay
  subtitle : Option (List Node)
  subtitleOverlay : Overlay

namespace FrameTitle

def empty : FrameTitle := ⟨[], .none, none, .none⟩

instance : Inhabited FrameTitle := ⟨empty⟩

/-- The record of a slide that has a title or a subtitle among its children; the first of each
counts. -/
def ofSlide? (slide : Node) : Option FrameTitle :=
  match slide.firstChild? .frameTitle, slide.firstChild? .frameSubtitle with
  | none, none => none
  | some title, none => some ⟨title.children, title.overlay, none, .none⟩
  | none, some subtitle => some ⟨[], .none, some subtitle.children, subtitle.overlay⟩
  | some title, some subtitle =>
    some ⟨title.children, title.overlay, some subtitle.children, subtitle.overlay⟩

end FrameTitle

/-- A section that starts before a slide. -/
structure Heading where
  /-- number of the slide that follows -/
  slide : Nat
  level : SectionLevel
  content : List Node

namespace Heading

def title (h : Heading) : String := String.join (h.content.map Node.textContent)

end Heading

/-- The values shown on the title page. -/
structure TitlePage where
  title : Option (List Node)
  author : Option (List Node)
  date : Option (List Node)

namespace TitlePage

def empty : TitlePage := ⟨none, none, none⟩

instance : Inhabited TitlePage := ⟨empty⟩

def set (p : TitlePage) (nodes : List Node) : TitleField → TitlePage
  | .title => { p with title := some nodes }
  | .author => { p with author := some nodes }
  | .date => { p with date := some nodes }

/-- Takes the value of a title field; other nodes change nothing. -/
def update (p : TitlePage) (n : Node) : TitlePage :=
  match n.kind with
  | .titleField field => p.set n.children field
  | _ => p

def isEmpty (p : TitlePage) : Bool := p.title.isNone && p.author.isNone && p.date.isNone

end TitlePage

/-- What a document says about itself before its body. -/
structure Preamble where
  titlePage : TitlePage
  /-- directories of images, each once -/
  graphicsPaths : List String
  /-- base font size from the options of the document class -/
  fontSize : Option Float32

namespace Preamble

/-- A positive absolute length. -/
def positivePoints? : Length → Option Float32
  | .points value => if 0.0 < value then some value else none
  | _ => none

/-- The first option that is a positive absolute length. -/
def fontSize? (params : String) : Option Float32 :=
  (Text.pieces ',' params.toList).findSome? fun piece => (Length.read? piece).bind positivePoints?

/-- The paths of one list of directories, empty ones left out. -/
def pathsOf (n : Node) : List String :=
  if n.kind = .graphicsPath then
    ((n.children.filter (·.kind = .path)).filterMap Node.content?).filter (· ≠ "")
  else []

/-- Reads a preamble; another node is refused. -/
def ofNode (n : Node) : Except DeckError Preamble :=
  if n.kind = .part .preamble then
    .ok {
      titlePage := n.children.foldl TitlePage.update .empty
      graphicsPaths := (n.children.flatMap pathsOf).foldl Path.addNew []
      fontSize := fontSize? n.params }
  else .error (.missingNode (NodeKind.part .preamble).tag)

end Preamble

/-- A whole document: a tree with a preamble and a body somewhere in it. -/
structure Document where
  root : Node

namespace Document

def ofParts (preamble body : Node) : Document :=
  ⟨⟨.part .document, .none, "", none, [preamble, body]⟩⟩

def nodes (d : Document) : List Node := d.root.preorder

/-- The first node of a kind in document order. -/
def first? (d : Document) (kind : NodeKind) : Option Node := d.nodes.find? (·.kind = kind)

/-- The first node of a part that a document has to have. -/
def part (d : Document) (p : Part) : Except DeckError Node :=
  match d.first? (.part p) with
  | some n => .ok n
  | none => .error (.missingNode (NodeKind.part p).tag)

def preamble (d : Document) : Except DeckError Node := d.part .preamble

def body (d : Document) : Except DeckError Node := d.part .body

def slides (d : Document) : List Node :=
  match d.body with
  | .ok body => body.children.filter (·.kind = .part .slide)
  | .error _ => []

end Document

end Unveil
