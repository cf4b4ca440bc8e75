import Unveil.Length
import Unveil.Shape

namespace Unveil

inductive SaveFormat where
  | default | openXml | legacy | pdf | markup
  deriving Repr, DecidableEq, Inhabited

def SaveFormat.extension : SaveFormat → String
  | default | openXml => "pptx"
  | legacy => "ppt"
  | pdf => "pdf"
  | markup => "xml"

/-- Size of a slide, its margin and the height of its title. -/
structure SlideGeometry where
  width : Float32
  height : Float32
  margin : Float32
  titleHeight : Float32
  deriving Repr

namespace SlideGeometry

def standard : SlideGeometry := ⟨720.0, 540.0, Length.perCentimetre, 28.0⟩

instance : Inhabited SlideGeometry := ⟨standard⟩

def titleArea (g : SlideGeometry) (scale : Float32) : Rect :=
  let margin := g.margin * scale
  ⟨margin, margin / 2.0, g.width - 2.0 * margin, g.titleHeight * scale⟩

/-- The area of the content: below the title if there is one, within the margins. -/
def contentArea (g : SlideGeometry) (scale : Float32) (withTitle : Bool) : Rect :=
  let margin := g.margin * scale
  let top := if withTitle then (g.titleArea scale).bottom else margin
  ⟨margin, top, g.width - 2.0 * margin, Numeral.larger (g.height - top - margin) 0.0⟩

end SlideGeometry

/-- Settings of a presentation. A slide may choose where its content stands. -/
structure Settings where
  baseFontSize : Float32
  /-- the output is twice the size of the page -/
  adjustSize : Bool
  /-- blocks inside texts become text; otherwise they follow the text -/
  nestedAsText : Bool
  saveAs : SaveFormat
  /-- the most passes of one slide, at least 1 -/
  maxPasses : Nat
  geometry : SlideGeometry
  deriving Repr

namespace Settings

def standard : Settings := ⟨11.0, true, true, .default, 256, .standard⟩

instance : Inhabited Settings := ⟨standard⟩

/-- A limit of no passes allows one. -/
def withMaxPasses (s : Settings) (limit : Nat) : Settings := { s with maxPasses := max limit 1 }

def scale (s : Settings) : Float32 := if s.adjustSize then 2.0 else 1.0

def fontSize (s : Settings) : Float32 := s.baseFontSize * s.scale

/-- What lengths in an area are measured against. -/
def measure (s : Settings) (area : Rect) : Measure := ⟨s.scale, s.fontSize, area.width, area.height⟩

end Settings

/-- Where the content of a slide stands in its area. -/
inductive VerticalAlign where
  | top | center | bottom
  deriving Repr, DecidableEq, Inhabited

namespace VerticalAlign

/-- The alignment that a slide option names. -/
def ofOption? : String → Option VerticalAlign
  | "t" => some top
  | "c" => some center
  | "b" => some bottom
  | _ => none

/-- The last alignment among the options of a slide, the centre without one. -/
def ofOptions (params : String) : VerticalAlign :=
  (((Text.entries ',' params.toList).filterMap fun entry => ofOption? (String.ofList entry)).getLast?).getD
    center

end VerticalAlign

end Unveil
