import Unveil.Face

namespace Unveil.Metrics

/-- The width of a glyph in ems. Text is estimated: every glyph of a face is equally wide. -/
def glyphEm : Float32 := 0.5
def monoGlyphEm : Float32 := 0.6
def boldFactor : Float32 := 1.08
/-- Height of a line in font sizes. -/
def lineFactor : Float32 := 1.2
/-- Indent of a list level in ems. -/
def levelEm : Float32 := 1.5
/-- Room for a bullet in ems. -/
def bulletEm : Float32 := 1.2
/-- Distance of shapes that stand side by side. -/
def gap : Float32 := 8.0
/-- Room between the text of a cell and each of its sides. -/
def padding : Float32 := 4.0

def glyphWidth (face : Face) : Float32 :=
  face.size * (if face.isMonospace then monoGlyphEm else glyphEm) * (if face.bold then boldFactor else 1.0)

/-- A number of characters as a single precision number. -/
def countWidth (n : Nat) : Float32 := n.toUInt64.toFloat32

def textWidth (text : String) (face : Face) : Float32 := countWidth text.length * glyphWidth face

def lineHeight (size : Float32) : Float32 := size * lineFactor

end Unveil.Metrics
