import Unveil.Digest.Blake3
import Unveil.Grid

namespace Unveil

/-- A rectangle in points, from the top left corner of the slide. -/
structure Rect where
  left : Float32
  top : Float32
  width : Float32
  height : Float32
  deriving Repr, BEq

namespace Rect

def zero : Rect := ⟨0.0, 0.0, 0.0, 0.0⟩

instance : Inhabited Rect := ⟨zero⟩

def right (r : Rect) : Float32 := r.left + r.width

def bottom (r : Rect) : Float32 := r.top + r.height

def move (r : Rect) (dx dy : Float32) : Rect := { r with left := r.left + dx, top := r.top + dy }

/-- Moves the rectangle down; its left edge is not computed anew. -/
def moveDown (r : Rect) (dy : Float32) : Rect := { r with top := r.top + dy }

/-- The smallest rectangle around both. -/
def union (r s : Rect) : Rect :=
  let left := Numeral.smaller r.left s.left
  let top := Numeral.smaller r.top s.top
  ⟨left, top, Numeral.larger r.right s.right - left, Numeral.larger r.bottom s.bottom - top⟩

def bytes (r : Rect) : List UInt8 :=
  Digest.ofFloat32 r.left ++ Digest.ofFloat32 r.top ++ Digest.ofFloat32 r.width ++
    Digest.ofFloat32 r.height

end Rect

structure Picture where
  path : String
  /-- the name in the document -/
  name : String
  deriving Repr, DecidableEq

inductive Content where
  | text (body : TextBody)
  | image (picture : Picture)
  | table (grid : Grid)
  deriving Repr, BEq

/-- What a pass puts on the slide, with its place: a single content, or several shapes placed together. -/
inductive Shape where
  | single (bounds : Rect) (content : Content) (hidden : Bool)
  | group (bounds : Rect) (members : List Shape) (hidden : Bool)
  deriving Repr

/-- How a shape takes part in the flow. -/
inductive Role where
  | text | float | other
  deriving Repr, DecidableEq

namespace Shape

instance : Inhabited Shape := ⟨single .zero (.text (.ofSize 0)) false⟩

def bounds : Shape → Rect
  | single bounds _ _ => bounds
  | group bounds _ _ => bounds

def hidden : Shape → Bool
  | single _ _ hidden => hidden
  | group _ _ hidden => hidden

def withBounds (bounds : Rect) : Shape → Shape
  | single _ content hidden => single bounds content hidden
  | group _ members hidden => group bounds members hidden

def withHidden (hidden : Bool) : Shape → Shape
  | single bounds content _ => single bounds content hidden
  | group bounds members _ => group bounds members hidden

def ofBody (bounds : Rect) (body : TextBody) : Shape := single bounds (.text body) false

def role : Shape → Role
  | single _ (.text _) _ => .text
  | single _ _ _ => .float
  | group _ _ _ => .other

/-- Images and tables float: text may stand beside them. -/
def isFloat (s : Shape) : Bool := s.role = .float

def body? : Shape → Option TextBody
  | single _ (.text body) _ => some body
  | _ => none

/-- The word for what the shape is. -/
def kindName : Shape → String
  | single _ (.text _) _ => "text"
  | single _ (.image _) _ => "image"
  | single _ (.table _) _ => "table"
  | group _ _ _ => "group"

mutual

def move (dx dy : Float32) : Shape → Shape
  | single bounds content hidden => single (bounds.move dx dy) content hidden
  | group bounds members hidden => group (bounds.move dx dy) (moveAll dx dy members) hidden

def moveAll (dx dy : Float32) : List Shape → List Shape
  | [] => []
  | s :: rest => move dx dy s :: moveAll dx dy rest

end

def moveDown (s : Shape) (dy : Float32) : Shape := s.move 0.0 dy

def moveTo (s : Shape) (left top : Float32) : Shape := s.move (left - s.bounds.left) (top - s.bounds.top)

def fitHeight : Shape → Shape
  | single bounds (.text body) hidden =>
    single { bounds with height := body.heightAt bounds.width } (.text body) hidden
  | s => s

end Shape

namespace Content

def bytes : Content → List UInt8
  | text body => body.bytes
  | image picture => Digest.ofString picture.path ++ Digest.ofString picture.name
  | table grid => grid.bytes

end Content

namespace Shape

/-- Kind, place and visibility come before the content. -/
def headBytes (s : Shape) : List UInt8 :=
  Digest.ofString s.kindName ++ s.bounds.bytes ++ Digest.ofBool s.hidden

mutual

def bytes : Shape → List UInt8
  | single bounds content hidden => headBytes (single bounds content hidden) ++ content.bytes
  | group bounds members hidden =>
    headBytes (group bounds [] hidden) ++ Digest.ofNat members.length ++ bytesAll members

def bytesAll : List Shape → List UInt8
  | [] => []
  | s :: rest => bytes s ++ bytesAll rest

end

def digest (s : Shape) : UInt64 := Blake3.hash64 s.bytes

end Shape

end Unveil
