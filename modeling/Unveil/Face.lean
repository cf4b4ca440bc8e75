import Unveil.Color
import Unveil.Digest.Bytes
import Unveil.Node.Basic

namespace Unveil

/-- The face of a piece of text: font, size, colour and emphasis. -/
structure Face where
  font : String
  size : Float32
  color : Color
  bold : Bool
  italic : Bool
  underline : Bool
  smallCaps : Bool
  deriving Repr, BEq

namespace Face

def textFont : String := "Calibri"

def typewriterFont : String := "Courier New"

def plain (size : Float32) : Face := ⟨textFont, size, .black, false, false, false, false⟩

instance : Inhabited Face := ⟨plain 0⟩

def isMonospace (face : Face) : Bool := face.font == typewriterFont

def bytes (face : Face) : List UInt8 :=
  Digest.ofString face.font ++ Digest.ofFloat32 face.size ++
    [face.color.red, face.color.green, face.color.blue] ++ Digest.ofBool face.bold ++
    Digest.ofBool face.italic ++ Digest.ofBool face.underline ++ Digest.ofBool face.smallCaps

/-- The face below a style command. A colour that cannot be read leaves the face as it is. -/
def apply (face : Face) (base : Float32) (node : Node) : StyleCommand → Face
  | .bold => { face with bold := true }
  | .italic => { face with italic := true }
  | .underline => { face with underline := true }
  | .smallCaps => { face with smallCaps := true }
  | .typewriter => { face with font := typewriterFont }
  | .alert => { face with color := .alert }
  | .color =>
    match Color.read? node.params (node.content?.getD "") with
    | some color => { face with color }
    | none => face
  | .size size => { face with size := base * size.factor }

end Face

/-- The face in effect and the faces around it, innermost first. Style commands nest, so a face comes back when
the command in it ends. -/
structure FaceStack where
  /-- size that relative sizes refer to -/
  base : Float32
  current : Face
  outer : List Face
  deriving Repr

namespace FaceStack

def ofBase (base : Float32) : FaceStack := ⟨base, .plain base, []⟩

instance : Inhabited FaceStack := ⟨ofBase 0⟩

def depth (s : FaceStack) : Nat := s.outer.length

/-- Opens the scope of a node. Its change shows only when `apply` is set, but the scope is opened in
any case so that it can be closed. -/
def enter (s : FaceStack) (node : Node) (apply : Bool) : FaceStack :=
  let inner := match node.kind with
    | .style command => if apply then s.current.apply s.base node command else s.current
    | _ => s.current
  { s with current := inner, outer := s.current :: s.outer }

/-- Closes the innermost scope, if one is open. -/
def leave (s : FaceStack) : FaceStack :=
  match s.outer with
  | [] => s
  | face :: rest => { s with current := face, outer := rest }

/-- A scope that is opened and closed leaves the faces as they were. -/
theorem leave_enter (s : FaceStack) (node : Node) (apply : Bool) : (s.enter node apply).leave = s := rfl

end FaceStack

end Unveil
