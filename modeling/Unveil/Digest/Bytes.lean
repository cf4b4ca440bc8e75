namespace Unveil.Digest

/-- The lowest `count` bytes of a number, the lowest first. -/
def littleEndian : Nat → Nat → List UInt8
  | 0, _ => []
  | count + 1, n => n.toUInt8 :: littleEndian count (n / 256)

/-- A number in eight bytes, the lowest first. -/
def ofNat (n : Nat) : List UInt8 := littleEndian 8 n

def ofBool (b : Bool) : List UInt8 := [if b then 1 else 0]

def ofFloat32 (x : Float32) : List UInt8 := littleEndian 4 x.toBits.toNat

/-- The length in bytes, then the bytes. -/
def ofString (s : String) : List UInt8 := ofNat s.utf8ByteSize ++ s.toUTF8.toList

/-- A mark, then the value if there is one. -/
def ofOption {α : Type} (f : α → List UInt8) : Option α → List UInt8
  | none => ofBool false
  | some a => ofBool true ++ f a

/-- The length of a list, then its members. -/
def ofList {α : Type} (f : α → List UInt8) (xs : List α) : List UInt8 :=
  ofNat xs.length ++ xs.flatMap f

end Unveil.Digest
