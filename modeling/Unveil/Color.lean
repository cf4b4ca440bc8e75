import Unveil.Numeral.Read
import Unveil.Numeral.Single
import Unveil.Text.Blank

namespace Unveil

/-- A colour of three bytes. -/
structure Color where
  red : UInt8
  green : UInt8
  blue : UInt8
  deriving Repr, DecidableEq, Inhabited

namespace Color

def black : Color := ⟨0, 0, 0⟩
def white : Color := ⟨255, 255, 255⟩
def alert : Color := ⟨255, 0, 0⟩

def byteText (b : UInt8) : List Char :=
  [Nat.digitChar (b.toNat / 16), Nat.digitChar (b.toNat % 16)]

/-- The form `#rrggbb`. -/
def toHex (c : Color) : String :=
  String.ofList ('#' :: (byteText c.red ++ byteText c.green ++ byteText c.blue))

def palette : List (String × Color) := [
  ("black", ⟨0, 0, 0⟩), ("white", ⟨255, 255, 255⟩), ("red", ⟨255, 0, 0⟩), ("green", ⟨0, 255, 0⟩),
  ("blue", ⟨0, 0, 255⟩), ("cyan", ⟨0, 255, 255⟩), ("magenta", ⟨255, 0, 255⟩),
  ("yellow", ⟨255, 255, 0⟩), ("gray", ⟨128, 128, 128⟩), ("darkgray", ⟨64, 64, 64⟩),
  ("lightgray", ⟨191, 191, 191⟩), ("brown", ⟨191, 128, 64⟩), ("lime", ⟨191, 255, 0⟩),
  ("olive", ⟨128, 128, 0⟩), ("orange", ⟨255, 128, 0⟩), ("pink", ⟨255, 191, 191⟩),
  ("purple", ⟨191, 0, 64⟩), ("teal", ⟨0, 128, 128⟩), ("violet", ⟨128, 0, 128⟩)]

def named? (name : String) : Option Color := palette.lookup name

/-- `percent` percent of the first colour and the rest of the second. -/
def mix (c other : Color) (percent : Float32) : Color :=
  let t := Numeral.clamp 0 1 (percent / 100.0)
  let channel (a b : UInt8) := Numeral.roundToByte (a.toFloat32 * t + b.toFloat32 * (1.0 - t))
  ⟨channel c.red other.red, channel c.green other.green, channel c.blue other.blue⟩

/-- A channel given as a share of 1. -/
def shareByte (x : Float32) : UInt8 := Numeral.roundToByte (Numeral.clamp 0 1 x * 255.0)

/-- A channel given from 0 to 255; the fraction is cut off. -/
def wholeByte (x : Float32) : UInt8 := (Numeral.clamp 0 255 x).toUInt8

/-- A channel of a model with black as a fourth ink. -/
def inkByte (ink rest : Float32) : UInt8 := shareByte ((1.0 - ink) * rest)

/-- The numbers of a model, `none` when one is malformed. -/
def components? (spec : List Char) : Option (List Float32) :=
  (Text.pieces ',' spec).mapM fun piece => Numeral.float32? (Text.trim piece)

/-- The steps of a mixture after its first colour: a percentage and the colour mixed in, white when
none follows. -/
def mixAll? (c : Color) : List String → Option Color
  | [] => some c
  | [percent] => (Numeral.float32? percent.toList).map (c.mix white)
  | percent :: name :: rest =>
    match Numeral.float32? percent.toList, named? name with
    | some percent, some other => mixAll? (c.mix other percent) rest
    | _, _ => none

/-- A name, or a mixture of named colours. -/
def expression? (spec : List Char) : Option Color :=
  match (Text.pieces '!' spec).map fun piece => String.ofList (Text.trim piece) with
  | [] => none
  | name :: steps => (named? name).bind fun c => mixAll? c steps

/-- Six digits in base sixteen, counted in bytes. -/
def hex? (spec : List Char) : Option Color :=
  if (String.ofList spec).utf8ByteSize ≠ 6 then none
  else (Numeral.hex? spec).map fun n => ⟨(n / 65536).toUInt8, (n / 256).toUInt8, n.toUInt8⟩

/-- A colour in one of five models; without a model the text is a name or a mixture such as `red!30!green`. -/
def read? (model spec : String) : Option Color :=
  let spec := Text.trim spec.toList
  match String.ofList (Text.trim model.toList) with
  | "" => expression? spec
  | "rgb" => match components? spec with
    | some [r, g, b] => some ⟨shareByte r, shareByte g, shareByte b⟩
    | _ => none
  | "RGB" => match components? spec with
    | some [r, g, b] => some ⟨wholeByte r, wholeByte g, wholeByte b⟩
    | _ => none
  | "gray" => match components? spec with
    | some [g] => some ⟨shareByte g, shareByte g, shareByte g⟩
    | _ => none
  | "cmyk" => match components? spec with
    | some [c, m, y, k] =>
      let rest := 1.0 - Numeral.clamp 0 1 k
      some ⟨inkByte c rest, inkByte m rest, inkByte y rest⟩
    | _ => none
  | "HTML" => hex? spec
  | _ => none

end Color

end Unveil
