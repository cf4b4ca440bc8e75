import Unveil.Numeral.Read
import Unveil.Numeral.Single
import Unveil.Text.Blank

namespace Unveil

/-- The sides of an area that lengths may refer to. -/
inductive Side where
  | width
  | height
  deriving Repr, DecidableEq

/-- A length: absolute, a multiple of the font size, or a share of the area that the content is laid out in.
Only the place of use turns it into points. -/
inductive Length where
  | points (value : Float32)
  | em (value : Float32)
  | share (factor : Float32) (side : Side)
  deriving Repr, BEq

/-- What a length is measured against at its place of use. -/
structure Measure where
  /-- factor of absolute lengths -/
  scale : Float32
  /-- font size -/
  em : Float32
  textWidth : Float32
  textHeight : Float32
  deriving Repr

namespace Length

def perInch : Float32 := 72.27
def perCentimetre : Float32 := 28.4
def perMillimetre : Float32 := 2.84
/-- Big points to an inch. -/
def bigPerInch : Float32 := 72.0

/-- `true` for the characters that the number of a length is written with. -/
def isNumberChar (c : Char) : Bool := c.isDigit || c = '.' || c = '-' || c = '+'

/-- A length of `value` units; `bare` when no number was written, which only names of units allow. -/
def ofUnit? (value : Float32) (bare : Bool) (unit : String) : Option Length :=
  match unit with
  | "in" => some (.points (value * perInch))
  | "cm" => some (.points (value * perCentimetre))
  | "mm" => some (.points (value * perMillimetre))
  | "pt" | "" => if bare then none else some (.points value)
  | "bp" => some (.points (value * perInch / bigPerInch))
  | "em" => some (.em value)
  | "\\textwidth" | "\\linewidth" | "\\columnwidth" | "\\paperwidth" => some (.share value .width)
  | "\\textheight" | "\\paperheight" => some (.share value .height)
  | _ => none

/-- A number and a unit. A unit alone counts once, a number alone is in points. -/
def read? (cs : List Char) : Option Length :=
  let cs := Text.trim cs
  if cs = [] then none
  else
    let number := cs.takeWhile isNumberChar
    let unit := String.ofList (Text.trim (cs.dropWhile isNumberChar))
    if number = [] then ofUnit? 1.0 true unit
    else (Numeral.float32? number).bind fun value => ofUnit? value false unit

/-- A length at its place of use. -/
def toPoints (m : Measure) : Length → Float32
  | .points value => value * m.scale
  | .em value => value * m.em
  | .share factor .width => factor * m.textWidth
  | .share factor .height => factor * m.textHeight

end Length

/-- A list of parameters, `key=value` or `key` alone. -/
structure Params where
  entries : List (String × String)
  deriving Repr, DecidableEq

namespace Params

/-- One parameter; a key alone has the empty value. -/
def readEntry (cs : List Char) : String × String :=
  match Text.cutAt '=' cs with
  | some (key, value) => (String.ofList (Text.trim key), String.ofList (Text.trim value))
  | none => (String.ofList cs, "")

def read (text : String) : Params := ⟨(Text.entries ',' text.toList).map readEntry⟩

def get? (p : Params) (key : String) : Option String := p.entries.lookup key

def has (p : Params) (key : String) : Bool := p.entries.any fun (k, _) => k == key

def length? (p : Params) (key : String) : Option Length :=
  (p.get? key).bind fun value => Length.read? value.toList

def number? (p : Params) (key : String) : Option Float32 :=
  (p.get? key).bind fun value => Numeral.float32? value.toList

end Params

end Unveil
