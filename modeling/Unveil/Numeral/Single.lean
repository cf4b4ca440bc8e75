namespace Unveil.Numeral

/-- The larger of two numbers; an undefined one gives way to the other. -/
def larger (a b : Float32) : Float32 :=
  if a.isNaN then b else if b.isNaN then a else if a < b then b else a

/-- The smaller of two numbers; an undefined one gives way to the other. -/
def smaller (a b : Float32) : Float32 :=
  if a.isNaN then b else if b.isNaN then a else if b < a then b else a

/-- The nearest number from `low` to `high`; an undefined number stays as it is. -/
def clamp (low high x : Float32) : Float32 :=
  let x := if x < low then low else x
  if high < x then high else x

/-- The sum from left to right. It starts at minus zero, which every sum leaves unchanged. -/
def total (xs : List Float32) : Float32 := xs.foldl (· + ·) (-0.0)

/-- The largest of some numbers and a first one. Undefined numbers are passed over. -/
def largest (start : Float32) (xs : List Float32) : Float32 := xs.foldl larger start

/-- Nearest whole number, a half going up, kept between 0 and 255; 0 for an undefined number. -/
def roundToByte (x : Float32) : UInt8 :=
  let whole := x.toUInt8
  if whole < 255 && 0.5 ≤ x - whole.toFloat32 then whole + 1 else whole

/-- Rounded quotient, a half going to the even neighbour. -/
def divEven (num den : Nat) : Nat :=
  let q := num / den
  let r := 2 * (num % den)
  if den < r || (r == den && q % 2 == 1) then q + 1 else q

/-- The magnitude of a finite number is `mantissa * 2 ^ exponent`. -/
def decode (bits : UInt32) : Nat × Int :=
  let fraction := (bits &&& 0x7FFFFF).toNat
  let field := ((bits >>> 23) &&& 0xFF).toNat
  if field = 0 then (fraction, -149) else (fraction + 0x800000, (field : Int) - 150)

/-- Ten times the magnitude of a finite number, rounded to the nearest whole number. -/
def tenths (bits : UInt32) : Nat :=
  match decode bits with
  | (mantissa, .ofNat up) => (10 * mantissa) <<< up
  | (mantissa, .negSucc down) => divEven (10 * mantissa) (1 <<< (down + 1))

/-- The exact value with one decimal; the sign of zero shows. -/
def oneDecimal (x : Float32) : String :=
  if x.isNaN then "NaN"
  else
    let bits := x.toBits
    let sign := if bits >>> 31 = 1 then "-" else ""
    if x.isInf then sign ++ "inf"
    else
      let n := tenths bits
      sign ++ toString (n / 10) ++ "." ++ toString (n % 10)

end Unveil.Numeral
