namespace Unveil.Numeral

/-- One digit after another, `none` without a digit or with another character among them. -/
def natural? : List Char → Option Nat
  | [] => none
  | cs => cs.foldlM (fun n c => if c.isDigit then some (10 * n + (c.toNat - 48)) else none) 0

/-- The least number that is too large for 32 bits and a sign. -/
def bound32 : Nat := 2147483648

/-- The least number that is too large for 64 bits. -/
def bound64 : Nat := 18446744073709551616

/-- A count of at most 64 bits; a plus sign may stand in front. -/
def count? (cs : List Char) : Option Nat :=
  (natural? (match cs with | '+' :: rest => rest | _ => cs)).filter (· < bound64)

/-- A whole number of 32 bits with a sign; others are refused. -/
def int32? : List Char → Option Int
  | '-' :: rest => ((natural? rest).filter (· ≤ bound32)).map fun n => -(n : Int)
  | '+' :: rest => ((natural? rest).filter (· < bound32)).map Int.ofNat
  | cs => ((natural? cs).filter (· < bound32)).map Int.ofNat

def hexDigit? (c : Char) : Option Nat :=
  if c.isDigit then some (c.toNat - 48)
  else if 'a' ≤ c && c ≤ 'f' then some (c.toNat - 87)
  else if 'A' ≤ c && c ≤ 'F' then some (c.toNat - 55)
  else none

/-- A number in base sixteen; a plus sign may stand in front. -/
def hex? (cs : List Char) : Option Nat :=
  match (match cs with | '+' :: rest => rest | _ => cs) with
  | [] => none
  | digits => digits.foldlM (fun n c => (hexDigit? c).map (16 * n + ·)) 0

/-- A written real number: `digits` times a power of ten, or one of the words. -/
inductive Real where
  | finite (negative : Bool) (digits : Nat) (exponent : Int)
  | infinite (negative : Bool)
  | undefined
  deriving Repr, DecidableEq

namespace Real

/-- An exponent `e5`, `E+5` or `e-5`; nothing at all stands for `e0`. -/
def exponent? : List Char → Option Int
  | [] => some 0
  | c :: rest =>
    if c = 'e' || c = 'E' then
      match rest with
      | '-' :: digits => (natural? digits).map fun n => -(n : Int)
      | '+' :: digits => (natural? digits).map Int.ofNat
      | digits => (natural? digits).map Int.ofNat
    else none

/-- Digits with at most one point among them, then an exponent. -/
def unsigned? (negative : Bool) (cs : List Char) : Option Real :=
  let whole := cs.takeWhile Char.isDigit
  let rest := cs.dropWhile Char.isDigit
  let (fraction, rest) := match rest with
    | '.' :: more => (more.takeWhile Char.isDigit, more.dropWhile Char.isDigit)
    | _ => ([], rest)
  match natural? (whole ++ fraction), exponent? rest with
  | some digits, some exponent => some (.finite negative digits (exponent - fraction.length))
  | _, _ => none

/-- The words are read in any case. -/
def word? (negative : Bool) (cs : List Char) : Option Real :=
  let lower := String.ofList (cs.map Char.toLower)
  if lower = "inf" || lower = "infinity" then some (.infinite negative)
  else if lower = "nan" then some .undefined
  else none

/-- A sign may stand in front of every form. -/
def read? (cs : List Char) : Option Real :=
  let (negative, rest) := match cs with
    | '-' :: rest => (true, rest)
    | '+' :: rest => (false, rest)
    | _ => (false, cs)
  (unsigned? negative rest).or (word? negative rest)

/-- The number of decimal places left of the point. -/
def magnitude (digits : Nat) (exponent : Int) : Int := (Nat.toDigits 10 digits).length + exponent

/-- Past 400 places either way a number is beyond both binary formats, so no large power is formed. -/
def round {α : Type} (scientific : Nat → Bool → Nat → α) (neg : α → α) (zero infinity nan : α) :
    Real → α
  | .undefined => nan
  | .infinite negative => if negative then neg infinity else infinity
  | .finite negative digits exponent =>
    let size := magnitude digits exponent
    let value :=
      if digits = 0 || size < -400 then zero
      else if 400 < size then infinity
      else scientific digits (exponent < 0) exponent.natAbs
    if negative then neg value else value

def toFloat32 : Real → Float32 :=
  round Float32.ofScientific Float32.neg 0 (Float32.ofBits 0x7F800000) (Float32.ofBits 0x7FC00000)

def toFloat : Real → Float :=
  round Float.ofScientific Float.neg 0 (Float.ofBits 0x7FF0000000000000)
    (Float.ofBits 0x7FF8000000000000)

end Real

/-- A number that is read exactly and then rounded once, to single precision. -/
def float32? (cs : List Char) : Option Float32 := (Real.read? cs).map Real.toFloat32

def float? (cs : List Char) : Option Float := (Real.read? cs).map Real.toFloat

end Unveil.Numeral
