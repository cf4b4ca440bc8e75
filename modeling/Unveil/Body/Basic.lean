import Unveil.Metrics

namespace Unveil

/-- Text in one face. Hidden text takes its room but does not show. -/
structure Run where
  text : String
  face : Face
  hidden : Bool
  deriving Repr, BEq

inductive BulletMark where
  | symbol (c : Char)
  | number (n : Nat)
  deriving Repr, DecidableEq

/-- What is written for a mark. -/
def BulletMark.label : BulletMark → String
  | symbol c => String.singleton c
  | number n => toString n ++ "."

structure Bullet where
  mark : BulletMark
  hidden : Bool
  deriving Repr, DecidableEq

inductive Align where
  | left | center | right
  deriving Repr, DecidableEq, Inhabited

def Align.index : Align → Nat
  | left => 0
  | center => 1
  | right => 2

structure Paragraph where
  runs : List Run
  bullet : Option Bullet
  /-- nesting of lists, 0 outside of them -/
  level : Nat
  align : Align
  /-- font size of the paragraph itself -/
  size : Float32
  deriving Repr, BEq

namespace Paragraph

def empty (size : Float32) : Paragraph := ⟨[], none, 0, .left, size⟩

instance : Inhabited Paragraph := ⟨empty 0⟩

def isEmpty (p : Paragraph) : Bool := p.runs.all (·.text.isEmpty)

def text (p : Paragraph) : String := String.join (p.runs.map Run.text)

/-- `true` for an empty paragraph without a bullet: a new list item may take it over. -/
def isUntouched (p : Paragraph) : Bool := p.isEmpty && p.bullet.isNone

/-- Room for the list levels, and for a bullet in every list. -/
def indent (p : Paragraph) : Float32 :=
  Metrics.countWidth p.level * Metrics.levelEm * p.size +
    (if 0 < p.level || p.bullet.isSome then Metrics.bulletEm * p.size else 0.0)

/-- Adds a run at the end; text like the last run is joined to it. -/
def extend (runs : List Run) (run : Run) : List Run :=
  match runs with
  | [] => [run]
  | [last] =>
    if last.hidden == run.hidden && last.face == run.face then
      [{ last with text := last.text ++ run.text }]
    else [last, run]
  | first :: rest => first :: extend rest run

def push (p : Paragraph) (text : String) (face : Face) (hidden : Bool) : Paragraph :=
  if text.isEmpty then p else { p with runs := extend p.runs ⟨text, face, hidden⟩ }

/-- An empty paragraph in the same list and with the same alignment. -/
def successor (p : Paragraph) : Paragraph := { empty p.size with level := p.level, align := p.align }

def hide (p : Paragraph) : Paragraph :=
  { p with
    runs := p.runs.map fun run => { run with hidden := true }
    bullet := p.bullet.map fun bullet => { bullet with hidden := true } }

end Paragraph

/-- Paragraphs of runs. Text is written at the end; the last paragraph is the current one. -/
structure TextBody where
  paragraphs : List Paragraph
  deriving Repr, BEq

namespace TextBody

def ofSize (size : Float32) : TextBody := ⟨[.empty size]⟩

instance : Inhabited TextBody := ⟨ofSize 0⟩

/-- The paragraphs to write into: a body without any gets an empty one. -/
def writable (b : TextBody) : List Paragraph :=
  match b.paragraphs with
  | [] => [.empty 0]
  | ps => ps

def mapLast (f : Paragraph → Paragraph) : List Paragraph → List Paragraph
  | [] => []
  | [p] => [f p]
  | p :: rest => p :: mapLast f rest

def current (b : TextBody) : Paragraph := b.writable.getLastD default

def mapCurrent (b : TextBody) (f : Paragraph → Paragraph) : TextBody := ⟨mapLast f b.writable⟩

/-- `true` when nothing was written: neither text nor bullets. -/
def isBlank (b : TextBody) : Bool := b.paragraphs.all Paragraph.isUntouched

def isHidden (b : TextBody) : Bool := b.paragraphs.all fun p => p.runs.all Run.hidden

def push (b : TextBody) (text : String) (face : Face) (hidden : Bool) : TextBody :=
  b.mapCurrent fun p => p.push text face hidden

/-- Starts a paragraph in the same list. -/
def breakParagraph (b : TextBody) : TextBody :=
  ⟨b.writable ++ [b.current.successor]⟩

/-- One line break at the very start is dropped. -/
def dropLineBreak : List Char → List Char
  | '\r' :: '\n' :: rest => rest
  | '\n' :: rest => rest
  | cs => cs

/-- A piece of text without the returns at its end. -/
def dropReturns (cs : List Char) : List Char := (cs.reverse.dropWhile (· = '\r')).reverse

/-- Writes one piece of text, which has no line break. -/
def pushPiece (b : TextBody) (face : Face) (hidden : Bool) (piece : List Char) : TextBody :=
  b.push (String.ofList (dropReturns piece)) face hidden

/-- Writes text in which every line break starts a paragraph. A line break at the start of an empty
paragraph has no effect. -/
def append (b : TextBody) (text : String) (face : Face) (hidden : Bool) : TextBody :=
  let cs := if b.current.isEmpty then dropLineBreak text.toList else text.toList
  match Text.pieces '\n' cs with
  | [] => b
  | first :: rest =>
    rest.foldl (fun b piece => b.breakParagraph.pushPiece face hidden piece)
      (b.pushPiece face hidden first)

/-- Starts a paragraph of a list; an untouched one is taken over. -/
def startParagraph (b : TextBody) (bullet : Option Bullet) (level : Nat) (size : Float32) : TextBody :=
  let ps := if b.current.isUntouched then b.writable else b.writable ++ [.empty size]
  ⟨mapLast (fun p => { p with bullet, level, size }) ps⟩

def setAlign (b : TextBody) (align : Align) : TextBody := b.mapCurrent fun p => { p with align }

def plainText (b : TextBody) : String := "\n".intercalate (b.paragraphs.map Paragraph.text)

def hide (b : TextBody) : TextBody := ⟨b.paragraphs.map Paragraph.hide⟩

def runs (b : TextBody) : List Run := b.paragraphs.flatMap Paragraph.runs

end TextBody

namespace Run

def bytes (r : Run) : List UInt8 := Digest.ofString r.text ++ r.face.bytes ++ Digest.ofBool r.hidden

end Run

namespace Bullet

def bytes (b : Bullet) : List UInt8 := Digest.ofString b.mark.label ++ Digest.ofBool b.hidden

end Bullet

namespace Paragraph

def bytes (p : Paragraph) : List UInt8 :=
  Digest.ofList Run.bytes p.runs ++ Digest.ofOption Bullet.bytes p.bullet ++ Digest.ofNat p.level ++
    Digest.ofNat p.align.index ++ Digest.ofFloat32 p.size

end Paragraph

namespace TextBody

def bytes (b : TextBody) : List UInt8 := Digest.ofList Paragraph.bytes b.paragraphs

end TextBody

end Unveil
