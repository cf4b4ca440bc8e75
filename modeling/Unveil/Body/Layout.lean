import Unveil.Body.Basic

namespace Unveil

structure TextPos where
  paragraph : Nat
  run : Nat
  /-- bytes of the run before the place -/
  offset : Nat
  deriving Repr, DecidableEq

/-- One character of a paragraph as it is laid out. -/
structure Glyph where
  run : Nat
  offset : Nat
  blank : Bool
  advance : Float32
  size : Float32
  deriving Repr

/-- A run of glyphs that stays on one line, with the blanks after it. -/
structure Word where
  run : Nat
  offset : Nat
  /-- width up to the last glyph that is not blank -/
  core : Float32
  /-- width with the blanks at the end -/
  total : Float32
  size : Float32
  deriving Repr

/-- A line of a text body: as many words as fit, without the blanks after the last one, and one word in any
case. -/
structure Line where
  start : TextPos
  /-- width with the indent, without blanks at the end -/
  width : Float32
  height : Float32
  deriving Repr

namespace Word

def start (g : Glyph) : Word := ⟨g.run, g.offset, 0.0, 0.0, g.size⟩

def add (w : Word) (g : Glyph) : Word :=
  let total := w.total + g.advance
  { w with
    total
    core := if g.blank then w.core else total
    size := Numeral.larger w.size g.size }

def ofGlyphs? : List Glyph → Option Word
  | [] => none
  | g :: gs => some ((g :: gs).foldl add (start g))

end Word

namespace Paragraph

/-- The glyphs of a text that starts after `offset` bytes of its run. -/
def glyphsFrom (run : Nat) (advance size : Float32) : Nat → List Char → List Glyph
  | _, [] => []
  | offset, c :: rest =>
    ⟨run, offset, Text.isBlank c, advance, size⟩ ::
      glyphsFrom run advance size (offset + c.utf8Size) rest

/-- The glyphs of runs of which the first has the number `index`. -/
def glyphsOf : Nat → List Run → List Glyph
  | _, [] => []
  | index, r :: rest =>
    glyphsFrom index (Metrics.glyphWidth r.face) r.face.size 0 r.text.toList ++ glyphsOf (index + 1) rest

def glyphs (p : Paragraph) : List Glyph := glyphsOf 0 p.runs

/-- The words: a new one starts where a glyph follows a blank. -/
def words (p : Paragraph) : List Word :=
  (p.glyphs.splitBy fun a b => !a.blank || b.blank).filterMap Word.ofGlyphs?

end Paragraph

/-- A line that still takes words. -/
structure OpenLine where
  run : Nat
  offset : Nat
  total : Float32
  core : Float32
  size : Float32
  deriving Repr

namespace OpenLine

def add (l : OpenLine) (w : Word) : OpenLine :=
  { l with
    core := l.total + w.core
    total := l.total + w.total
    size := Numeral.larger l.size w.size }

def start (w : Word) : OpenLine := add ⟨w.run, w.offset, 0.0, 0.0, 0.0⟩ w

/-- The lines of the words after an open line, at most `avail` wide. -/
def fill (avail : Float32) (line : OpenLine) : List Word → List OpenLine
  | [] => [line]
  | w :: rest =>
    if avail < line.total + w.core then line :: fill avail (start w) rest
    else fill avail (line.add w) rest

def close (paragraph : Nat) (indent : Float32) (l : OpenLine) : Line :=
  ⟨⟨paragraph, l.run, l.offset⟩, indent + l.core, Metrics.lineHeight l.size⟩

end OpenLine

namespace Paragraph

/-- The lines of a paragraph, which is the one of number `index`. An empty one has a line too. -/
def lines (width : Float32) (index : Nat) (p : Paragraph) : List Line :=
  let indent := p.indent
  match p.words with
  | [] => [⟨⟨index, 0, 0⟩, indent, Metrics.lineHeight p.size⟩]
  | w :: rest =>
    (OpenLine.fill (Numeral.larger (width - indent) 0.0) (.start w) rest).map (·.close index indent)

end Paragraph

namespace TextBody

/-- The lines of paragraphs of which the first has the number `index`. -/
def linesFrom (width : Float32) : Nat → List Paragraph → List Line
  | _, [] => []
  | index, p :: rest => p.lines width index ++ linesFrom width (index + 1) rest

def layout (b : TextBody) (width : Float32) : List Line := linesFrom width 0 b.paragraphs

/-- The width of the first word with a glyph in it, 0 without one. -/
def firstWordWidth (b : TextBody) : Float32 :=
  (((b.paragraphs.flatMap Paragraph.words).find? fun w => 0.0 < w.core).map Word.core).getD 0.0

end TextBody

namespace Line

def totalHeight (lines : List Line) : Float32 := Numeral.total (lines.map height)

def maxWidth (lines : List Line) : Float32 := Numeral.largest 0.0 (lines.map width)

end Line

namespace TextBody

def heightAt (b : TextBody) (width : Float32) : Float32 := Line.totalHeight (b.layout width)

/-- The text before and after `offset` bytes; an offset past the end cuts nothing off. -/
def cutBytes : Nat → List Char → List Char × List Char
  | _, [] => ([], [])
  | offset, c :: rest =>
    if offset = 0 then ([], c :: rest)
    else
      let (before, after) := cutBytes (offset - c.utf8Size) rest
      (c :: before, after)

/-- The runs before and after a place that is not at the start of a paragraph. -/
def cutRuns (runs : List Run) (run offset : Nat) : List Run × List Run :=
  let before := runs.take run
  match runs.drop run with
  | [] => (before, [])
  | r :: rest =>
    if offset = 0 then (before, r :: rest)
    else
      let (left, right) := cutBytes offset r.text.toList
      (before ++ [{ r with text := String.ofList left }], { r with text := String.ofList right } :: rest)

/-- The part of a body before a place, and the part from there on. Inside a paragraph the second part
goes on without a bullet. -/
def splitAt (b : TextBody) (pos : TextPos) : TextBody × TextBody :=
  match b.paragraphs.drop pos.paragraph with
  | [] => (b, ofSize ((b.paragraphs.getLast?.map Paragraph.size).getD 0.0))
  | p :: rest =>
    let before := b.paragraphs.take pos.paragraph
    if pos.run = 0 ∧ pos.offset = 0 then
      (⟨if before.isEmpty then [.empty p.size] else before⟩, ⟨p :: rest⟩)
    else
      let (left, right) := cutRuns p.runs pos.run pos.offset
      (⟨before ++ [{ p with runs := left }]⟩, ⟨{ p.successor with runs := right } :: rest⟩)

end TextBody

end Unveil
