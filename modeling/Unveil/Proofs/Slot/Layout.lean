import Unveil.Proofs.Body.Lines
import Unveil.Proofs.Slot.Outline

namespace Unveil

namespace Run

/-- Letters of runs before a place. -/
def place (runs : List Run) (run offset : Nat) : Nat :=
  ((TextBody.cutRuns runs run offset).1.flatMap letters).length

theorem cutRuns_letters (runs : List Run) (run offset : Nat) :
    (TextBody.cutRuns runs run offset).1.flatMap letters ++
      (TextBody.cutRuns runs run offset).2.flatMap letters = runs.flatMap letters := by
  refine TextBody.cutRuns_flatMap (fun r before after cut => ?_) runs run offset
  simp [letters, ← cut]

theorem cutRuns_outline (runs : List Run) (run offset : Nat) :
    (TextBody.cutRuns runs run offset).1.flatMap letters =
      (runs.flatMap letters).take (place runs run offset) ∧
      (TextBody.cutRuns runs run offset).2.flatMap letters =
        (runs.flatMap letters).drop (place runs run offset) := by
  rw [← cutRuns_letters runs run offset, place]
  exact ⟨List.take_left.symm, List.drop_left.symm⟩

/-- Among letters, a place is cut at by counting. -/
theorem cutRuns_zero (runs : List Run) (run : Nat) :
    TextBody.cutRuns runs run 0 = (runs.take run, runs.drop run) := by
  unfold TextBody.cutRuns
  simp only [if_true]
  split
  · rename_i empty
    rw [empty]
  · rename_i nonempty
    rw [nonempty]

theorem place_zero (runs : List Run) : place runs 0 0 = 0 := by
  rw [place, cutRuns_zero]
  rfl

theorem place_succ (r : Run) (rest : List Run) (run offset : Nat) :
    place (r :: rest) (run + 1) offset = r.letters.length + place rest run offset := by
  unfold place TextBody.cutRuns
  simp only [List.take_succ_cons, List.drop_succ_cons]
  split
  · simp
  · split <;> simp

theorem place_first {r : Run} {before after : List Char} (rest : List Run)
    (cut : before ++ after = r.text.toList) :
    place (r :: rest) 0 (TextBody.byteCount before) = before.length := by
  have counted := TextBody.cutBytes_byteCount before after
  rw [cut] at counted
  unfold place TextBody.cutRuns
  simp only [List.take_zero, List.drop_zero, counted]
  split
  · rename_i zero
    cases before with
    | nil => rfl
    | cons c cs => exact absurd zero (TextBody.byteCount_cons_ne_zero c cs)
  · simp [letters]

/-- There are letters before a word that is not the first one. -/
theorem place_ne_zero {s : Spot} (start : s.StartsWord) : place s.runs s.index s.offset ≠ 0 := by
  rw [place, s.cutRuns_runs, Ne, List.length_eq_zero_iff]
  intro empty
  obtain ⟨_, c, last, _⟩ := start
  have chars : s.before.map String.singleton = (s.head.flatMap letters).map Run.text := by
    rw [← s.head_chars, List.map_flatMap, List.map_flatMap]
    exact congrArg (List.flatMap · s.head) (funext fun r => by simp [letters, Run.chars, Face.letter])
  rw [empty, List.map_nil, List.map_eq_nil_iff] at chars
  rw [chars] at last
  cases last

end Run

namespace Paragraph

theorem glyphsFrom_letters {locate : Nat → Nat → Nat} {run base : Nat} (face : Face) {text : List Char}
    (counts : ∀ before after, before ++ after = text →
      locate run (TextBody.byteCount before) = base + before.length)
    (before after : List Char) (cut : before ++ after = text) (rest : List Run) :
    glyphsOf (base + before.length) (after.map face.letter ++ rest) =
      (glyphsFrom run (Metrics.glyphWidth face) face.size (TextBody.byteCount before) after).map
        (Glyph.placed fun run offset => (locate run offset, 0)) ++ glyphsOf (base + text.length) rest := by
  induction after generalizing before with
  | nil =>
    rw [List.append_nil] at cut
    rw [cut]
    rfl
  | cons c cs ih =>
    have next := ih (before ++ [c]) (by simpa using cut)
    have place := counts before (c :: cs) cut
    rw [TextBody.byteCount_concat, List.length_append] at next
    simp only [List.map_cons, List.cons_append, glyphsFrom, glyphsOf, Face.letter,
      Glyph.placed, place, String.toList_singleton, List.nil_append, List.cons.injEq, true_and]
    exact next

/-- The glyphs of letters are those of their runs. -/
theorem glyphsOf_letters {locate : Nat → Nat → Nat} {runs : List Run} {index base : Nat}
    (counts : ∀ i offset, locate (index + i) offset = base + Run.place runs i offset) :
    glyphsOf base (runs.flatMap Run.letters) =
      (glyphsOf index runs).map (Glyph.placed fun run offset => (locate run offset, 0)) := by
  induction runs generalizing index base with
  | nil => rfl
  | cons r rest ih =>
    have first (before after : List Char) (cut : before ++ after = r.text.toList) :
        locate index (TextBody.byteCount before) = base + before.length := by
      rw [← Run.place_first rest cut]
      exact counts 0 _
    have here := glyphsFrom_letters r.face first [] r.text.toList rfl (rest.flatMap Run.letters)
    have later (i offset : Nat) :
        locate (index + 1 + i) offset = base + r.text.toList.length + Run.place rest i offset := by
      have counted := counts (i + 1) offset
      rw [Run.place_succ, Run.letters, List.length_map] at counted
      rw [Nat.add_assoc, Nat.add_comm 1, counted, Nat.add_assoc]
    rw [List.flatMap_cons, glyphsOf, List.map_append, ← ih later]
    exact here

theorem glyphs_outline (p : Paragraph) :
    p.outline.glyphs = p.glyphs.map (Glyph.placed fun run offset => (Run.place p.runs run offset, 0)) :=
  glyphsOf_letters fun i offset => by rw [Nat.zero_add, Nat.zero_add]

/-- A paragraph and its outline have the same words, which start at the same letters. -/
theorem words_outline (p : Paragraph) :
    p.outline.words = p.words.map (Word.placed fun run offset => (Run.place p.runs run offset, 0)) :=
  (congrArg Glyph.words p.glyphs_outline).trans (Glyph.words_placed _ p.glyphs)

theorem indent_outline (p : Paragraph) : p.outline.indent = p.indent := by
  have bullet : p.outline.bullet.isSome = p.bullet.isSome := Option.isSome_map
  rw [indent, indent, bullet]
  rfl

theorem lines_outline (p : Paragraph) (width : Float32) (index : Nat) {locate : TextPos → TextPos}
    (counts : ∀ run offset, locate ⟨index, run, offset⟩ = ⟨index, Run.place p.runs run offset, 0⟩) :
    p.outline.lines width index = (p.lines width index).map (Line.relocate locate) := by
  have cut : p.outline.wordLines width =
      (p.wordLines width).map (WordLine.placed fun run offset => (Run.place p.runs run offset, 0)) := by
    rw [wordLines, avail, words_outline, indent_outline, WordLine.ofWords_placed]
    rfl
  rw [lines_eq, lines_eq, cut]
  cases p.wordLines width with
  | nil =>
    rw [List.map_nil, linesOf, linesOf, indent_outline]
    simp [Line.relocate, counts, Run.place_zero, outline]
  | cons line others =>
    rw [List.map_cons, linesOf, linesOf, ← List.map_cons, List.map_map, List.map_map, indent_outline]
    exact List.map_congr_left fun l _ => WordLine.close_placed counts p.indent l

end Paragraph

namespace TextBody

/-- The place in the outline of a body. -/
def relocate (b : TextBody) (pos : TextPos) : TextPos :=
  ⟨pos.paragraph, ((b.paragraphs[pos.paragraph]?).map fun p => Run.place p.runs pos.run
    pos.offset).getD 0, 0⟩

theorem linesFrom_outline {locate : TextPos → TextPos} (width : Float32) {ps : List Paragraph}
    {index : Nat} (counts : ∀ i p, ps[i]? = some p → ∀ run offset,
      locate ⟨index + i, run, offset⟩ = ⟨index + i, Run.place p.runs run offset, 0⟩) :
    linesFrom width index (ps.map Paragraph.outline) =
      (linesFrom width index ps).map (Line.relocate locate) := by
  induction ps generalizing index with
  | nil => rfl
  | cons p rest ih =>
    have later (i : Nat) (q : Paragraph) (atQ : rest[i]? = some q) (run offset : Nat) :
        locate ⟨index + 1 + i, run, offset⟩ = ⟨index + 1 + i, Run.place q.runs run offset, 0⟩ := by
      have counted := counts (i + 1) q (by simpa using atQ) run offset
      rwa [Nat.add_comm i 1, ← Nat.add_assoc] at counted
    rw [List.map_cons, linesFrom, linesFrom, List.map_append, ih later,
      p.lines_outline width index (counts 0 p rfl)]

/-- A body and its outline have the same lines: these do not depend on where the runs are cut. -/
theorem layout_outline (b : TextBody) (width : Float32) :
    b.outline.layout width = (b.layout width).map (Line.relocate b.relocate) := by
  refine linesFrom_outline width fun i p atP run offset => ?_
  simp only [relocate, Nat.zero_add, atP, Option.map_some, Option.getD_some]

theorem heightAt_outline (b : TextBody) (width : Float32) :
    b.outline.heightAt width = b.heightAt width := by
  rw [heightAt, heightAt, layout_outline, Line.totalHeight, Line.totalHeight, List.map_map]
  rfl

theorem maxWidth_outline (b : TextBody) (width : Float32) :
    Line.maxWidth (b.outline.layout width) = Line.maxWidth (b.layout width) := by
  rw [layout_outline, Line.maxWidth, Line.maxWidth, List.map_map]
  rfl

theorem firstWordWidth_outline (b : TextBody) : b.outline.firstWordWidth = b.firstWordWidth := by
  have cores : (b.outline.paragraphs.flatMap Paragraph.words).map Word.core =
      (b.paragraphs.flatMap Paragraph.words).map Word.core := by
    simp only [outline, List.map_flatMap, List.flatMap_map, Paragraph.words_outline, List.map_map]
    rfl
  have found (ws : List Word) : (ws.find? fun w => 0.0 < w.core).map Word.core =
      (ws.map Word.core).find? (0.0 < ·) := by
    rw [List.find?_map]
    rfl
  rw [firstWordWidth, firstWordWidth, found, found, cores]

/-- Cutting a body where a line starts comes to the same as cutting its outline there. -/
theorem splitAt_outline {s : Float.Model.UnpackedFloat.Sign} {b : TextBody} (sound : b.Sound s)
    {width : Float32} {l : Line} (atLine : l ∈ b.layout width) :
    b.outline.splitAt (b.relocate l.start) =
      ((b.splitAt l.start).1.outline, (b.splitAt l.start).2.outline) := by
  obtain ⟨before, p, after, paragraphs, starts⟩ :=
    layout_start (fun p atP r atR => (sound p atP r atR).nonempty) atLine
  have outlined : b.outline.paragraphs = before.map Paragraph.outline ++ p.outline :: after.map Paragraph.outline := by
    rw [outline, paragraphs, List.map_append, List.map_cons]
  have place (run offset : Nat) : b.relocate ⟨before.length, run, offset⟩ =
      ⟨(before.map Paragraph.outline).length, Run.place p.runs run offset, 0⟩ := by
    simp [relocate, paragraphs]
  rcases starts with start | ⟨spot, runs, word, start⟩
  · rw [start, place, Run.place_zero, splitAt_start outlined, splitAt_start paragraphs, List.isEmpty_map]
    simp only [outline]
    split <;> rfl
  · have inside := Run.place_ne_zero word
    obtain ⟨left, right⟩ := Run.cutRuns_outline spot.runs spot.index spot.offset
    rw [spot.cutRuns_runs] at left right
    rw [start, place, splitAt_spot paragraphs runs word, splitAt_inside outlined fun zero => inside (runs ▸ zero.1),
      Run.cutRuns_zero, runs]
    simp only [outline, List.map_append, List.map_cons, List.map_nil, Paragraph.outline, Paragraph.letters, runs, left,
      right]
    rfl

end TextBody

end Unveil
