import Unveil.Proofs.Body.Lines

namespace Unveil

/-- The place in a body of a place in the part that starts at `origin`. -/
def TextPos.behind (origin pos : TextPos) : TextPos :=
  ⟨origin.paragraph + pos.paragraph, if pos.paragraph = 0 then origin.run + pos.run else pos.run,
    if pos.paragraph = 0 ∧ pos.run = 0 then origin.offset + pos.offset else pos.offset⟩

namespace TextPos

theorem behind_start (paragraph : Nat) (pos : TextPos) :
    behind ⟨paragraph, 0, 0⟩ pos = ⟨paragraph + pos.paragraph, pos.run, pos.offset⟩ := by
  simp only [behind, Nat.zero_add, ite_self]

theorem behind_later (origin : TextPos) {paragraph : Nat} (later : 1 ≤ paragraph) (run offset : Nat) :
    origin.behind ⟨paragraph, run, offset⟩ = ⟨origin.paragraph + paragraph, run, offset⟩ := by
  have apart : paragraph ≠ 0 := by omega
  simp only [behind, apart, if_false, false_and]

theorem behind_spot (paragraph : Nat) (s : Run.Spot) (run offset : Nat) :
    behind ⟨paragraph, s.index, s.offset⟩ ⟨0, run, offset⟩ =
      ⟨paragraph, (s.behind run offset).1, (s.behind run offset).2⟩ := by
  simp only [behind, Run.Spot.behind, Nat.add_zero, if_true, true_and]

end TextPos

namespace Paragraph

/-- A paragraph at another place has the same lines there. -/
theorem lines_relocate {locate : TextPos → TextPos} {i j : Nat}
    (counts : ∀ run offset, locate ⟨i, run, offset⟩ = ⟨j, run, offset⟩) (width : Float32) (p : Paragraph) :
    p.lines width j = (p.lines width i).map (Line.relocate locate) := by
  rw [lines_eq, lines_eq]
  cases p.wordLines width with
  | nil => simp only [linesOf, List.map_cons, List.map_nil, Line.relocate, counts]
  | cons line others =>
    simp only [linesOf, List.map_map, Function.comp_def, Line.relocate, OpenLine.close, counts]

/-- The second part keeps the indent, since a bullet stands in a list only. -/
theorem indent_successor {p : Paragraph} (listed : p.bullet.isSome → 1 ≤ p.level) :
    p.successor.indent = p.indent := by
  have room : (decide (0 < p.level) || p.bullet.isSome) = (decide (0 < p.level) || false) := by
    cases marked : p.bullet.isSome with
    | false => rfl
    | true =>
      have inside := listed marked
      simp [Nat.lt_of_lt_of_le Nat.zero_lt_one inside]
  rw [indent, indent, room]
  rfl

/-- The lines of the two parts of a paragraph that is cut in front of a line. -/
theorem lines_cut {width : Float32} {index : Nat} {p : Paragraph} {first rest : List Line} {l : Line}
    (lines : p.lines width index = first ++ l :: rest) (behind : first ≠ [])
    (listed : p.bullet.isSome → 1 ≤ p.level) :
    ∃ s : Run.Spot, p.runs = s.runs ∧ s.StartsWord ∧ l.start = ⟨index, s.index, s.offset⟩ ∧
      ({ p with runs := s.head } : Paragraph).lines width index = first ∧
      l :: rest = (({ p.successor with runs := s.tail } : Paragraph).lines width 0).map
        (Line.relocate l.start.behind) := by
  obtain ⟨before, line, after, cut, nonempty, rfl, later⟩ := exists_wordLines_of_lines lines behind
  obtain ⟨s, runs, start, run, offset, head, tail⟩ := exists_spot_of_wordLines cut nonempty
  have place : l.start = ⟨index, s.index, s.offset⟩ := by
    rw [(List.cons.inj later).1, WordLine.opened_close, Word.pos, run, offset]
  refine ⟨s, runs, start, place, ?_, ?_⟩
  · have left : ({ p with runs := s.head } : Paragraph).wordLines width = before := head
    rw [lines_eq, left, linesOf_some _ _ nonempty]
    rfl
  · have same : ({ p.successor with runs := s.tail } : Paragraph).indent = p.indent := indent_successor listed
    have right : (({ p.successor with runs := s.tail } : Paragraph).wordLines width).map
        (WordLine.placed s.behind) = line :: after := by
      rw [wordLines, avail, same]
      exact tail
    have words : ({ p.successor with runs := s.tail } : Paragraph).wordLines width ≠ [] := by
      intro empty
      rw [empty] at right
      cases right
    rw [later, ← right, lines_eq, linesOf_some _ _ words, same, place, List.map_map, List.map_map]
    exact List.map_congr_left fun m _ => WordLine.close_placed (TextPos.behind_spot index s) p.indent m

end Paragraph

namespace TextBody

theorem linesFrom_relocate {locate : TextPos → TextPos} {back index : Nat}
    (counts : ∀ i run offset, index ≤ i → locate ⟨i, run, offset⟩ = ⟨back + i, run, offset⟩)
    (width : Float32) (ps : List Paragraph) :
    linesFrom width (back + index) ps = (linesFrom width index ps).map (Line.relocate locate) := by
  induction ps generalizing index with
  | nil => rfl
  | cons p rest ih =>
    have here := p.lines_relocate (counts index · · (Nat.le_refl _)) width
    rw [linesFrom, linesFrom, List.map_append, ← here, Nat.add_assoc,
      ih fun i run offset bound => counts i run offset (by omega)]

/-- Cutting a body where a line starts cuts its lines there: the first part has the lines before, and the second
one has the others, with their places counted from the cut. Wrapping starts anew at every line, so nothing of the
lines before is needed. -/
theorem layout_splitAt {b : TextBody} (listed : ∀ p ∈ b.paragraphs, p.bullet.isSome → 1 ≤ p.level)
    (nonempty : ∀ p ∈ b.paragraphs, ∀ r ∈ p.runs, r.text ≠ "") {width : Float32} {i : Nat} {l : Line}
    (behind : 1 ≤ i) (atLine : (b.layout width)[i]? = some l) :
    (b.splitAt l.start).1.layout width = (b.layout width).take i ∧
    (b.layout width).drop i = ((b.splitAt l.start).2.layout width).map (Line.relocate l.start.behind) := by
  obtain ⟨before, p, after, first, rest, paragraphs, lines, place⟩ := exists_of_linesFrom atLine
  rw [Nat.zero_add] at lines
  have atP : p ∈ b.paragraphs := by simp [paragraphs]
  have whole : b.layout width = (linesFrom width 0 before ++ first) ++
      (l :: rest ++ linesFrom width (before.length + 1) after) := by
    rw [layout, paragraphs, linesFrom_append, linesFrom, Nat.zero_add, lines]
    simp only [List.append_assoc]
  have length : i = (linesFrom width 0 before ++ first).length := by rw [place, List.length_append]
  rw [whole, length, List.take_left, List.drop_left]
  by_cases atStart : first = []
  · subst atStart
    have earlier : (if before.isEmpty then [Paragraph.empty p.size] else before) = before := by
      refine if_neg fun empty => ?_
      rw [List.isEmpty_iff.mp empty, linesFrom, List.length_nil] at place
      omega
    obtain ⟨line, others, lines', start⟩ := p.lines_first width before.length (nonempty p atP)
    obtain ⟨rfl, rfl⟩ := List.cons.inj (lines.symm.trans lines')
    have places (j run offset : Nat) (_ : 0 ≤ j) : TextPos.behind ⟨before.length, 0, 0⟩ ⟨j, run, offset⟩ =
        ⟨before.length + j, run, offset⟩ := TextPos.behind_start _ _
    have later := linesFrom_relocate places width (p :: after)
    rw [Nat.add_zero, linesFrom, lines] at later
    rw [start, splitAt_start paragraphs, earlier, List.append_nil]
    exact ⟨rfl, later⟩
  · obtain ⟨s, runs, word, start, head, tail⟩ := Paragraph.lines_cut lines atStart (listed p atP)
    have later := linesFrom_relocate
      (fun j run offset bound => TextPos.behind_later l.start bound run offset) width after
    rw [start] at later
    rw [start, splitAt_spot paragraphs runs word]
    refine ⟨?_, ?_⟩
    · rw [layout, linesFrom_append, Nat.zero_add, linesFrom, head, linesFrom, List.append_nil]
    · rw [layout, linesFrom, List.map_append, later, tail, start]

/-- The second line starts inside of a run, in the paragraph of a list item. -/
theorem layout_splitAt_insideItem :
    (∀ p ∈ spring.paragraphs, p.bullet.isSome → 1 ≤ p.level) ∧
    (∀ p ∈ spring.paragraphs, ∀ r ∈ p.runs, r.text ≠ "") ∧
    ∃ l, (spring.layout 130)[1]? = some l ∧ l.start = ⟨0, 1, 2⟩ ∧
      ((spring.splitAt l.start).1.runs.map Run.text, (spring.splitAt l.start).2.runs.map Run.text) =
        (["schö", "n "], ["grün  ", "blau", "x"]) ∧
      (spring.splitAt l.start).1.layout 130 = (spring.layout 130).take 1 ∧
      (spring.layout 130).drop 1 =
        ((spring.splitAt l.start).2.layout 130).map (Line.relocate l.start.behind) := by
  have listed : ∀ p ∈ spring.paragraphs, p.bullet.isSome → 1 ≤ p.level := by decide
  have nonempty : ∀ p ∈ spring.paragraphs, ∀ r ∈ p.runs, r.text ≠ "" := by decide
  have second : ((spring.layout 130)[1]?).map Line.start = some ⟨0, 1, 2⟩ := by decide +kernel
  obtain ⟨l, atLine, start⟩ := Option.map_eq_some_iff.mp second
  obtain ⟨before, after⟩ := layout_splitAt listed nonempty (by decide) atLine
  exact ⟨listed, nonempty, l, atLine, start, by rw [start]; decide +kernel, before, after⟩

end TextBody

end Unveil
