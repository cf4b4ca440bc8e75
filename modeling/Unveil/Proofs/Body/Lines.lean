import Unveil.Proofs.Body.Words

namespace Unveil

/-- The words of a line, which are one at least. -/
structure WordLine where
  first : Word
  rest : List Word

/-- The same line of a body whose places are counted otherwise. -/
def Line.relocate (locate : TextPos → TextPos) (l : Line) : Line := { l with start := locate l.start }

namespace OpenLine

/-- The same line at another place. -/
def placed (place : Nat → Nat → Nat × Nat) (l : OpenLine) : OpenLine :=
  { l with run := (place l.run l.offset).1, offset := (place l.run l.offset).2 }

theorem foldl_add_placed (place : Nat → Nat → Nat × Nat) (ws : List Word) (l : OpenLine) :
    (ws.map (Word.placed place)).foldl add (l.placed place) = (ws.foldl add l).placed place := by
  induction ws generalizing l with
  | nil => rfl
  | cons w rest ih => exact ih (l.add w)

theorem foldl_add_total (ws : List Word) (l : OpenLine) :
    (ws.foldl add l).total = ws.foldl (fun sum w => sum + w.total) l.total := by
  induction ws generalizing l with
  | nil => rfl
  | cons w rest ih => exact ih (l.add w)

theorem foldl_add_start (ws : List Word) (l : OpenLine) :
    (ws.foldl add l).run = l.run ∧ (ws.foldl add l).offset = l.offset := by
  induction ws generalizing l with
  | nil => exact ⟨rfl, rfl⟩
  | cons w rest ih => exact ih (l.add w)

end OpenLine

namespace WordLine

def words (l : WordLine) : List Word := l.first :: l.rest

def add (l : WordLine) (w : Word) : WordLine := ⟨l.first, l.rest ++ [w]⟩

/-- The width of words with the blanks behind each of them. -/
def room (ws : List Word) : Float32 := ws.foldl (fun sum w => sum + w.total) 0.0

/-- The line that has taken the words. -/
def opened (l : WordLine) : OpenLine := l.rest.foldl .add (.start l.first)

def placed (place : Nat → Nat → Nat × Nat) (l : WordLine) : WordLine :=
  ⟨l.first.placed place, l.rest.map (Word.placed place)⟩

/-- The lines of the words after a line, at most `avail` wide. -/
def wrap (avail : Float32) (line : WordLine) : List Word → List WordLine
  | [] => [line]
  | w :: rest =>
    if avail < room line.words + w.core then line :: wrap avail ⟨w, []⟩ rest
    else wrap avail (line.add w) rest

def ofWords (avail : Float32) : List Word → List WordLine
  | [] => []
  | w :: rest => wrap avail ⟨w, []⟩ rest

/-- Lines that break just in front of the words that do not fit. -/
structure Wraps (avail : Float32) (lines : List WordLine) : Prop where
  fits : ∀ l ∈ lines, ∀ before w after, l.rest = before ++ w :: after →
    ¬avail < room (l.first :: before) + w.core
  breaks : lines.IsChain fun l m => avail < room l.words + m.first.core

theorem opened_total (l : WordLine) : l.opened.total = room l.words :=
  OpenLine.foldl_add_total l.rest (.start l.first)

theorem opened_start (l : WordLine) : l.opened.run = l.first.run ∧ l.opened.offset = l.first.offset :=
  OpenLine.foldl_add_start l.rest (.start l.first)

theorem opened_add (l : WordLine) (w : Word) : (l.add w).opened = l.opened.add w := by simp [opened, add]

theorem opened_placed (place : Nat → Nat → Nat × Nat) (l : WordLine) :
    (l.placed place).opened = l.opened.placed place :=
  OpenLine.foldl_add_placed place l.rest (.start l.first)

/-- The lines that are filled are those of the words. -/
theorem fill_eq (avail : Float32) (line : WordLine) (ws : List Word) :
    OpenLine.fill avail line.opened ws = (wrap avail line ws).map opened := by
  induction ws generalizing line with
  | nil => rfl
  | cons w rest ih =>
    rw [OpenLine.fill, wrap, opened_total]
    split
    · exact congrArg (line.opened :: ·) (ih ⟨w, []⟩)
    · rw [← opened_add, ih]

theorem wrap_cons (avail : Float32) (line : WordLine) (ws : List Word) :
    ∃ more others, wrap avail line ws = ⟨line.first, line.rest ++ more⟩ :: others := by
  induction ws generalizing line with
  | nil => exact ⟨[], [], by rw [wrap, List.append_nil]⟩
  | cons w rest ih =>
    rw [wrap]
    split
    · exact ⟨[], _, by rw [List.append_nil]⟩
    · obtain ⟨more, others, wrapped⟩ := ih (line.add w)
      exact ⟨w :: more, others, by rw [wrapped, add, List.append_assoc, List.singleton_append]⟩

/-- Lines lose no word. -/
theorem wrap_words (avail : Float32) (line : WordLine) (ws : List Word) :
    (wrap avail line ws).flatMap words = line.words ++ ws := by
  induction ws generalizing line with
  | nil => exact List.flatMap_singleton _ _ |>.trans (List.append_nil _).symm
  | cons w rest ih =>
    rw [wrap]
    split
    · rw [List.flatMap_cons, ih]
      rfl
    · rw [ih]
      simp [words, add]

/-- Words that fit are taken, and a break is in front of one that does not. -/
theorem wraps_wrap {avail : Float32} {line : WordLine} (ws : List Word)
    (fits : ∀ before w after, line.rest = before ++ w :: after →
      ¬avail < room (line.first :: before) + w.core) : Wraps avail (wrap avail line ws) := by
  induction ws generalizing line with
  | nil => exact ⟨fun l atL => List.mem_singleton.mp atL ▸ fits, .singleton _⟩
  | cons w rest ih =>
    rw [wrap]
    split
    · rename_i wide
      have next : Wraps avail (wrap avail ⟨w, []⟩ rest) := ih fun before v after empty =>
        absurd empty.symm (List.append_ne_nil_of_right_ne_nil _ (List.cons_ne_nil _ _))
      obtain ⟨later, breaks⟩ := next
      obtain ⟨more, others, wrapped⟩ := wrap_cons avail ⟨w, []⟩ rest
      refine ⟨List.forall_mem_cons.mpr ⟨fits, later⟩, ?_⟩
      rw [wrapped] at breaks ⊢
      exact .cons_cons wide breaks
    · rename_i narrow
      refine ih fun before v after split => ?_
      rcases List.eq_nil_or_concat' after with rfl | ⟨init, last, rfl⟩
      · obtain ⟨rfl, rfl⟩ := List.append_singleton_inj.mp split
        exact narrow
      · rw [← List.cons_append, ← List.append_assoc] at split
        exact fits before v init (List.append_singleton_inj.mp split).1

/-- A line takes all words that fit. -/
theorem wrap_append {avail : Float32} {first : Word} {before : List Word} (after ws : List Word)
    (fits : ∀ left w right, before ++ after = left ++ w :: right → ¬avail < room (first :: left) + w.core) :
    wrap avail ⟨first, before⟩ (after ++ ws) = wrap avail ⟨first, before ++ after⟩ ws := by
  induction after generalizing before with
  | nil => rw [List.nil_append, List.append_nil]
  | cons w rest ih =>
    have here : ¬avail < room (words ⟨first, before⟩) + w.core := fits before w rest rfl
    rw [List.append_cons] at fits ⊢
    rw [List.cons_append, wrap, if_neg here]
    exact ih fits

theorem Wraps.wrap_eq {avail : Float32} {line : WordLine} {others : List WordLine}
    (wraps : Wraps avail (line :: others)) :
    wrap avail ⟨line.first, []⟩ (line.rest ++ others.flatMap words) = line :: others := by
  induction others generalizing line with
  | nil => exact wrap_append line.rest [] (wraps.fits line (.head _))
  | cons next more ih =>
    obtain ⟨fits, breaks⟩ := wraps
    obtain ⟨wide, later⟩ := List.isChain_cons_cons.mp breaks
    have filled : wrap avail ⟨line.first, []⟩ (line.rest ++ (next :: more).flatMap words) =
        wrap avail line ((next :: more).flatMap words) := wrap_append line.rest _ (fits line (.head _))
    rw [filled, List.flatMap_cons, words, List.cons_append, wrap, if_pos wide]
    exact congrArg (line :: ·) (ih ⟨fun l atL => fits l (.tail _ atL), later⟩)

/-- The lines of words are the only ones that break where they have to: a line takes words as long as they fit, so
that the words alone say where the lines break. -/
theorem ofWords_eq_iff {avail : Float32} {ws : List Word} {lines : List WordLine} :
    ofWords avail ws = lines ↔ lines.flatMap words = ws ∧ Wraps avail lines := by
  constructor
  · rintro rfl
    cases ws with
    | nil => exact ⟨rfl, nofun, .nil⟩
    | cons w rest =>
      exact ⟨wrap_words avail ⟨w, []⟩ rest, wraps_wrap rest fun before v after empty =>
        absurd empty.symm (List.append_ne_nil_of_right_ne_nil _ (List.cons_ne_nil _ _))⟩
  · rintro ⟨rfl, wraps⟩
    cases lines with
    | nil => rfl
    | cons line others => exact wraps.wrap_eq

/-- At a break, the lines before it and those after it are lines of their own words. -/
theorem ofWords_append {avail : Float32} {ws : List Word} {first rest : List WordLine}
    (cut : ofWords avail ws = first ++ rest) :
    ws = first.flatMap words ++ rest.flatMap words ∧ ofWords avail (first.flatMap words) = first ∧
      ofWords avail (rest.flatMap words) = rest := by
  obtain ⟨whole, fits, breaks⟩ := ofWords_eq_iff.mp cut
  rw [List.flatMap_append] at whole
  refine ⟨whole.symm, ofWords_eq_iff.mpr ⟨rfl, ?_, breaks.left_of_append⟩,
    ofWords_eq_iff.mpr ⟨rfl, ?_, breaks.right_of_append⟩⟩
  · exact fun l atL => fits l (List.mem_append_left _ atL)
  · exact fun l atL => fits l (List.mem_append_right _ atL)

theorem room_placed (place : Nat → Nat → Nat × Nat) (ws : List Word) :
    room (ws.map (Word.placed place)) = room ws := List.foldl_map

theorem placed_add (place : Nat → Nat → Nat × Nat) (l : WordLine) (w : Word) :
    (l.add w).placed place = (l.placed place).add (w.placed place) := by simp [placed, add]

theorem wrap_placed (avail : Float32) (place : Nat → Nat → Nat × Nat) (line : WordLine) (ws : List Word) :
    wrap avail (line.placed place) (ws.map (Word.placed place)) = (wrap avail line ws).map (placed place) := by
  induction ws generalizing line with
  | nil => rfl
  | cons w rest ih =>
    have same : room (line.placed place).words = room line.words := room_placed place line.words
    have core : (w.placed place).core = w.core := rfl
    rw [List.map_cons, wrap, wrap, same, core]
    split
    · exact congrArg (line.placed place :: ·) (ih ⟨w, []⟩)
    · rw [← placed_add, ih]

theorem ofWords_placed (avail : Float32) (place : Nat → Nat → Nat × Nat) (ws : List Word) :
    ofWords avail (ws.map (Word.placed place)) = (ofWords avail ws).map (placed place) := by
  cases ws with
  | nil => rfl
  | cons w rest => exact wrap_placed avail place ⟨w, []⟩ rest

theorem opened_close (l : WordLine) (index : Nat) (indent : Float32) :
    (l.opened.close index indent).start = l.first.pos index := by
  obtain ⟨run, offset⟩ := l.opened_start
  rw [OpenLine.close, run, offset, Word.pos]

theorem firsts_sublist (lines : List WordLine) : (lines.map first).Sublist (lines.flatMap words) := by
  induction lines with
  | nil => exact .slnil
  | cons line others ih => exact (ih.trans (List.sublist_append_right line.rest _)).cons_cons line.first

theorem close_placed {locate : TextPos → TextPos} {place : Nat → Nat → Nat × Nat} {i j : Nat}
    (counts : ∀ run offset, locate ⟨i, run, offset⟩ = ⟨j, (place run offset).1, (place run offset).2⟩)
    (indent : Float32) (l : WordLine) : (l.placed place).opened.close j indent =
      (l.opened.close i indent).relocate locate := by
  rw [opened_placed, OpenLine.close, OpenLine.close, Line.relocate, counts]
  rfl

end WordLine

namespace Paragraph

/-- The width that a paragraph leaves to its words. -/
def avail (width : Float32) (p : Paragraph) : Float32 := Numeral.larger (width - p.indent) 0.0

def wordLines (width : Float32) (p : Paragraph) : List WordLine :=
  WordLine.ofWords (p.avail width) p.words

/-- The lines of a paragraph whose words are cut like this. -/
def linesOf (index : Nat) (p : Paragraph) : List WordLine → List Line
  | [] => [⟨⟨index, 0, 0⟩, p.indent, Metrics.lineHeight p.size⟩]
  | line :: others => (line :: others).map (·.opened.close index p.indent)

theorem linesOf_some (index : Nat) (p : Paragraph) {cut : List WordLine} (nonempty : cut ≠ []) :
    p.linesOf index cut = cut.map (·.opened.close index p.indent) := by
  cases cut with
  | nil => exact absurd rfl nonempty
  | cons => rfl

/-- The lines of a paragraph are those of its words. -/
theorem lines_eq (width : Float32) (index : Nat) (p : Paragraph) :
    p.lines width index = p.linesOf index (p.wordLines width) := by
  unfold lines wordLines
  cases p.words with
  | nil => rfl
  | cons w rest =>
    have nonempty : WordLine.ofWords (p.avail width) (w :: rest) ≠ [] := by
      obtain ⟨more, others, wrapped⟩ := WordLine.wrap_cons (p.avail width) ⟨w, []⟩ rest
      rw [WordLine.ofWords, wrapped]
      exact List.cons_ne_nil _ _
    have filled := congrArg (List.map (·.close index p.indent))
      (WordLine.fill_eq (p.avail width) ⟨w, []⟩ rest)
    rw [List.map_map] at filled
    rw [linesOf_some index p nonempty]
    exact filled

theorem wordLines_words (width : Float32) (p : Paragraph) :
    (p.wordLines width).flatMap WordLine.words = p.words :=
  (WordLine.ofWords_eq_iff.mp rfl).1

/-- The lines of a paragraph start one after the other. -/
theorem lines_ascending (width : Float32) (index : Nat) (p : Paragraph) :
    ((p.lines width index).map Line.start).Pairwise TextPos.Before := by
  rw [lines_eq]
  by_cases empty : p.wordLines width = []
  · rw [empty]
    exact List.pairwise_singleton _ _
  · have starts := (WordLine.firsts_sublist (p.wordLines width)).map (Word.pos index)
    rw [wordLines_words] at starts
    have order := (glyphsOf_ascending index 0 p.runs).sublist (starts.trans (Glyph.words_pos index p.glyphs))
    simpa only [linesOf_some index p empty, List.map_map, Function.comp_def, WordLine.opened_close] using order

theorem lines_paragraph {width : Float32} {index : Nat} {p : Paragraph} {l : Line}
    (atL : l ∈ p.lines width index) : l.start.paragraph = index := by
  rw [lines_eq] at atL
  by_cases empty : p.wordLines width = []
  · rw [empty] at atL
    cases List.mem_singleton.mp atL
    rfl
  · rw [linesOf_some index p empty] at atL
    obtain ⟨line, _, rfl⟩ := List.mem_map.mp atL
    rfl

/-- The first line starts with the paragraph. -/
theorem lines_first (width : Float32) (index : Nat) {p : Paragraph} (nonempty : ∀ r ∈ p.runs, r.text ≠ "") :
    ∃ first others, p.lines width index = first :: others ∧ first.start = ⟨index, 0, 0⟩ := by
  rw [lines_eq]
  have words := p.wordLines_words width
  cases cut : p.wordLines width with
  | nil => exact ⟨_, [], rfl, rfl⟩
  | cons line others =>
    rw [cut, List.flatMap_cons, WordLine.words, List.cons_append] at words
    obtain ⟨run, offset⟩ := words_cons nonempty words.symm
    refine ⟨_, _, rfl, ?_⟩
    rw [WordLine.opened_close, Word.pos, run, offset]

/-- A break between lines is where a word starts. What is before it has the lines before it, and what is
behind it has the lines behind it. -/
theorem exists_spot_of_wordLines {width : Float32} {p : Paragraph} {first rest : List WordLine}
    {line : WordLine} (cut : p.wordLines width = first ++ line :: rest) (behind : first ≠ []) :
    ∃ s : Run.Spot, p.runs = s.runs ∧ s.StartsWord ∧ line.first.run = s.index ∧ line.first.offset = s.offset ∧
      WordLine.ofWords (p.avail width) ({ p with runs := s.head } : Paragraph).words = first ∧
      (WordLine.ofWords (p.avail width) ({ p with runs := s.tail } : Paragraph).words).map
        (WordLine.placed s.behind) = line :: rest := by
  obtain ⟨words, before, after⟩ := WordLine.ofWords_append cut
  have nonempty : first.flatMap WordLine.words ≠ [] := by
    cases first with
    | nil => exact absurd rfl behind
    | cons => exact List.cons_ne_nil _ _
  obtain ⟨s, runs, start, run, offset, head⟩ := exists_spot_of_words words nonempty
  have whole : p.words = _ := runs ▸ s.words_runs start
  have tail : ({ p with runs := s.tail } : Paragraph).words.map (Word.placed s.behind) =
      (line :: rest).flatMap WordLine.words := by
    rw [whole] at words
    refine List.append_cancel_left (words.trans ?_)
    rw [← head]
    rfl
  refine ⟨s, runs, start, run, offset, head ▸ before, ?_⟩
  rw [← WordLine.ofWords_placed, tail, after]

/-- Lines with others before them are lines of words. -/
theorem exists_wordLines_of_lines {width : Float32} {index : Nat} {p : Paragraph} {first rest : List Line}
    {l : Line} (lines : p.lines width index = first ++ l :: rest) (behind : first ≠ []) :
    ∃ before line after, p.wordLines width = before ++ line :: after ∧ before ≠ [] ∧
      first = before.map (·.opened.close index p.indent) ∧
      l :: rest = (line :: after).map (·.opened.close index p.indent) := by
  rw [lines_eq] at lines
  by_cases empty : p.wordLines width = []
  · have length := congrArg List.length lines
    rw [empty, linesOf, List.length_append, List.length_singleton, List.length_cons] at length
    exact absurd (List.eq_nil_of_length_eq_zero (by omega)) behind
  · rw [linesOf_some index p empty, List.map_eq_append_iff] at lines
    obtain ⟨before, others, cut, rfl, later⟩ := lines
    obtain ⟨line, after, rfl, _⟩ := List.map_eq_cons_iff.mp later
    exact ⟨before, line, after, cut, by simpa using behind, rfl, later.symm⟩

/-- Every line but the first starts at a character that is not blank and follows a blank. -/
theorem lines_spot {width : Float32} {index : Nat} {p : Paragraph} {first l : Line} {others : List Line}
    (lines : p.lines width index = first :: others) (atL : l ∈ others) :
    ∃ s : Run.Spot, p.runs = s.runs ∧ s.StartsWord ∧ l.start = ⟨index, s.index, s.offset⟩ := by
  obtain ⟨before, after, rfl⟩ := List.append_of_mem atL
  obtain ⟨_, line, _, cut, nonempty, _, later⟩ :=
    exists_wordLines_of_lines (lines.trans (List.cons_append).symm) (List.cons_ne_nil first before)
  obtain ⟨s, runs, start, run, offset, _⟩ := exists_spot_of_wordLines cut nonempty
  rw [(List.cons.inj later).1]
  exact ⟨s, runs, start, by rw [WordLine.opened_close, Word.pos, run, offset]⟩

end Paragraph

namespace TextBody

theorem linesFrom_append (width : Float32) (index : Nat) (first rest : List Paragraph) :
    linesFrom width index (first ++ rest) =
      linesFrom width index first ++ linesFrom width (index + first.length) rest := by
  induction first generalizing index with
  | nil => rfl
  | cons p more ih =>
    rw [List.cons_append, linesFrom, linesFrom, ih, List.append_assoc, List.length_cons, Nat.add_right_comm,
      Nat.add_assoc]

theorem linesFrom_eq (width : Float32) (index : Nat) (ps : List Paragraph) :
    linesFrom width index ps = (ps.mapIdx fun i p => p.lines width (index + i)).flatten := by
  induction ps generalizing index with
  | nil => rfl
  | cons p rest ih =>
    rw [linesFrom, ih, List.mapIdx_cons, List.flatten_cons]
    simp only [Nat.add_zero, Nat.add_assoc, Nat.add_comm 1]

/-- Each line of paragraphs is one of a paragraph. -/
theorem exists_of_linesFrom {width : Float32} {index i : Nat} {ps : List Paragraph} {l : Line}
    (atLine : (linesFrom width index ps)[i]? = some l) :
    ∃ before p after first rest, ps = before ++ p :: after ∧
      p.lines width (index + before.length) = first ++ l :: rest ∧
      i = (linesFrom width index before).length + first.length := by
  induction ps generalizing index i with
  | nil => cases atLine
  | cons p more ih =>
    rw [linesFrom, List.getElem?_append] at atLine
    split at atLine
    · rename_i bound
      have whole := List.take_append_drop i (p.lines width index)
      rw [List.drop_eq_getElem_cons bound, (List.getElem?_eq_some_iff.mp atLine).2] at whole
      refine ⟨[], p, more, _, _, rfl, whole.symm, ?_⟩
      simp [linesFrom, Nat.min_eq_left bound.le]
    · rename_i bound
      obtain ⟨before, q, after, first, rest, split, lines, place⟩ := ih atLine
      refine ⟨p :: before, q, after, first, rest, congrArg (p :: ·) split, ?_, ?_⟩
      · rw [List.length_cons, ← lines, Nat.add_right_comm, Nat.add_assoc]
      · rw [linesFrom, List.length_append]
        omega

/-- Lines start one after the other, in the paragraphs from the first one on. -/
theorem linesFrom_ascending (width : Float32) (index : Nat) (ps : List Paragraph) :
    ((linesFrom width index ps).map Line.start).Pairwise TextPos.Before ∧
      ∀ l ∈ linesFrom width index ps, index ≤ l.start.paragraph := by
  induction ps generalizing index with
  | nil => exact ⟨.nil, nofun⟩
  | cons p rest ih =>
    obtain ⟨order, bound⟩ := ih (index + 1)
    rw [linesFrom, List.map_append]
    refine ⟨List.pairwise_append.mpr ⟨p.lines_ascending width index, order, fun a atA b atB => ?_⟩, ?_⟩
    · obtain ⟨l, atL, rfl⟩ := List.mem_map.mp atA
      obtain ⟨m, atM, rfl⟩ := List.mem_map.mp atB
      have here := Paragraph.lines_paragraph atL
      have later := bound m atM
      exact .inl (by omega)
    · intro l atL
      rcases List.mem_append.mp atL with here | later
      · exact (Paragraph.lines_paragraph here).ge
      · exact (Nat.le_succ index).trans (bound l later)

/-- A body is cut between two paragraphs. -/
theorem splitAt_start {b : TextBody} {before after : List Paragraph} {p : Paragraph}
    (paragraphs : b.paragraphs = before ++ p :: after) : b.splitAt ⟨before.length, 0, 0⟩ =
      (⟨if before.isEmpty then [.empty p.size] else before⟩, ⟨p :: after⟩) := by
  unfold splitAt
  simp only [paragraphs, List.take_left, List.drop_left]
  rfl

theorem splitAt_inside {b : TextBody} {before after : List Paragraph} {p : Paragraph} {run offset : Nat}
    (paragraphs : b.paragraphs = before ++ p :: after) (inside : ¬(run = 0 ∧ offset = 0)) :
    b.splitAt ⟨before.length, run, offset⟩ =
      (⟨before ++ [{ p with runs := (cutRuns p.runs run offset).1 }]⟩,
        ⟨{ p.successor with runs := (cutRuns p.runs run offset).2 } :: after⟩) := by
  unfold splitAt
  simp only [paragraphs, List.take_left, List.drop_left]
  rw [if_neg inside]

/-- A body is cut in front of a character. -/
theorem splitAt_spot {b : TextBody} {before after : List Paragraph} {p : Paragraph} {s : Run.Spot}
    (paragraphs : b.paragraphs = before ++ p :: after) (runs : p.runs = s.runs) (start : s.StartsWord) :
    b.splitAt ⟨before.length, s.index, s.offset⟩ =
      (⟨before ++ [{ p with runs := s.head }]⟩, ⟨{ p.successor with runs := s.tail } :: after⟩) := by
  have inside : ¬(s.index = 0 ∧ s.offset = 0) := by
    rintro ⟨run, offset⟩
    obtain ⟨_, c, last, _⟩ := start
    rw [s.offset_eq, byteCount_eq_zero] at offset
    rw [Run.Spot.before, List.eq_nil_of_length_eq_zero run, offset] at last
    cases last
  rw [splitAt_inside paragraphs inside, runs, s.cutRuns_runs]

/-- A line starts with a paragraph or at a word in it. -/
theorem layout_start {b : TextBody} (nonempty : ∀ p ∈ b.paragraphs, ∀ r ∈ p.runs, r.text ≠ "") {width : Float32}
    {l : Line} (atLine : l ∈ b.layout width) :
    ∃ before p after, b.paragraphs = before ++ p :: after ∧ (l.start = ⟨before.length, 0, 0⟩ ∨
      ∃ s : Run.Spot, p.runs = s.runs ∧ s.StartsWord ∧ l.start = ⟨before.length, s.index, s.offset⟩) := by
  obtain ⟨i, atLine⟩ := List.mem_iff_getElem?.mp atLine
  obtain ⟨before, p, after, first, rest, paragraphs, lines, _⟩ := exists_of_linesFrom atLine
  rw [Nat.zero_add] at lines
  refine ⟨before, p, after, paragraphs, ?_⟩
  cases first with
  | nil =>
    obtain ⟨line, others, lines', start⟩ := p.lines_first width before.length (nonempty p (by simp [paragraphs]))
    obtain ⟨rfl, rfl⟩ := List.cons.inj (lines.symm.trans lines')
    exact .inl start
  | cons first more => exact .inr (Paragraph.lines_spot lines (by simp))

/-- The lines of a body cut its text: one after the other, at least one for each paragraph and the first
of them at its start, the others at words. A line breaks just in front of the words that do not fit. -/
theorem layout_cuts {b : TextBody} (nonempty : ∀ p ∈ b.paragraphs, ∀ r ∈ p.runs, r.text ≠ "") (width : Float32) :
    b.layout width = (b.paragraphs.mapIdx fun i p => p.lines width i).flatten ∧
    ((b.layout width).map Line.start).Pairwise TextPos.Before ∧
    ∀ before p after, b.paragraphs = before ++ p :: after →
      ∃ first others, p.lines width before.length = first :: others ∧ first.start = ⟨before.length, 0, 0⟩ ∧
        b.splitAt first.start = (⟨if before.isEmpty then [.empty p.size] else before⟩, ⟨p :: after⟩) ∧
        (∀ l ∈ others, ∃ s : Run.Spot, p.runs = s.runs ∧ s.StartsWord ∧
          l.start = ⟨before.length, s.index, s.offset⟩ ∧ b.splitAt l.start =
            (⟨before ++ [{ p with runs := s.head }]⟩, ⟨{ p.successor with runs := s.tail } :: after⟩)) ∧
        ∃ cut : List WordLine, cut.flatMap WordLine.words = p.words ∧
          WordLine.Wraps (Numeral.larger (width - p.indent) 0.0) cut ∧
          first :: others = p.linesOf before.length cut := by
  refine ⟨?_, (linesFrom_ascending width 0 b.paragraphs).1, fun before p after paragraphs => ?_⟩
  · rw [layout, linesFrom_eq]
    simp only [Nat.zero_add]
  have text (r : Run) (atR : r ∈ p.runs) : r.text ≠ "" := nonempty p (by simp [paragraphs]) r atR
  obtain ⟨first, others, lines, start⟩ := p.lines_first width before.length text
  obtain ⟨words, wraps⟩ := WordLine.ofWords_eq_iff.mp (rfl : _ = p.wordLines width)
  refine ⟨first, others, lines, start, by rw [start, splitAt_start paragraphs], fun l atL => ?_,
    p.wordLines width, words, wraps, lines ▸ p.lines_eq width before.length⟩
  obtain ⟨s, runs, word, place⟩ := Paragraph.lines_spot lines atL
  exact ⟨s, runs, word, place, by rw [place, splitAt_spot paragraphs runs word]⟩

/-- A list item in three faces, an empty paragraph and a letter. -/
def spring : TextBody :=
  ⟨[⟨[⟨"schö", .plain 20, false⟩, ⟨"n grün  ", { Face.plain 20 with bold := true }, false⟩,
    ⟨"blau", .plain 20, true⟩], some ⟨.symbol '•', false⟩, 1, .left, 20⟩, .empty 20,
    ⟨[⟨"x", .plain 20, false⟩], none, 0, .left, 20⟩]⟩

/-- A word goes on in the next run, and the line after it starts inside of that run. -/
theorem layout_cuts_spring :
    (∀ p ∈ spring.paragraphs, ∀ r ∈ p.runs, r.text ≠ "") ∧
    (spring.layout 130).map Line.start = [⟨0, 0, 0⟩, ⟨0, 1, 2⟩, ⟨0, 2, 0⟩, ⟨1, 0, 0⟩, ⟨2, 0, 0⟩] ∧
    ((spring.layout 130).map Line.start).Pairwise TextPos.Before ∧
    ∃ first others, spring.paragraphs[0].lines 130 0 = first :: others ∧ ∀ l ∈ others, ∃ s : Run.Spot,
      s.StartsWord ∧ l.start = ⟨0, s.index, s.offset⟩ ∧ (spring.splitAt l.start).1.paragraphs.length = 1 := by
  have nonempty : ∀ p ∈ spring.paragraphs, ∀ r ∈ p.runs, r.text ≠ "" := by decide
  obtain ⟨_, order, cuts⟩ := layout_cuts nonempty 130
  obtain ⟨first, others, lines, _, _, spots, _⟩ := cuts [] _ _ rfl
  refine ⟨nonempty, by decide +kernel, order, first, others, lines, fun l atL => ?_⟩
  obtain ⟨s, _, word, place, parts⟩ := spots l atL
  exact ⟨s, word, place, by rw [parts]; rfl⟩

end TextBody

end Unveil
