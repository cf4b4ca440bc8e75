import Unveil.Proofs.Markup.Handles
import Unveil.Proofs.Output.Strokes

namespace Unveil

open Calls

namespace Writing

def write (ps : List Markup.ParagraphEntry) : Writing → List Markup.ParagraphEntry
  | paragraph p => ps ++ [.ofParagraph p]
  | run r => Markup.ParagraphEntry.addRun r ps

end Writing

namespace Ink

def draw (cell : Markup.CellEntry) : Ink → Markup.CellEntry
  | writing w => { cell with paragraphs := w.write cell.paragraphs }
  | border side visible => Markup.State.setBorder side visible cell
  | span count => { cell with span := count }

/-- What is written; lines and merges write nothing. -/
def writing? : Ink → Option Writing
  | writing w => some w
  | _ => none

end Ink

namespace Markup

theorem ParagraphEntry.addRun_concat (run : Run) (ps : List ParagraphEntry) (p : ParagraphEntry) :
    addRun run (ps ++ [p]) = ps ++ [{ p with runs := p.runs ++ [run] }] := by
  induction ps with
  | nil => rfl
  | cons first rest ih =>
    rcases rest with _ | ⟨second, more⟩
    · rfl
    · exact congrArg (first :: ·) ih

/-- A paragraph with its runs. -/
def ParagraphEntry.whole (p : Paragraph) : ParagraphEntry := { ofParagraph p with runs := p.runs }

theorem writing_runs (ps : List ParagraphEntry) (p : ParagraphEntry) (runs : List Run) :
    (runs.map Writing.run).foldl Writing.write (ps ++ [p]) = ps ++ [{ p with runs := p.runs ++ runs }] := by
  induction runs generalizing p with
  | nil => rw [List.map_nil, List.foldl_nil, List.append_nil]
  | cons run rest ih =>
    rw [List.map_cons, List.foldl_cons, Writing.write, ParagraphEntry.addRun_concat, ih,
      List.append_assoc, List.singleton_append]

/-- Written one after the other, paragraphs and runs make up the paragraphs of the text. -/
theorem writing_paragraphs (ps : List ParagraphEntry) (b : TextBody) :
    b.writing.foldl Writing.write ps = ps ++ b.paragraphs.map .whole := by
  rw [TextBody.writing]
  generalize b.paragraphs = more
  induction more generalizing ps with
  | nil => rw [List.flatMap_nil, List.map_nil, List.foldl_nil, List.append_nil]
  | cons p rest ih =>
    rw [List.flatMap_cons, List.foldl_append, List.foldl_cons, Writing.write, writing_runs, ih,
      List.append_assoc, List.map_cons]
    rfl

namespace State

/-- The state with one more shape. -/
def adding (s : State) (entry : ShapeEntry) : State := { s with shapes := s.shapes.push entry }

theorem modify_push_size {α : Type} (xs : Array α) (x : α) (f : α → α) :
    (xs.push x).modify xs.size f = xs.push (f x) := by
  refine Array.ext_getElem? fun i => ?_
  rw [Array.getElem?_modify, Array.getElem?_push, Array.getElem?_push]
  rcases eq_or_ne i xs.size with rfl | other
  · simp
  · simp [other, Ne.symm other]

theorem changeBody_adding (s : State) (entry : ShapeEntry) (f : ShapeBody → Except Fault ShapeBody) :
    (s.adding entry).changeBody s.shapes.size f =
      (f entry.body).map fun body => (none, s.adding { entry with body }) := by
  have last : (s.adding entry).shapes[s.shapes.size]? = some entry := Array.getElem?_push_size
  unfold changeBody
  rw [last]
  simp only [adding, modify_push_size]

theorem gives_tell_change {s t : State} {call : Call} (noGroup : ∀ slide members, call ≠ .group slide members) :
    Gives (tell sink call) s () t ↔ ∃ id, s.change call = .ok (id, t) := by
  simp only [gives_tell, sink_change noGroup]

/-- The state with a text as its last shape. -/
def withText (s : State) (entry : ShapeEntry) (ps : List ParagraphEntry) : State :=
  s.adding { entry with body := .text ps }

theorem gives_write (s : State) (entry : ShapeEntry) (ps : List ParagraphEntry) (w : Writing) :
    Gives (tell sink (w.call s.shapes.size)) (s.withText entry ps) () (s.withText entry (w.write ps)) := by
  have text (f : List ParagraphEntry → List ParagraphEntry) :
      (s.withText entry ps).changeText s.shapes.size f = .ok (none, s.withText entry (f ps)) :=
    changeBody_adding s { entry with body := .text ps } _
  have changed : (s.withText entry ps).change (w.call s.shapes.size) =
      .ok (none, s.withText entry (w.write ps)) := by
    cases w <;> exact text _
  refine (gives_tell_change fun _ _ same => ?_).mpr ⟨none, changed⟩
  cases w <;> cases same

/-- What is written in a text is never refused. -/
theorem gives_writing (s : State) (entry : ShapeEntry) (ps : List ParagraphEntry) (ws : List Writing) :
    Gives (forEach (fun w => tell sink (w.call s.shapes.size)) ws) (s.withText entry ps) ()
      (s.withText entry (ws.foldl Writing.write ps)) := by
  induction ws generalizing ps with
  | nil => exact gives_forEach_nil.mpr rfl
  | cons w rest ih => exact gives_forEach_cons.mpr ⟨_, gives_write s entry ps w, ih _⟩

/-- The cells of a table, given by their places. -/
def cells (height width : Nat) (cell : Nat → Nat → CellEntry) : List (List CellEntry) :=
  (List.range height).map fun row => (List.range width).map fun col => cell row col

theorem modify_map_range {α : Type} (n i : Nat) (f : Nat → α) (g : α → α) :
    ((List.range n).map f).modify i g = (List.range n).map fun j => if j = i then g (f j) else f j := by
  refine List.ext_getElem? fun j => ?_
  rw [List.getElem?_modify, List.getElem?_map, List.getElem?_map]
  rcases Nat.lt_or_ge j n with inside | outside
  · rw [List.getElem?_range inside]
    rcases eq_or_ne j i with rfl | other
    · simp
    · simp [other, Ne.symm other]
  · rw [List.getElem?_eq_none (by simpa using outside)]
    rfl

/-- The cells after a stroke. -/
def drawn (cell : Nat → Nat → CellEntry) (k : Stroke) (row col : Nat) : CellEntry :=
  if row = k.row ∧ col = k.col then k.ink.draw (cell row col) else cell row col

theorem modify_cells (height width : Nat) (cell : Nat → Nat → CellEntry) (k : Stroke) :
    (cells height width cell).modify k.row (fun row => row.modify k.col fun c => k.ink.draw c) =
      cells height width (drawn cell k) := by
  rw [cells, modify_map_range, cells]
  refine List.map_congr_left fun row _ => ?_
  split
  · rename_i same
    rw [modify_map_range]
    refine List.map_congr_left fun col _ => ?_
    simp only [drawn, same, true_and]
  · rename_i other
    simp only [drawn, other, false_and, if_false]

theorem cells_getElem? (height width : Nat) (cell : Nat → Nat → CellEntry) (row col : Nat) :
    ((cells height width cell)[row]?.bind fun cells => cells[col]?).isSome ↔ row < height ∧ col < width := by
  rw [cells, List.getElem?_map]
  rcases Nat.lt_or_ge row height with inRow | outside
  · rw [List.getElem?_range inRow, Option.map_some, Option.bind_some, List.getElem?_map]
    rcases Nat.lt_or_ge col width with inCol | beside
    · simp [inRow, inCol]
    · simp [Nat.not_lt.mpr beside]
  · simp [Nat.not_lt.mpr outside]

/-- The state with a table as its last shape. -/
def withTable (s : State) (entry : ShapeEntry) (widths : List Float32) (rows : List (List CellEntry)) :
    State := s.adding { entry with body := .table widths rows }

variable {s t : State} {entry : ShapeEntry} {widths : List Float32} {height width : Nat}
  {cell : Nat → Nat → CellEntry}

/-- A stroke is accepted in the cells that were declared. -/
theorem gives_stroke {k : Stroke} :
    Gives (tell sink (k.call s.shapes.size)) (s.withTable entry widths (cells height width cell)) () t ↔
      (k.row < height ∧ k.col < width) ∧
        t = s.withTable entry widths (cells height width (drawn cell k)) := by
  have noGroup : ∀ slide members, k.call s.shapes.size ≠ .group slide members := by
    intro slide members same
    rcases k with ⟨row, col, (_ | _) | _ | _⟩ <;> cases same
  have change : (s.withTable entry widths (cells height width cell)).change (k.call s.shapes.size) =
      (s.withTable entry widths (cells height width cell)).changeCell s.shapes.size k.row k.col
        fun c => k.ink.draw c := by
    rcases k with ⟨row, col, (_ | _) | _ | _⟩ <;> rfl
  rw [gives_tell_change noGroup, change, changeCell, withTable, changeBody_adding]
  dsimp only
  rw [modify_cells]
  have inside := cells_getElem? height width cell k.row k.col
  cases found : (cells height width cell)[k.row]?.bind fun cells => cells[k.col]? with
  | none =>
    rw [found] at inside
    have outside : ¬(k.row < height ∧ k.col < width) := fun within => nomatch inside.mpr within
    simp [Except.map, outside]
  | some c =>
    rw [found] at inside
    have within := inside.mp rfl
    simp [Except.map, within, withTable, eq_comm]

/-- A table is accepted when all its strokes lie in the cells that were declared, and then each of its cells holds
the strokes at its place. -/
theorem gives_drawAll {strokes : List Stroke} :
    Gives (drawAll sink s.shapes.size strokes) (s.withTable entry widths (cells height width cell)) () t ↔
      (∀ k ∈ strokes, k.row < height ∧ k.col < width) ∧
        t = s.withTable entry widths (cells height width (strokes.foldl drawn cell)) := by
  unfold drawAll
  induction strokes generalizing cell with
  | nil => simp [gives_forEach_nil, eq_comm]
  | cons k rest ih =>
    simp only [gives_forEach_cons, gives_stroke, List.forall_mem_cons, List.foldl_cons]
    constructor
    · rintro ⟨_, ⟨here, rfl⟩, later⟩
      obtain ⟨inside, same⟩ := ih.mp later
      exact ⟨⟨here, inside⟩, same⟩
    · rintro ⟨⟨here, inside⟩, same⟩
      exact ⟨_, ⟨here, rfl⟩, ih.mpr ⟨inside, same⟩⟩

theorem gives_widths (s : State) (entry : ShapeEntry) (rows : List (List CellEntry)) (columns : List Column)
    (before : List Float32) :
    Gives (forEach (fun (column, col) => tell sink (.columnWidth s.shapes.size col column.width))
        (columns.zipIdx before.length))
      (s.withTable entry (before ++ List.replicate columns.length 0.0) rows) ()
      (s.withTable entry (before ++ columns.map Column.width) rows) := by
  induction columns generalizing before with
  | nil => exact gives_forEach_nil.mpr rfl
  | cons column rest ih =>
    have later := ih (before ++ [column.width])
    rw [List.length_append, List.append_assoc, List.append_assoc] at later
    have changed : (s.withTable entry (before ++ List.replicate (rest.length + 1) 0.0) rows).setWidth
        s.shapes.size before.length column.width =
          .ok (none, s.withTable entry (before ++ column.width :: List.replicate rest.length 0.0) rows) := by
      rw [setWidth, withTable, changeBody_adding]
      simp [Except.map, withTable, List.replicate_succ]
    exact gives_forEach_cons.mpr ⟨_, (gives_tell_change (by simp)).mpr ⟨none, changed⟩, later⟩

/-- A shape is made on a slide that exists, and gets the next handle. -/
theorem gives_handle_addShape {call : Call} {slide id : Nat} {bounds : Rect} {hidden : Bool} {body : ShapeBody}
    (noGroup : ∀ slide members, call ≠ .group slide members)
    (change : s.change call = s.addShape slide bounds hidden body) :
    Gives (handle sink call) s id t ↔
      slide < s.slides.size ∧ id = s.shapes.size ∧ t = s.adding ⟨slide, bounds, hidden, body, false⟩ := by
  simp only [gives_handle, sink_change noGroup, change, addShape_ok]
  constructor
  · rintro ⟨_, ⟨known, rfl, rfl⟩, rfl⟩
    exact ⟨known, rfl, rfl⟩
  · rintro ⟨known, rfl, rfl⟩
    exact ⟨_, ⟨known, rfl, rfl⟩, rfl⟩

/-- A text is accepted on a slide that exists. -/
theorem gives_text {slide id : Nat} {bounds : Rect} {hidden : Bool} {b : TextBody} :
    Gives (do
        let shape ← handle sink (.text slide bounds hidden)
        b.emit sink shape
        return shape) s id t ↔
      slide < s.slides.size ∧ id = s.shapes.size ∧
        t = s.adding ⟨slide, bounds, hidden, .text (b.paragraphs.map .whole), false⟩ := by
  have made {id : Nat} {t : State} : Gives (handle sink (.text slide bounds hidden)) s id t ↔ _ :=
    gives_handle_addShape (by simp) (rfl : s.change (.text slide bounds hidden) = _)
  have written := gives_writing s ⟨slide, bounds, hidden, .text [], false⟩ [] b.writing
  rw [writing_paragraphs, List.nil_append] at written
  simp only [TextBody.emit_eq]
  constructor
  · intro given
    obtain ⟨_, _, start, rest⟩ := gives_bind.mp given
    obtain ⟨known, rfl, rfl⟩ := made.mp start
    obtain ⟨_, _, texts, last⟩ := gives_bind.mp rest
    obtain ⟨_, rfl⟩ := written.unique texts
    obtain ⟨rfl, rfl⟩ := gives_pure.mp last
    exact ⟨known, rfl, rfl⟩
  · rintro ⟨known, rfl, rfl⟩
    exact gives_bind.mpr ⟨_, _, made.mpr ⟨known, rfl, rfl⟩,
      gives_bind.mpr ⟨(), _, written, gives_pure.mpr ⟨rfl, rfl⟩⟩⟩

theorem replicate_cells (height width : Nat) :
    List.replicate height (List.replicate width CellEntry.empty) =
      cells height width fun _ _ => .empty := by
  simp [cells, List.map_const']

theorem take_cells {count : Nat} (few : count ≤ height) :
    (cells height width cell).take count = cells count width cell := by
  rw [cells, ← List.map_take, List.take_range, Nat.min_eq_left few, cells]

end State

end Markup

namespace Grid

/-- All strokes lie in the cells that were declared. -/
def InRange (g : Grid) : Prop := ∀ k ∈ g.strokes, k.row < g.declaredRows ∧ k.col < g.columns.length

/-- A cell after all strokes at its place. -/
def drawnCell (g : Grid) : Nat → Nat → Markup.CellEntry :=
  g.strokes.foldl Markup.State.drawn fun _ _ => .empty

/-- The widths of the columns and the cells of the rows that are kept. -/
def drawnBody (g : Grid) : Markup.ShapeBody :=
  .table (g.columns.map Column.width) (Markup.State.cells g.rowCount g.columns.length g.drawnCell)

/-- What is written in a cell, among other strokes. -/
def writingAt (row col : Nat) (strokes : List Stroke) : List Writing :=
  strokes.filterMap fun k => if row = k.row ∧ col = k.col then k.ink.writing? else none

open Markup State

theorem foldl_drawn_paragraphs (strokes : List Stroke) (cell : Nat → Nat → CellEntry) (row col : Nat) :
    (strokes.foldl drawn cell row col).paragraphs =
      (writingAt row col strokes).foldl Writing.write (cell row col).paragraphs := by
  induction strokes generalizing cell with
  | nil => rfl
  | cons k rest ih =>
    rw [List.foldl_cons, ih, writingAt, writingAt]
    by_cases here : row = k.row ∧ col = k.col
    · rcases k with ⟨_, _, w | _ | _⟩ <;> simp [drawn, here, Ink.writing?, Ink.draw, setBorder]
    · simp [drawn, here]

theorem writingAt_append (row col : Nat) (strokes more : List Stroke) :
    writingAt row col (strokes ++ more) = writingAt row col strokes ++ writingAt row col more :=
  List.filterMap_append

theorem writingAt_flatMap {α : Type} (row col : Nat) (f : α → List Stroke) (xs : List α) :
    writingAt row col (xs.flatMap f) = xs.flatMap fun x => writingAt row col (f x) :=
  List.filterMap_flatMap

theorem writingAt_eq_nil {row col : Nat} {strokes : List Stroke}
    (unwritten : ∀ k ∈ strokes, row = k.row → col = k.col → k.ink.writing? = none) :
    writingAt row col strokes = [] := by
  refine List.filterMap_eq_nil_iff.mpr fun k inside => ?_
  split
  · rename_i here
    exact unwritten k inside here.1 here.2
  · rfl

/-- Of entries with their numbers, only the one at `i` counts. -/
theorem flatMap_zipIdx {α β : Type} {f : α × Nat → List β} {xs : List α} {i : Nat} {x : α}
    (atI : xs[i]? = some x) (others : ∀ y j, j ≠ i → f (y, j) = []) : xs.zipIdx.flatMap f = f (x, i) := by
  obtain ⟨inside, rfl⟩ := List.getElem?_eq_some_iff.mp atI
  have split : xs = xs.take i ++ xs[i] :: xs.drop (i + 1) := by simp
  have nothing {ys : List α} {first : Nat} (away : ∀ p ∈ ys.zipIdx first, p.2 ≠ i) :
      (ys.zipIdx first).flatMap f = [] :=
    List.flatMap_eq_nil_iff.mpr fun p atP => others p.1 p.2 (away p atP)
  have length : (xs.take i).length = i := by rw [List.length_take]; omega
  conv_lhs => rw [split]
  rw [List.zipIdx_append, List.flatMap_append, List.zipIdx_cons, List.flatMap_cons, length, Nat.zero_add,
    nothing, nothing, List.nil_append, List.append_nil]
  · intro p atP same
    have := List.le_snd_of_mem_zipIdx atP
    omega
  · intro p atP same
    have := List.snd_lt_of_mem_zipIdx atP
    omega

/-- The strokes of a text write it into its cell. -/
theorem writingAt_bodyStrokes (row col : Nat) (b : TextBody) :
    writingAt row col (bodyStrokes row col b) = b.writing := by
  rw [writingAt, bodyStrokes, List.filterMap_map]
  simp [Function.comp_def, Ink.writing?]

/-- Of a row, the cell writes its own text unless it is covered. -/
theorem writingAt_rowStrokes {g : Grid} {row col : Nat} {cells : List Cell} {cell : Cell}
    (atCol : cells[col]? = some cell) :
    writingAt row col (g.rowStrokes row cells) = if g.isCovered row col then [] else cell.body.writing := by
  rw [rowStrokes, writingAt_flatMap, flatMap_zipIdx atCol]
  · dsimp only
    split
    · rfl
    · rw [cellStrokes, writingAt_append, writingAt_bodyStrokes, writingAt_eq_nil, List.append_nil]
      simp [Ink.writing?]
  · intro other j away
    dsimp only
    split
    · rfl
    · refine writingAt_eq_nil fun k inside _ atCol => ?_
      rcases List.mem_append.mp inside with body | sides
      · obtain ⟨w, _, rfl⟩ := List.mem_map.mp body
        exact absurd atCol.symm away
      · simp only [List.mem_cons, List.not_mem_nil, or_false] at sides
        rcases sides with rfl | rfl <;> rfl

/-- A cell holds its own paragraphs, unless a merge covers it; lines and merges write nothing. -/
theorem drawnCell_paragraphs {g : Grid} {row col : Nat} {cells : List Cell} {cell : Cell}
    (atRow : g.rows[row]? = some cells) (atCol : cells[col]? = some cell) :
    (g.drawnCell row col).paragraphs =
      if g.isCovered row col then [] else cell.body.paragraphs.map .whole := by
  have texts : writingAt row col g.textStrokes = if g.isCovered row col then [] else cell.body.writing := by
    rw [textStrokes, writingAt_flatMap, flatMap_zipIdx atRow, writingAt_rowStrokes atCol]
    exact fun other j away => writingAt_eq_nil fun k inside here =>
      absurd (here.trans (mem_rowStrokes inside).1).symm away
  have lines : writingAt row col g.lineStrokes = [] := by
    refine writingAt_eq_nil fun k inside _ _ => ?_
    obtain ⟨_, ⟨side, ink⟩, _⟩ := mem_lineStrokes inside
    rw [ink]
    rfl
  have merges : writingAt row col g.mergeStrokes = [] := by
    refine writingAt_eq_nil fun k inside _ _ => ?_
    obtain ⟨_, _, rfl⟩ := mem_mergeStrokes inside
    rfl
  rw [drawnCell, foldl_drawn_paragraphs, strokes, writingAt_append, writingAt_append, texts, lines, merges,
    List.append_nil, List.append_nil]
  split
  · rfl
  · exact writing_paragraphs [] cell.body

/-- The rows after the kept ones are cut away. -/
theorem gives_cut {g : Grid} (s : State) (entry : ShapeEntry) (kept : g.rowCount ≤ g.declaredRows) :
    Gives (do
        if g.rowCount < g.declaredRows then tell sink (.keepRows s.shapes.size g.rowCount)
        return s.shapes.size)
      (s.withTable entry (g.columns.map Column.width) (cells g.declaredRows g.columns.length g.drawnCell))
      s.shapes.size (s.adding { entry with body := g.drawnBody }) := by
  split
  · have changed : (s.withTable entry (g.columns.map Column.width)
        (cells g.declaredRows g.columns.length g.drawnCell)).keepRows s.shapes.size g.rowCount =
          .ok (none, s.adding { entry with body := g.drawnBody }) := by
      rw [State.keepRows, withTable, changeBody_adding]
      simp only [Except.map, take_cells kept, drawnBody]
    exact gives_bind.mpr ⟨(), _, (gives_tell_change (by simp)).mpr ⟨none, changed⟩, gives_pure.mpr ⟨rfl, rfl⟩⟩
  · have same : g.rowCount = g.declaredRows := by omega
    exact gives_pure.mpr ⟨rfl, by rw [drawnBody, same, withTable]⟩

/-- Up to the cut, a table is accepted on a slide that exists when its strokes are in range. -/
theorem gives_emit_cut {g : Grid} {s t : State} {slide id : Nat} {bounds : Rect} {hidden : Bool} :
    Gives (g.emit sink slide bounds hidden) s id t ↔
      slide < s.slides.size ∧ g.InRange ∧ Gives (do
          if g.rowCount < g.declaredRows then tell sink (.keepRows s.shapes.size g.rowCount)
          return s.shapes.size)
        (s.withTable ⟨slide, bounds, hidden, .text [], false⟩ (g.columns.map Column.width)
          (cells g.declaredRows g.columns.length g.drawnCell)) id t := by
  let entry : ShapeEntry := ⟨slide, bounds, hidden, .text [], false⟩
  let call : Call := .table slide g.declaredRows g.columns.length bounds hidden
  have made {id : Nat} {t : State} : Gives (handle sink call) s id t ↔ _ :=
    gives_handle_addShape (by simp [call]) (rfl : s.change call = _)
  have widths := gives_widths s entry (cells g.declaredRows g.columns.length fun _ _ => .empty) g.columns []
  rw [replicate_cells] at made
  rw [emit_eq, gives_bind]
  constructor
  · rintro ⟨_, _, start, rest⟩
    obtain ⟨known, rfl, rfl⟩ := made.mp start
    obtain ⟨_, _, wide, rest⟩ := gives_bind.mp rest
    obtain ⟨_, rfl⟩ := widths.unique wide
    obtain ⟨_, _, strokes, rest⟩ := gives_bind.mp rest
    obtain ⟨inRange, rfl⟩ := gives_drawAll.mp strokes
    exact ⟨known, inRange, rest⟩
  · rintro ⟨known, inRange, rest⟩
    exact ⟨_, _, made.mpr ⟨known, rfl, rfl⟩, gives_bind.mpr ⟨_, _, widths,
      gives_bind.mpr ⟨_, _, gives_drawAll.mpr ⟨inRange, rfl⟩, rest⟩⟩⟩

/-- A table is accepted on a slide that exists when its strokes are in range. -/
theorem gives_emit {g : Grid} {s t : State} {slide id : Nat} {bounds : Rect} {hidden : Bool}
    (kept : g.rowCount ≤ g.declaredRows) :
    Gives (g.emit sink slide bounds hidden) s id t ↔
      slide < s.slides.size ∧ g.InRange ∧ id = s.shapes.size ∧
        t = s.adding ⟨slide, bounds, hidden, g.drawnBody, false⟩ := by
  have cut := gives_cut s ⟨slide, bounds, hidden, .text [], false⟩ kept
  rw [gives_emit_cut]
  constructor
  · rintro ⟨known, inRange, rest⟩
    obtain ⟨rfl, rfl⟩ := cut.unique rest
    exact ⟨known, inRange, rfl, rfl⟩
  · rintro ⟨known, inRange, rfl, rfl⟩
    exact ⟨known, inRange, cut⟩

end Grid

end Unveil
