import Mathlib.Control.Basic
import Unveil.Output.Emission

namespace Unveil

namespace Calls

variable {σ α β γ : Type}

theorem forEach_append (f : β → Calls σ Unit) (bs more : List β) :
    forEach f (bs ++ more) = forEach f bs >>= fun _ => forEach f more := by
  induction bs with
  | nil => rw [List.nil_append, forEach, pure_bind]
  | cons b rest ih => rw [List.cons_append, forEach, forEach, ih, bind_assoc]

theorem forEach_flatMap (f : γ → Calls σ Unit) (g : β → List γ) (bs : List β) :
    forEach f (bs.flatMap g) = forEach (fun b => forEach f (g b)) bs := by
  induction bs with
  | nil => rfl
  | cons b rest ih => rw [List.flatMap_cons, forEach_append, forEach, ih]

theorem forEach_map (f : γ → Calls σ Unit) (g : β → γ) (bs : List β) :
    forEach f (bs.map g) = forEach (fun b => f (g b)) bs := by
  induction bs with
  | nil => rfl
  | cons b rest ih => rw [List.map_cons, forEach, forEach, ih]

end Calls

open Calls

/-- What is written at the end of a text. -/
inductive Writing where
  | paragraph (p : Paragraph)
  | run (r : Run)

namespace Writing

/-- How a receiver is asked to write in a text. -/
def call (shape : Nat) : Writing → Call
  | paragraph p => .paragraph shape p
  | run r => .run shape r

/-- How a receiver is asked to write in a cell. -/
def cellCall (table row col : Nat) : Writing → Call
  | paragraph p => .cellParagraph table row col p
  | run r => .cellRun table row col r

end Writing

def TextBody.writing (b : TextBody) : List Writing :=
  b.paragraphs.flatMap fun p => .paragraph p :: p.runs.map .run

/-- A text is handed over by writing its paragraphs and runs one after the other. -/
theorem TextBody.emit_eq {σ : Type} (sink : Sink σ) (shape : Nat) (b : TextBody) :
    b.emit sink shape = forEach (fun w => tell sink (w.call shape)) b.writing := by
  rw [TextBody.writing, forEach_flatMap]
  simp only [forEach, forEach_map]
  rfl

/-- What is put into a cell. -/
inductive Ink where
  | writing (w : Writing)
  | border (side : CellSide) (visible : Bool)
  | span (count : Nat)

structure Stroke where
  row : Nat
  col : Nat
  ink : Ink

/-- How a receiver is asked for a stroke in a table. -/
def Stroke.call (table : Nat) (s : Stroke) : Call :=
  match s.ink with
  | .writing w => w.cellCall table s.row s.col
  | .border side visible => .border table s.row s.col side visible
  | .span count => .merge table s.row s.col count

def drawAll {σ : Type} (sink : Sink σ) (table : Nat) (strokes : List Stroke) : Calls σ Unit :=
  forEach (fun s => tell sink (s.call table)) strokes

namespace Grid

def bodyStrokes (row col : Nat) (b : TextBody) : List Stroke := b.writing.map fun w => ⟨row, col, .writing w⟩

def spanAt (g : Grid) (row col : Nat) : Nat := ((g.mergeAt? row col).map Merge.span).getD 1

def cellStrokes (g : Grid) (row col : Nat) (cell : Cell) : List Stroke :=
  bodyStrokes row col cell.body ++
    [⟨row, col, .border .left (g.showsLine cell.borders.left col)⟩,
      ⟨row, col + g.spanAt row col - 1,
        .border .right (g.showsLine cell.borders.right (col + g.spanAt row col))⟩]

def rowStrokes (g : Grid) (row : Nat) (cells : List Cell) : List Stroke :=
  cells.zipIdx.flatMap fun (cell, col) => if g.isCovered row col then [] else g.cellStrokes row col cell

def edgeStrokes (g : Grid) (line : Nat) (cols : List Nat) : List Stroke :=
  cols.map fun col => ⟨(g.edge line).1, col, .border (g.edge line).2 true⟩

def lineStrokes (g : Grid) : List Stroke :=
  if g.rowCount = 0 then []
  else
    g.horizontals.flatMap (fun line => g.edgeStrokes line (List.range g.columns.length)) ++
      g.partials.flatMap fun l => g.edgeStrokes l.row (g.lineColumns l)

def mergeStrokes (g : Grid) : List Stroke := g.merges.map fun m => ⟨m.row, m.col, .span m.span⟩

def textStrokes (g : Grid) : List Stroke := g.rows.zipIdx.flatMap fun (cells, row) => g.rowStrokes row cells

/-- Everything that is put into the cells of a table, in the order in which it is asked for. The list does not
depend on the receiver, nor on how many rows were declared. -/
def strokes (g : Grid) : List Stroke := g.textStrokes ++ g.lineStrokes ++ g.mergeStrokes

/-- The columns in which a cell is drawn: its own, and the last one of its span. -/
theorem mem_rowStrokes {g : Grid} {row : Nat} {cells : List Cell} {k : Stroke}
    (inside : k ∈ g.rowStrokes row cells) :
    k.row = row ∧ ∃ col < cells.length, k.col = col ∨ k.col = col + g.spanAt row col - 1 := by
  obtain ⟨⟨cell, col⟩, atCell, inCell⟩ := List.mem_flatMap.mp inside
  have bound : col < cells.length := by simpa using List.snd_lt_of_mem_zipIdx atCell
  dsimp only at inCell
  split at inCell
  · cases inCell
  · rcases List.mem_append.mp inCell with body | sides
    · obtain ⟨w, _, rfl⟩ := List.mem_map.mp body
      exact ⟨rfl, col, bound, .inl rfl⟩
    · simp only [List.mem_cons, List.not_mem_nil, or_false] at sides
      rcases sides with rfl | rfl
      · exact ⟨rfl, col, bound, .inl rfl⟩
      · exact ⟨rfl, col, bound, .inr rfl⟩

/-- The strokes of lines are sides that are drawn, at the edges of rows. -/
theorem mem_lineStrokes {g : Grid} {k : Stroke} (inside : k ∈ g.lineStrokes) :
    k.row < g.rowCount ∧ (∃ side, k.ink = .border side true) ∧
      (k.col < g.columns.length ∨ ∃ l ∈ g.partials, k.col ∈ g.lineColumns l) := by
  unfold lineStrokes at inside
  split at inside
  · cases inside
  · rename_i nonzero
    have edge (line : Nat) : (g.edge line).1 < g.rowCount := by
      unfold Grid.edge
      split
      · assumption
      · exact Nat.sub_lt (Nat.pos_of_ne_zero nonzero) Nat.one_pos
    rcases List.mem_append.mp inside with full | part
    · obtain ⟨line, _, atLine⟩ := List.mem_flatMap.mp full
      obtain ⟨col, inCols, rfl⟩ := List.mem_map.mp atLine
      exact ⟨edge line, ⟨_, rfl⟩, .inl (List.mem_range.mp inCols)⟩
    · obtain ⟨l, inPartials, atLine⟩ := List.mem_flatMap.mp part
      obtain ⟨col, inCols, rfl⟩ := List.mem_map.mp atLine
      exact ⟨edge l.row, ⟨_, rfl⟩, .inr ⟨l, inPartials, inCols⟩⟩

theorem mem_mergeStrokes {g : Grid} {k : Stroke} (inside : k ∈ g.mergeStrokes) :
    ∃ m ∈ g.merges, k = ⟨m.row, m.col, .span m.span⟩ := by
  obtain ⟨m, inMerges, rfl⟩ := List.mem_map.mp inside
  exact ⟨m, inMerges, rfl⟩

/-- A stroke belongs to a row of cells, to a line or to a merge. -/
theorem mem_strokes {g : Grid} {k : Stroke} (inside : k ∈ g.strokes) :
    (∃ cells, g.rows[k.row]? = some cells ∧ k ∈ g.rowStrokes k.row cells) ∨ k ∈ g.lineStrokes ∨
      k ∈ g.mergeStrokes := by
  rcases List.mem_append.mp inside with front | merges
  · rcases List.mem_append.mp front with rows | lines
    · obtain ⟨⟨cells, row⟩, atRow, inRow⟩ := List.mem_flatMap.mp rows
      obtain ⟨rfl, _⟩ := mem_rowStrokes inRow
      exact .inl ⟨cells, List.mem_zipIdx_iff_getElem?.mp atRow, inRow⟩
    · exact .inr (.inl lines)
  · exact .inr (.inr merges)

variable {σ : Type} (sink : Sink σ) (table : Nat)

theorem emitBody_eq (row col : Nat) (b : TextBody) :
    emitBody sink table row col b = drawAll sink table (bodyStrokes row col b) := by
  rw [drawAll, bodyStrokes, forEach_map, TextBody.writing, forEach_flatMap]
  simp only [forEach, forEach_map]
  rfl

theorem emitCell_eq (g : Grid) (row col : Nat) (cell : Cell) :
    emitCell sink table g row col cell = drawAll sink table (g.cellStrokes row col cell) := by
  rw [drawAll, cellStrokes, forEach_append, ← drawAll, ← emitBody_eq]
  simp only [forEach, bind_pure_unit]
  rfl

theorem emitRow_eq (g : Grid) (row : Nat) (cells : List Cell) :
    emitRow sink table g row cells = drawAll sink table (g.rowStrokes row cells) := by
  rw [drawAll, rowStrokes, forEach_flatMap, emitRow]
  congr
  funext ⟨cell, col⟩
  dsimp only
  split
  · rfl
  · exact emitCell_eq sink table g row col cell

theorem emitLine_eq (g : Grid) (line : Nat) (cols : List Nat) :
    emitLine sink table g line cols = drawAll sink table (g.edgeStrokes line cols) := by
  rw [drawAll, edgeStrokes, forEach_map]
  rfl

theorem emitLines_eq (g : Grid) : emitLines sink table g = drawAll sink table g.lineStrokes := by
  unfold emitLines lineStrokes
  split
  · rfl
  · rw [drawAll, forEach_append, forEach_flatMap, forEach_flatMap]
    simp only [emitLine_eq]
    rfl

/-- A table is made with its declared rows, drawn stroke by stroke, and cut. -/
theorem emit_eq (slide : Nat) (bounds : Rect) (hidden : Bool) (g : Grid) :
    g.emit sink slide bounds hidden = (do
      let table ← handle sink (.table slide g.declaredRows g.columns.length bounds hidden)
      forEach (fun (column, col) => tell sink (.columnWidth table col column.width)) g.columns.zipIdx
      drawAll sink table g.strokes
      if g.rowCount < g.declaredRows then tell sink (.keepRows table g.rowCount)
      return table) := by
  unfold emit
  congr
  funext table
  congr
  funext _
  have rows : (fun (cells, row) => emitRow sink table g row cells) =
      fun p : List Cell × Nat => drawAll sink table (g.rowStrokes p.2 p.1) :=
    funext fun p => emitRow_eq sink table g p.2 p.1
  rw [drawAll, strokes, forEach_append, forEach_append, textStrokes, forEach_flatMap, mergeStrokes, forEach_map,
    emitLines_eq, rows]
  simp only [bind_assoc]
  rfl

end Grid

end Unveil
