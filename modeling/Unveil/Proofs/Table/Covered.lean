import Mathlib.Data.List.Basic
import Unveil.Proofs.Output.Logged
import Unveil.Proofs.Table.Intact
import Unveil.Proofs.Table.Places

namespace Unveil

namespace TableWalk

/-- A walk that has written in the given places and nowhere else. -/
structure Written (t : TableWalk) (size : Float32) (done : List Place) : Prop where
  merges : t.grid.merges = (done.filter (1 < ·.span)).map Place.merge
  blank : ∀ row col cell, (∀ p ∈ done, p.row = row → p.col ≠ col) → t.grid.cell? row col = some cell →
    cell.body = .ofSize size

variable {t u : TableWalk} {size : Float32} {done : List Place} {rules : InlineRules} {mode : Mode}

/-- A cell that is one of the places may be written again. -/
theorem Written.writeCell (written : t.Written size done) {p : Place} (here : p ∈ done)
    (row : p.row = t.cursor.row) (nodes : List Node) :
    (t.writeCell rules mode p.col nodes).2.Written size done := by
  unfold TableWalk.writeCell
  split
  · exact written
  · refine ⟨written.merges, fun r c cell apart atCell => ?_⟩
    dsimp only at atCell
    rw [Grid.cell?_mapCell] at atCell
    split at atCell
    · rename_i same
      exact absurd same.2 (apart p here (row.trans same.1))
    · exact written.blank r c cell apart atCell

/-- A place of one cell merges nothing. -/
theorem Written.concat (written : t.Written size done) (row col : Nat) :
    t.Written size (done ++ [⟨row, col, 1⟩]) where
  merges := by
    rw [List.filter_append, List.filter_cons_of_neg (by simp), List.filter_nil, List.append_nil]
    exact written.merges
  blank r c cell apart := written.blank r c cell fun p before => apart p (List.mem_append_left _ before)

theorem Written.spanCell {n : Node} {col lastCol : Nat} (written : t.Written size done)
    (spanned : t.spanCell n col lastCol = .ok u) :
    u.Written size (done ++ [⟨t.cursor.row, col, min (max n.columnSpan 1) (lastCol - col + 1)⟩]) := by
  obtain ⟨column, borders, _, rfl⟩ := spanCell_ok spanned
  have blank (r c : Nat) (cell : Cell)
      (apart : ∀ p ∈ done ++ [⟨t.cursor.row, col, min (max n.columnSpan 1) (lastCol - col + 1)⟩], p.row = r → p.col ≠ c)
      (atCell : (t.grid.mapCell t.cursor.row col fun cell =>
        { cell with align := some column.align, borders }).cell? r c = some cell) : cell.body = .ofSize size := by
    obtain ⟨before, here⟩ := List.forall_mem_append.mp apart
    rw [Grid.cell?_mapCell, if_neg fun same => List.forall_mem_singleton.mp here same.1 same.2] at atCell
    exact written.blank r c cell before atCell
  refine ⟨?_, fun r c cell apart atCell => ?_⟩
  · rw [List.filter_append, List.map_append, ← written.merges]
    dsimp only
    split
    · rename_i several
      rw [List.filter_cons_of_pos (by simpa using several)]
      rfl
    · rename_i one
      rw [List.filter_cons_of_neg (by simpa using one)]
      exact (List.append_nil _).symm
  · dsimp only at atCell
    split at atCell <;> exact blank r c cell apart atCell

/-- A pause leaves its cell as it is. -/
theorem Written.writePause {n : Node} {col : Nat} (written : t.Written size done) (kind : n.kind = .pause) :
    (t.writeCell rules mode col [n]).2.Written size done := by
  rcases n with ⟨_, overlay, params, payload, children⟩
  cases kind
  unfold TableWalk.writeCell
  split
  · exact written
  · rename_i cell atCol
    have paused : (Inline.visitAll rules { t.text with body := cell.body } mode
        [⟨.pause, overlay, params, payload, children⟩]).2.body = cell.body := by
      rw [Inline.visitAll_singleton]
      rfl
    refine ⟨written.merges, fun r c other apart atOther => ?_⟩
    dsimp only at atOther
    rw [paused, Grid.cell?_mapCell] at atOther
    split at atOther
    · rename_i same
      rw [same.1, same.2] at atCol
      rw [atCol] at atOther
      cases Option.some.inj atOther
      exact written.blank r c cell apart atCol
    · exact written.blank r c other apart atOther

theorem Written.of_same (written : t.Written size done) (rows : u.grid.rows = t.grid.rows)
    (merges : u.grid.merges = t.grid.merges) : u.Written size done where
  merges := merges.trans written.merges
  blank r c cell apart atCell := written.blank r c cell apart (by rwa [Grid.cell?, rows] at atCell)

theorem writeCell_place (t : TableWalk) (rules : InlineRules) (mode : Mode) (col : Nat) (nodes : List Node) :
    (t.writeCell rules mode col nodes).2.cursor.row = t.cursor.row ∧
      (t.writeCell rules mode col nodes).2.col = t.col := by
  unfold TableWalk.writeCell
  split <;> exact ⟨rfl, rfl⟩

/-- A step writes in the places of its child, and the next child is met behind them. -/
theorem Written.step {lastCol : Nat} {n : Node} {flow : Flow} (written : t.Written size done)
    (stepped : t.step rules mode lastCol n = .ok (flow, u)) :
    ∃ here, u.Written size (done ++ here) ∧
      ∀ rest, places lastCol t.cursor.row t.col (n :: rest) = here ++ places lastCol u.cursor.row u.col rest := by
  have still : t.Written size (done ++ []) := (List.append_nil done).symm ▸ written
  cases step_cases stepped with
  | column kind => exact ⟨[], still.of_same rfl rfl, fun rest => by simp only [places, kind, List.nil_append]⟩
  | row kind => exact ⟨[], still.of_same rfl rfl, fun rest => by simp only [places, kind, List.nil_append, nextRow]⟩
  | line kind => exact ⟨[], still.of_same rfl rfl, fun rest => by simp only [places, kind, List.nil_append]⟩
  | partialLine kind => exact ⟨[], still.of_same rfl rfl, fun rest => by simp only [places, kind, List.nil_append]⟩
  | noLine kind => exact ⟨[], still, fun rest => by simp only [places, kind, List.nil_append]⟩
  | span kind before spanned =>
    have after := written.spanCell spanned
    obtain ⟨row, col⟩ := writeCell_place before rules mode (min t.col lastCol) [n]
    obtain ⟨_, _, _, rfl⟩ := spanCell_ok spanned
    refine ⟨_, after.writeCell (List.mem_append_right done (.head _)) rfl [n], fun rest => ?_⟩
    rw [row, col]
    simp only [places, kind, List.singleton_append]
  | cell noRuling noSpan =>
    obtain ⟨row, col⟩ := writeCell_place t rules mode (min t.col lastCol) [n]
    by_cases kind : n.kind = .pause
    · refine ⟨[], still.writePause kind, fun rest => ?_⟩
      rw [row, col]
      simp only [places, kind, List.nil_append]
    · have after := written.concat t.cursor.row (min t.col lastCol)
      refine ⟨_, after.writeCell (List.mem_append_right done (.head _)) rfl [n], fun rest => ?_⟩
      rw [row, col, places_cell noRuling noSpan kind, List.singleton_append]

/-- A walk that is cut off has written in the first places. -/
theorem Written.steps {lastCol : Nat} {nodes : List Node} {flow : Flow} (written : t.Written size done)
    (ran : t.steps rules mode lastCol nodes = .ok (flow, u)) :
    ∃ reached, reached <+: places lastCol t.cursor.row t.col nodes ∧ u.Written size (done ++ reached) := by
  induction nodes generalizing t done with
  | nil =>
    cases ran
    exact ⟨[], List.nil_prefix, (List.append_nil done).symm ▸ written⟩
  | cons n rest ih =>
    rcases steps_cons ran with ⟨v, stepped, ran⟩ | ⟨stepped, rfl⟩
    · obtain ⟨here, after, met⟩ := written.step stepped
      obtain ⟨reached, early, ended⟩ := ih after ran
      rw [met rest]
      exact ⟨here ++ reached, (List.prefix_append_right_inj here).mpr early, List.append_assoc _ _ _ ▸ ended⟩
    · obtain ⟨here, after, met⟩ := written.step stepped
      rw [met rest]
      exact ⟨here, List.prefix_append _ _, after⟩

theorem start_written (n : Node) (plan : ColumnPlan) (c : Context) (tracker : Tracker) (faces : FaceStack) :
    (start n plan c tracker faces).Written faces.current.size [] where
  merges := rfl
  blank _ _ _ _ atCell := congrArg Cell.body (Grid.empty_cell? atCell)

end TableWalk

/-- A run of a cell. -/
structure CellRun where
  row : Nat
  col : Nat
  run : Run
  deriving BEq

/-- The run that a receiver is asked to write in a cell of a table. -/
def Call.cellRun? (table : Nat) : Call → Option CellRun
  | .cellRun owner row col r => if owner = table then some ⟨row, col, r⟩ else none
  | _ => none

def Stroke.run? (s : Stroke) : Option CellRun :=
  match s.ink with
  | .writing (.run r) => some ⟨s.row, s.col, r⟩
  | _ => none

theorem Stroke.call_cellRun? (table : Nat) (s : Stroke) : (s.call table).cellRun? table = s.run? := by
  rcases s with ⟨row, col, (_ | run) | _ | _⟩
  · rfl
  · exact if_pos rfl
  · rfl
  · rfl

namespace Grid

/-- Merges of a row share at most so many cells, the last ones of the merge further left. All other cells that are
covered are blank. -/
structure SharesAtMost (g : Grid) (shared : Nat) (size : Float32) : Prop where
  apart : g.merges.Pairwise fun first later => first.row = later.row → first.col + first.span ≤ later.col + shared
  blank : ∀ m ∈ g.merges, ∀ row col cell, m.covers row col = true → col + shared < m.col + m.span →
    g.cell? row col = some cell → cell.body = .ofSize size

variable {g : Grid} {shared : Nat} {size : Float32}

theorem SharesAtMost.fitColumns (shares : g.SharesAtMost shared size) : g.fitColumns.SharesAtMost shared size :=
  ⟨shares.apart, shares.blank⟩

theorem SharesAtMost.keepRows (shares : g.SharesAtMost shared size) (count : Nat) :
    (g.keepRows count).SharesAtMost shared size := by
  have fewer : (g.keepRows count).merges.Sublist g.merges := by
    unfold Grid.keepRows
    split
    · exact .refl _
    · exact List.filter_sublist
  refine ⟨shares.apart.sublist fewer, fun m inMerges row col cell covered inside atCell => ?_⟩
  rw [cell?, keepRows_rows, List.getElem?_take] at atCell
  split at atCell
  · exact shares.blank m (fewer.subset inMerges) row col cell covered inside atCell
  · cases atCell

theorem keepRows_columns (g : Grid) (count : Nat) : (g.keepRows count).columns = g.columns := by
  unfold Grid.keepRows
  split <;> rfl

/-- The runs of all cells, row by row. -/
def cellRuns (g : Grid) : List CellRun :=
  g.rows.zipIdx.flatMap fun (cells, row) => cells.zipIdx.flatMap fun (cell, col) =>
    cell.body.runs.map (CellRun.mk row col)

theorem bodyStrokes_runs (row col : Nat) (b : TextBody) :
    (bodyStrokes row col b).filterMap Stroke.run? = b.runs.map (CellRun.mk row col) := by
  have inParagraph (p : Paragraph) :
      (((Writing.paragraph p :: p.runs.map .run).map fun w => Stroke.mk row col (.writing w)).filterMap Stroke.run?) =
        p.runs.map (CellRun.mk row col) := by
    rw [List.map_cons, List.filterMap_cons_none rfl, List.map_map, List.filterMap_map]
    exact congrFun List.filterMap_eq_map p.runs
  rw [bodyStrokes, TextBody.writing, TextBody.runs, List.map_flatMap, List.filterMap_flatMap, List.map_flatMap]
  exact congrArg (b.paragraphs.flatMap ·) (funext inParagraph)

theorem cellStrokes_runs (row col : Nat) (cell : Cell) :
    (g.cellStrokes row col cell).filterMap Stroke.run? = cell.body.runs.map (CellRun.mk row col) := by
  rw [cellStrokes, List.filterMap_append, bodyStrokes_runs]
  exact List.append_nil _

/-- Passing over covered cells loses no run if these are blank. -/
theorem textStrokes_runs (blank : ∀ row col cell, g.isCovered row col = true → g.cell? row col = some cell →
    cell.body = .ofSize size) : g.textStrokes.filterMap Stroke.run? = g.cellRuns := by
  rw [textStrokes, cellRuns, List.filterMap_flatMap]
  refine List.flatMap_congr fun inRow atRow => ?_
  obtain ⟨cells, row⟩ := inRow
  dsimp only
  rw [rowStrokes, List.filterMap_flatMap]
  refine List.flatMap_congr fun inCol atCol => ?_
  obtain ⟨cell, col⟩ := inCol
  dsimp only
  split
  · rename_i covered
    have atCell : g.cell? row col = some cell := by
      rw [cell?, List.mem_zipIdx_iff_getElem?.mp atRow]
      exact List.mem_zipIdx_iff_getElem?.mp atCol
    rw [blank row col cell covered atCell]
    rfl
  · exact cellStrokes_runs row col cell

/-- Lines and merges write no runs. -/
theorem strokes_runs : g.strokes.filterMap Stroke.run? = g.textStrokes.filterMap Stroke.run? := by
  have lines : g.lineStrokes.filterMap Stroke.run? = [] := by
    refine List.filterMap_eq_nil_iff.mpr fun s inLines => ?_
    obtain ⟨_, ⟨side, ink⟩, _⟩ := mem_lineStrokes inLines
    rw [Stroke.run?, ink]
  have merges : g.mergeStrokes.filterMap Stroke.run? = [] := by
    refine List.filterMap_eq_nil_iff.mpr fun s inMerges => ?_
    obtain ⟨m, _, rfl⟩ := mem_mergeStrokes inMerges
    rfl
  rw [strokes, List.filterMap_append, List.filterMap_append, lines, merges, List.append_nil, List.append_nil]

theorem calls_runs (slide : Nat) (bounds : Rect) (hidden : Bool) (table : Nat) :
    (g.calls slide bounds hidden table).filterMap (Call.cellRun? table) = g.textStrokes.filterMap Stroke.run? := by
  have strokes : (g.strokes.map (Stroke.call table)).filterMap (Call.cellRun? table) =
      g.textStrokes.filterMap Stroke.run? := by
    rw [List.filterMap_map, ← strokes_runs]
    exact congrArg (g.strokes.filterMap ·) (funext (Stroke.call_cellRun? table))
  have widths {asked : Column × Nat → Call} (noRun : ∀ p, (asked p).cellRun? table = none) :
      (g.columns.zipIdx.map asked).filterMap (Call.cellRun? table) = [] := by
    refine List.filterMap_eq_nil_iff.mpr fun call inAsked => ?_
    obtain ⟨p, _, rfl⟩ := List.mem_map.mp inAsked
    exact noRun p
  have cut : (if g.rowCount < g.declaredRows then [Call.keepRows table g.rowCount] else []).filterMap
      (Call.cellRun? table) = [] := by
    split <;> rfl
  rw [calls, List.filterMap_cons_none rfl, List.filterMap_append, List.filterMap_append, widths fun _ => rfl,
    strokes, cut, List.nil_append, List.append_nil]

end Grid

namespace TableWalk

variable {t : TableWalk} {size : Float32} {done : List Place} {shared : Nat}

/-- What places share, the grid shares that was written in them. -/
theorem Written.sharesAtMost (written : t.Written size done) (positive : ∀ p ∈ done, 1 ≤ p.span)
    (ordered : done.Pairwise fun first later => later.Follows first)
    (share : done.Pairwise (Place.SharesAtMost shared)) : t.grid.SharesAtMost shared size where
  apart := by
    rw [written.merges, List.pairwise_map]
    refine (share.sublist List.filter_sublist).imp_of_mem fun {p q} inP _ here inRow => here inRow ?_
    simpa using (List.mem_filter.mp inP).2
  blank := by
    rw [written.merges]
    intro m inMerges row col cell covered inside atCell
    obtain ⟨p, inDone, rfl⟩ := List.mem_map.mp inMerges
    obtain ⟨before, several⟩ := List.mem_filter.mp inDone
    refine written.blank row col cell (fun q inQ inRow inCol => ?_) atCell
    obtain ⟨sameRow, right⟩ : p.row = row ∧ p.col < col := by
      simp only [Merge.covers, Place.merge, Bool.and_eq_true, beq_iff_eq] at covered
      exact ⟨covered.1.1, of_decide_eq_true covered.1.2⟩
    have apart := sharesAtMost_of_ordered positive ordered share p before q inQ (inCol ▸ right)
      (sameRow.trans inRow.symm) (by simpa using several)
    simp only [Place.merge] at inside
    omega

end TableWalk

namespace Node

/-- Of a table no more than the last cell of a merge is shared with what follows, and if its children stand apart
nothing is: its merges are disjoint, all that they cover is blank, and every receiver that takes the table gets
each run of it once. -/
theorem renderTable_handsOver {n : Node} {c : Context} {tracker : Tracker} {faces : FaceStack} {mode : Mode}
    {block : Block} (rendered : n.renderTable c tracker faces mode = .ok block) {bounds : Rect} {g : Grid}
    {hidden : Bool} (shaped : block.shape = some (.single bounds (.table g) hidden)) :
    g.SharesAtMost 1 faces.current.size ∧
      (n.StandsApart (g.columns.length - 1) →
        g.SharesAtMost 0 faces.current.size ∧
          (∀ row col cell, g.isCovered row col = true → g.cell? row col = some cell →
            cell.body = .ofSize faces.current.size) ∧
          ∀ {σ : Type} (sink : Sink σ) (slide table : Nat) (s : σ) (t : σ × List Call),
            Calls.Gives (g.emit sink.logged slide bounds hidden) (s, []) table t →
              t.2.filterMap (Call.cellRun? table) = g.cellRuns) := by
  obtain ⟨plan, flow, walk, _, nonempty, ran, rfl⟩ := renderTable_ok rendered
  obtain ⟨reached, early, written⟩ := (TableWalk.start_written n plan c _ faces).steps ran
  have wide := ((TableWalk.start_onIntact n c (mode.gate n tracker).2 faces nonempty).steps
    (TableWalk.start_fits n c (mode.gate n tracker).2 faces nonempty) ran).columns
  obtain ⟨_, _, _, same, cutOff⟩ := Grid.toShape?_eq_some shaped
  cases same
  have kept {shared : Nat} (shares : walk.grid.SharesAtMost shared faces.current.size) :
      g.SharesAtMost shared faces.current.size := by
    rcases cutOff with rfl | ⟨count, rfl⟩
    · exact shares.fitColumns
    · exact shares.fitColumns.keepRows count
  have columns : g.columns.length - 1 = (plan.toColumns c).length - 1 := by
    have fitted : walk.grid.fitColumns.columns.length = walk.grid.columns.length := by simp [Grid.fitColumns]
    rcases cutOff with rfl | ⟨count, rfl⟩
    · rw [fitted, wide, Nat.add_sub_cancel]
    · rw [Grid.keepRows_columns, fitted, wide, Nat.add_sub_cancel]
  have spans : ∀ p ∈ reached, 1 ≤ p.span := fun p inside => (TableWalk.places_behind p (early.subset inside)).1
  have ordered := TableWalk.places_ordered.sublist early.sublist
  refine ⟨kept (written.sharesAtMost spans ordered (ordered.imp TableWalk.Place.Follows.sharesAtMost_one)), ?_⟩
  intro apart
  rw [columns] at apart
  have shares := kept (written.sharesAtMost spans ordered (apart.sublist early.sublist))
  have blank (row col : Nat) (cell : Cell) (covered : g.isCovered row col = true)
      (atCell : g.cell? row col = some cell) : cell.body = .ofSize faces.current.size := by
    obtain ⟨m, inMerges, covers⟩ := List.any_eq_true.mp covered
    have inside : col + 0 < m.col + m.span := by
      simp only [Merge.covers, Bool.and_eq_true, decide_eq_true_eq] at covers
      exact covers.2
    exact shares.blank m inMerges row col cell covers inside atCell
  refine ⟨shares, blank, fun sink slide table s t given => ?_⟩
  rw [Grid.emit_logged given, List.nil_append, Grid.calls_runs, Grid.textStrokes_runs blank]

/-- A table of three columns. -/
def threeColumns (children : List Node) : Node := ⟨.tabular, .none, "lll", none, children⟩

/-- A cell over the first two columns. -/
def wideCell : Node := ⟨.multiColumn, .none, "c", some (.number 2), [.ofText "wide"]⟩

def columnEnd : Node := ⟨.tableColumn, .none, "", none, []⟩

/-- A page on which no pictures are found. -/
def plainContext : Context := ⟨.standard, fun name => .error (.imageNotFound name []), ⟨0, 0, 680, 500⟩⟩

def renderPlain (n : Node) : Except DeckError Block := n.renderTable plainContext default (.ofBase 22) .visible

/-- What a table that is rendered to a shape is like. -/
theorem renderPlain_grid {α : Type} {n : Node} {f : Grid → α} {a : α}
    (evaluated : (n.renderPlain.toOption.bind Block.shape).map (fun s => s.grids.map f) = some [a]) :
    ∃ block bounds g hidden, n.renderPlain = .ok block ∧ block.shape = some (.single bounds (.table g) hidden) ∧
      f g = a := by
  rcases rendered : n.renderPlain with error | block
  · rw [rendered] at evaluated
    cases evaluated
  · rw [rendered] at evaluated
    obtain ⟨s, shaped, only⟩ := Option.map_eq_some_iff.mp evaluated
    obtain ⟨_, _, _, _, _, _, rfl⟩ := renderTable_ok rendered
    obtain ⟨bounds, g, hidden, rfl, _⟩ := Grid.toShape?_eq_some shaped
    exact ⟨_, bounds, g, hidden, rfl, shaped, List.singleton_inj.mp only⟩

/-- With a separator behind the wide cell nothing is written under it, and all texts are handed over. -/
theorem renderTable_handsOver_apart :
    ∃ block bounds g hidden, (threeColumns [wideCell, columnEnd, .ofText "z"]).renderPlain = .ok block ∧
      block.shape = some (.single bounds (.table g) hidden) ∧ g.SharesAtMost 0 22 ∧
      g.cellRuns.map (·.run.text) = ["wide", "z"] ∧
      ∃ calls, Calls.Gives (g.emit Sink.accepting.logged 1 bounds hidden) ((), []) 0 ((), calls) ∧
        calls.filterMap (Call.cellRun? 0) = g.cellRuns := by
  obtain ⟨block, bounds, g, hidden, rendered, shaped, like⟩ : ∃ block bounds g hidden,
      (threeColumns [wideCell, columnEnd, .ofText "z"]).renderPlain = .ok block ∧
      block.shape = some (.single bounds (.table g) hidden) ∧
      (g.columns.length, g.cellRuns.map (·.run.text)) = (3, ["wide", "z"]) :=
    renderPlain_grid (by decide +kernel)
  obtain ⟨columns, texts⟩ := Prod.mk.inj like
  have apart : (threeColumns [wideCell, columnEnd, .ofText "z"]).StandsApart (g.columns.length - 1) := by
    rw [columns]
    decide +kernel
  obtain ⟨shares, _, handed⟩ := (renderTable_handsOver rendered shaped).2 apart
  have accepted := g.emit_accepting 1 bounds hidden
  exact ⟨block, bounds, g, hidden, rendered, shaped, shares, texts, _, accepted, handed _ _ _ _ _ accepted⟩

/-- Text right behind the wide cell is written under it, and is not handed over. -/
theorem renderTable_losesText :
    ∃ block bounds g hidden,
      (threeColumns [wideCell, .ofText "x", columnEnd, .ofText "z"]).renderPlain = .ok block ∧
      block.shape = some (.single bounds (.table g) hidden) ∧ g.merges = [⟨0, 0, 2⟩] ∧
      g.cellRuns.map (·.run.text) = ["wide", "x", "z"] ∧
      ∃ calls, Calls.Gives (g.emit Sink.accepting.logged 1 bounds hidden) ((), []) 0 ((), calls) ∧
        (calls.filterMap (Call.cellRun? 0)).map (·.run.text) = ["wide", "z"] := by
  obtain ⟨block, bounds, g, hidden, rendered, shaped, like⟩ : ∃ block bounds g hidden,
      (threeColumns [wideCell, .ofText "x", columnEnd, .ofText "z"]).renderPlain = .ok block ∧
      block.shape = some (.single bounds (.table g) hidden) ∧
      (g.merges, g.cellRuns.map (·.run.text), (g.textStrokes.filterMap Stroke.run?).map (·.run.text)) =
        ([⟨0, 0, 2⟩], ["wide", "x", "z"], ["wide", "z"]) :=
    renderPlain_grid (by decide +kernel)
  obtain ⟨merges, texts⟩ := Prod.mk.inj like
  obtain ⟨texts, given⟩ := Prod.mk.inj texts
  refine ⟨block, bounds, g, hidden, rendered, shaped, merges, texts, _, g.emit_accepting 1 bounds hidden, ?_⟩
  rw [Grid.calls_runs, given]

end Node

end Unveil
