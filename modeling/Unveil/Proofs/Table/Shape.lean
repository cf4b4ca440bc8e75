import Unveil.Pass.Description
import Unveil.Proofs.Except

namespace Unveil

/-- Children of a table that are no cells. -/
def NodeKind.isRuling : NodeKind → Bool
  | .tableColumn | .tableRow | .hline | .cline => true
  | _ => false

/-- A grid of so many rows, each as long as the other. -/
structure Grid.HasShape (g : Grid) (rows cols : Nat) : Prop where
  rows : g.rows.length = rows
  cols : ∀ cells ∈ g.rows, cells.length = cols

theorem Grid.empty_hasShape (columns : List Column) (rows : Nat) (size : Float32) :
    (Grid.empty columns rows size).HasShape rows columns.length := by
  refine ⟨List.length_replicate, fun cells member => ?_⟩
  rw [List.eq_of_mem_replicate member, List.length_replicate]

theorem Grid.empty_cell? {columns : List Column} {rows : Nat} {size : Float32} {row col : Nat} {cell : Cell}
    (atCell : (Grid.empty columns rows size).cell? row col = some cell) : cell = .empty size := by
  obtain ⟨cells, atRow, atCol⟩ := Option.bind_eq_some_iff.mp atCell
  rw [List.eq_of_mem_replicate (List.mem_of_getElem? atRow)] at atCol
  exact List.eq_of_mem_replicate (List.mem_of_getElem? atCol)

theorem Grid.HasShape.cell?_isSome {g : Grid} {rows cols row col : Nat} (shape : g.HasShape rows cols)
    (inRow : row < rows) (inCol : col < cols) : ∃ cell, g.cell? row col = some cell := by
  have rowBound : row < g.rows.length := shape.rows ▸ inRow
  have colBound : col < g.rows[row].length := shape.cols _ (List.getElem_mem rowBound) ▸ inCol
  refine ⟨g.rows[row][col], ?_⟩
  rw [Grid.cell?, List.getElem?_eq_getElem rowBound]
  exact List.getElem?_eq_getElem colBound

theorem Grid.HasShape.mapCell {g : Grid} {rows cols : Nat} (shape : g.HasShape rows cols)
    (row col : Nat) (f : Cell → Cell) : (g.mapCell row col f).HasShape rows cols := by
  refine ⟨(List.length_modify _ _ _).trans shape.rows, fun cells member => ?_⟩
  obtain ⟨i, bound, rfl⟩ := List.mem_iff_getElem.mp member
  have inside : i < g.rows.length := by simpa [Grid.mapCell] using bound
  have old := shape.cols _ (List.getElem_mem inside)
  simp only [Grid.mapCell, List.getElem_modify]
  split
  · rw [List.length_modify, old]
  · exact old

theorem ColumnPlan.toColumns_length (p : ColumnPlan) (c : Context) :
    (p.toColumns c).length = p.columns.length := by
  simp [ColumnPlan.toColumns]

theorem difference_of_le {a b : Nat} (le : b ≤ a) : difference a b = .ok (a - b) := if_pos le

theorem difference_eq_ok_iff {a b c : Nat} : difference a b = .ok c ↔ b ≤ a ∧ a - b = c := by
  unfold difference
  split <;> simp [*]

namespace Node

variable {n : Node} {row lastCol : Nat}

/-- A partial line that names two columns, one of them column zero. -/
def NamesZero (n : Node) : Prop := ∃ named ∈ n.namedColumns?, named.1 = 0 ∨ named.2 = 0

instance : DecidablePred NamesZero := fun n =>
  inferInstanceAs (Decidable (∃ named ∈ n.namedColumns?, named.1 = 0 ∨ named.2 = 0))

/-- A line that names column zero has a column that cannot be counted from 0. -/
theorem partialLine_of_namesZero (zero : n.NamesZero) : n.partialLine row lastCol = .error .aborted := by
  obtain ⟨⟨first, last⟩, named, rfl | rfl⟩ := zero
  · rw [partialLine, named]
    rfl
  · rw [partialLine, named]
    cases first <;> rfl

/-- Any other line is read, whether it is drawn or ignored. -/
theorem partialLine_of_not (noZero : ¬n.NamesZero) :
    n.partialLine row lastCol = .ok (n.namedColumns?.bind fun named =>
      if named.1 ≤ named.2 ∧ named.1 - 1 ≤ lastCol then some ⟨row, named.1 - 1, min (named.2 - 1) lastCol⟩
      else none) := by
  rcases named : n.namedColumns? with _ | ⟨first, last⟩
  · rw [partialLine, named]
    rfl
  · have one : 1 ≤ first := Nat.pos_of_ne_zero fun zero => noZero ⟨(first, last), named, .inl zero⟩
    have other : 1 ≤ last := Nat.pos_of_ne_zero fun zero => noZero ⟨(first, last), named, .inr zero⟩
    rw [partialLine, named]
    simp [difference_of_le one, difference_of_le other, one, bind, Except.bind, pure, Except.pure]

end Node

namespace TableWalk

/-- Row separators among the children that are still to come. -/
def rowsLeft (nodes : List Node) : Nat := (nodes.filter (·.kind = .tableRow)).length

/-- A walk that has room for the rows that are still to come: a grid has as many rows as its node has separators
and one more. -/
structure Fits (t : TableWalk) (rows lastCol : Nat) (left : List Node) : Prop where
  shape : t.grid.HasShape rows (lastCol + 1)
  room : t.cursor.row + rowsLeft left < rows

/-- Every cell that is to be written exists. -/
theorem Fits.cell?_isSome {t : TableWalk} {rows lastCol col : Nat} {left : List Node}
    (fits : t.Fits rows lastCol left) (inCol : col ≤ lastCol) :
    ∃ cell, t.grid.cell? t.cursor.row col = some cell :=
  fits.shape.cell?_isSome (Nat.lt_of_le_of_lt (Nat.le_add_right _ _) fits.room)
    (Nat.lt_succ_of_le inCol)

/-- The walk after a text was written into a cell. -/
def filled (t : TableWalk) (col : Nat) (text : Inline) : TableWalk :=
  { t with
    grid := t.grid.mapCell t.cursor.row col fun cell => { cell with body := text.body }
    text := { text with emitted := false }
    cursor := { t.cursor with hasContent := t.cursor.hasContent || text.emitted } }

theorem writeCell_eq {t : TableWalk} {col : Nat} {cell : Cell} (rules : InlineRules) (mode : Mode)
    (nodes : List Node) (atCell : t.grid.cell? t.cursor.row col = some cell) :
    t.writeCell rules mode col nodes =
      ((Inline.visitAll rules { t.text with body := cell.body } mode nodes).1,
        t.filled col (Inline.visitAll rules { t.text with body := cell.body } mode nodes).2) := by
  unfold writeCell
  rw [atCell]
  rfl

theorem spanCell_ok {t u : TableWalk} {n : Node} {col lastCol : Nat}
    (spanned : t.spanCell n col lastCol = .ok u) :
    ∃ column borders, ColumnPlan.readCell n.params = .ok (column, borders) ∧
      u = { t with
        grid :=
          let grid := t.grid.mapCell t.cursor.row col fun cell =>
            { cell with align := some column.align, borders }
          if 1 < min (max n.columnSpan 1) (lastCol - col + 1) then
            grid.addMerge ⟨t.cursor.row, col, min (max n.columnSpan 1) (lastCol - col + 1)⟩
          else grid
        col := t.col + (min (max n.columnSpan 1) (lastCol - col + 1) - 1) } := by
  obtain ⟨right, counted, spanned⟩ := bind_eq_ok_iff.mp spanned
  obtain ⟨_, rfl⟩ := difference_eq_ok_iff.mp counted
  obtain ⟨found, named, spanned⟩ := bind_eq_ok_iff.mp spanned
  obtain ⟨more, counted, spanned⟩ := bind_eq_ok_iff.mp spanned
  obtain ⟨_, rfl⟩ := difference_eq_ok_iff.mp counted
  cases read : ColumnPlan.readCell n.params with
  | error fault =>
    rw [read] at named
    cases named
  | ok read =>
    rw [read] at named
    cases named
    exact ⟨found.1, found.2, rfl, (Except.ok.inj spanned).symm⟩

/-- A cell of the table takes the columns it asks for, as many as there are; none of the differences fails. -/
theorem spanCell_eq (t : TableWalk) (n : Node) {col lastCol : Nat} (inside : col ≤ lastCol) :
    t.spanCell n col lastCol = ((ColumnPlan.readCell n.params).mapError DeckError.columns).map fun found =>
      let span := min (max n.columnSpan 1) (lastCol - col + 1)
      let grid := t.grid.mapCell t.cursor.row col fun cell =>
        { cell with align := some found.1.align, borders := found.2 }
      { t with
        grid := if 1 < span then grid.addMerge ⟨t.cursor.row, col, span⟩ else grid
        col := t.col + (span - 1) } := by
  have positive : 1 ≤ min (max n.columnSpan 1) (lastCol - col + 1) :=
    Nat.le_min.mpr ⟨Nat.le_max_right _ _, Nat.le_add_left 1 _⟩
  unfold spanCell
  rw [difference_of_le inside]
  simp only [bind, Except.bind, difference_of_le positive]
  cases (ColumnPlan.readCell n.params).mapError DeckError.columns <;> rfl

theorem Fits.spanCell {t u : TableWalk} {n : Node} {rows col lastCol : Nat} {left : List Node}
    (fits : t.Fits rows lastCol left) (spanned : t.spanCell n col lastCol = .ok u) :
    u.Fits rows lastCol left ∧ u.text = t.text ∧ u.cursor = t.cursor := by
  obtain ⟨column, borders, _, rfl⟩ := spanCell_ok spanned
  refine ⟨⟨?_, fits.room⟩, rfl, rfl⟩
  have shaped := fits.shape.mapCell t.cursor.row col fun cell =>
    { cell with align := some column.align, borders }
  simp only
  split
  · exact ⟨shaped.rows, shaped.cols⟩
  · exact shaped

/-- Everything that a step over a child of a table can do. -/
inductive Stepped (t : TableWalk) (rules : InlineRules) (mode : Mode) (lastCol : Nat) (n : Node) :
    Flow → TableWalk → Prop
  | column (kind : n.kind = .tableColumn) :
    Stepped t rules mode lastCol n .completed { t with col := t.col + 1 }
  | row (kind : n.kind = .tableRow) : Stepped t rules mode lastCol n .completed t.nextRow
  | line (kind : n.kind = .hline) :
    Stepped t rules mode lastCol n .completed { t with grid := t.grid.addHorizontal t.cursor.row }
  | partialLine (kind : n.kind = .cline) (line : PartialLine)
      (read : n.partialLine t.cursor.row lastCol = .ok (some line)) :
    Stepped t rules mode lastCol n .completed { t with grid := t.grid.addPartial line }
  | noLine (kind : n.kind = .cline) (read : n.partialLine t.cursor.row lastCol = .ok none) :
    Stepped t rules mode lastCol n .completed t
  | span (kind : n.kind = .multiColumn) (before : TableWalk)
      (spanned : t.spanCell n (min t.col lastCol) lastCol = .ok before) :
    Stepped t rules mode lastCol n (before.writeCell rules mode (min t.col lastCol) [n]).1
      (before.writeCell rules mode (min t.col lastCol) [n]).2
  | cell (noRuling : n.kind.isRuling = false) (noSpan : n.kind ≠ .multiColumn) :
    Stepped t rules mode lastCol n (t.writeCell rules mode (min t.col lastCol) [n]).1
      (t.writeCell rules mode (min t.col lastCol) [n]).2

/-- A step that does not fail is one of these. -/
theorem step_cases {t u : TableWalk} {rules : InlineRules} {mode : Mode} {lastCol : Nat} {n : Node}
    {flow : Flow} (stepped : t.step rules mode lastCol n = .ok (flow, u)) :
    Stepped t rules mode lastCol n flow u := by
  have written {found : Flow × TableWalk} (eq : found = (flow, u))
      (step : Stepped t rules mode lastCol n found.1 found.2) :
      Stepped t rules mode lastCol n flow u := by
    rw [eq] at step
    exact step
  unfold step at stepped
  cases kind : n.kind <;> simp only [kind] at stepped
  case tableColumn => exact written (Except.ok.inj stepped) (.column kind)
  case tableRow => exact written (Except.ok.inj stepped) (.row kind)
  case hline => exact written (Except.ok.inj stepped) (.line kind)
  case cline =>
    obtain ⟨_ | line, read, drawn⟩ := map_eq_ok_iff.mp stepped
    · exact written drawn (.noLine kind read)
    · exact written drawn (.partialLine kind line read)
  case multiColumn =>
    cases spanned : t.spanCell n (min t.col lastCol) lastCol with
    | error error =>
      simp only [spanned] at stepped
      cases stepped
    | ok before =>
      simp only [spanned] at stepped
      exact written (Except.ok.inj stepped) (.span kind before spanned)
  all_goals
    exact written (Except.ok.inj stepped) (.cell (by simp [kind, NodeKind.isRuling]) (by simp [kind]))

/-- A walk that does not fail goes on after a completed step, or a pause in the step ends it. -/
theorem steps_cons {t u : TableWalk} {rules : InlineRules} {mode : Mode} {lastCol : Nat} {n : Node}
    {rest : List Node} {flow : Flow} (ran : t.steps rules mode lastCol (n :: rest) = .ok (flow, u)) :
    (∃ v, t.step rules mode lastCol n = .ok (.completed, v) ∧ v.steps rules mode lastCol rest = .ok (flow, u)) ∨
      t.step rules mode lastCol n = .ok (.paused, u) ∧ flow = .paused := by
  rw [steps] at ran
  rcases stepped : t.step rules mode lastCol n with error | ⟨ended, v⟩
  · rw [stepped] at ran
    cases ran
  · rw [stepped] at ran
    cases ended with
    | completed => exact .inl ⟨v, rfl, ran⟩
    | paused =>
      cases ran
      exact .inr ⟨rfl, rfl⟩

/-- The walk over a table before its first child. -/
def start (n : Node) (plan : ColumnPlan) (c : Context) (tracker : Tracker) (faces : FaceStack) :
    TableWalk :=
  ⟨{ Grid.empty (plan.toColumns c) n.rowCount faces.current.size with verticals := plan.borders },
    .ofFaces tracker faces default, ⟨0, false⟩, 0⟩

theorem start_fits (n : Node) {plan : ColumnPlan} (c : Context) (tracker : Tracker) (faces : FaceStack)
    (nonempty : plan.columns ≠ []) :
    (start n plan c tracker faces).Fits n.rowCount ((plan.toColumns c).length - 1) n.children := by
  have columns := plan.toColumns_length c
  have positive : 0 < plan.columns.length := List.length_pos_iff.mpr nonempty
  have wide : (plan.toColumns c).length - 1 + 1 = (plan.toColumns c).length := by omega
  have shape := Grid.empty_hasShape (plan.toColumns c) n.rowCount faces.current.size
  exact ⟨⟨shape.rows, wide ▸ shape.cols⟩, by simp [start, rowsLeft, Node.rowCount]⟩

end TableWalk

theorem mapError_ok {ε ε' α : Type} (f : ε → ε') (a : α) : (Except.ok a : Except ε α).mapError f = .ok a :=
  rfl

namespace Node

variable {n : Node} {c : Context} {tracker : Tracker} {faces : FaceStack} {mode : Mode} {plan : ColumnPlan}

/-- What a walk over a table leaves at its end. -/
def tableBlock (mode : Mode) (flow : Flow) (t : TableWalk) : Block :=
  ⟨t.grid.fitColumns.toShape? (if flow = .paused then some t.cursor else none) mode, flow,
    t.text.deferred, t.text.tracker⟩

/-- A table whose columns cannot be read fails. -/
theorem renderTable_unread {fault : ColumnFault} (read : ColumnPlan.read n.params = .error fault) :
    n.renderTable c tracker faces mode = .error (.columns fault) := by
  unfold renderTable
  rw [read]
  rfl

/-- A table without columns is not shown. -/
theorem renderTable_noColumns (read : ColumnPlan.read n.params = .ok plan) (bare : plan.columns = []) :
    n.renderTable c tracker faces mode = .error (.columns (.noColumns n.params)) := by
  simp only [renderTable, read, mapError_ok, bind, Except.bind, bare]
  rfl

/-- A table with columns is what the walk over its children leaves. -/
theorem renderTable_of_read (read : ColumnPlan.read n.params = .ok plan) (nonempty : plan.columns ≠ []) :
    n.renderTable c tracker faces mode =
      ((TableWalk.start n plan c (mode.gate n tracker).2 faces).steps c.cellRules (mode.gate n tracker).1
        ((plan.toColumns c).length - 1) n.children).map
          fun ended => tableBlock (mode.gate n tracker).1 ended.1 ended.2 := by
  have notEmpty : plan.columns.isEmpty = false := List.isEmpty_eq_false_iff.mpr nonempty
  have one : 1 ≤ (plan.toColumns c).length := plan.toColumns_length c ▸ List.length_pos_iff.mpr nonempty
  unfold renderTable
  simp only [read, mapError_ok, bind, Except.bind, notEmpty, difference_of_le one]
  rfl

/-- The walk that a table is rendered with. -/
theorem renderTable_ok {block : Block} (rendered : n.renderTable c tracker faces mode = .ok block) :
    ∃ plan flow walk, ColumnPlan.read n.params = .ok plan ∧ plan.columns ≠ [] ∧
      (TableWalk.start n plan c (mode.gate n tracker).2 faces).steps c.cellRules (mode.gate n tracker).1
        ((plan.toColumns c).length - 1) n.children = .ok (flow, walk) ∧
      block = ⟨walk.grid.fitColumns.toShape? (if flow = .paused then some walk.cursor else none)
        (mode.gate n tracker).1, flow, walk.text.deferred, walk.text.tracker⟩ := by
  rcases read : ColumnPlan.read n.params with fault | plan
  · rw [renderTable_unread read] at rendered
    cases rendered
  · by_cases bare : plan.columns = []
    · rw [renderTable_noColumns read bare] at rendered
      cases rendered
    · rw [renderTable_of_read read bare] at rendered
      obtain ⟨⟨flow, walk⟩, ran, made⟩ := map_eq_ok_iff.mp rendered
      exact ⟨plan, flow, walk, rfl, bare, ran, made.symm⟩

end Node

end Unveil
