import Unveil.Proofs.Table.Description

namespace Unveil

/-- A grid whose lines and merges lie inside of it. -/
structure Grid.Intact (g : Grid) : Prop where
  shape : g.HasShape g.rowCount g.columns.length
  declared : g.rowCount ≤ g.declaredRows
  columns : 0 < g.columns.length
  horizontals : ∀ line ∈ g.horizontals, line ≤ g.rowCount
  partials : ∀ l ∈ g.partials, l.row ≤ g.rowCount ∧ l.first ≤ l.last ∧ l.last < g.columns.length
  merges : ∀ m ∈ g.merges, m.row < g.rowCount ∧ 2 ≤ m.span ∧ m.col + m.span ≤ g.columns.length

namespace Grid

variable {g : Grid}

theorem Intact.empty {columns : List Column} (positive : 0 < columns.length) (rows : Nat) (size : Float32)
    (verticals : List Nat) : { Grid.empty columns rows size with verticals }.Intact where
  shape := by
    have shape := Grid.empty_hasShape columns rows size
    exact ⟨rfl, shape.cols⟩
  declared := Nat.le_of_eq (Grid.empty_hasShape columns rows size).rows
  columns := positive
  horizontals := nofun
  partials := nofun
  merges := nofun

@[simp]
theorem mapCell_rowCount (g : Grid) (row col : Nat) (f : Cell → Cell) :
    (g.mapCell row col f).rowCount = g.rowCount := List.length_modify _ _ _

theorem Intact.mapCell (intact : g.Intact) (row col : Nat) (f : Cell → Cell) : (g.mapCell row col f).Intact where
  shape := by
    rw [mapCell_rowCount]
    exact intact.shape.mapCell row col f
  declared := by
    rw [mapCell_rowCount]
    exact intact.declared
  columns := intact.columns
  horizontals := by
    rw [mapCell_rowCount]
    exact intact.horizontals
  partials := by
    rw [mapCell_rowCount]
    exact intact.partials
  merges := by
    rw [mapCell_rowCount]
    exact intact.merges

theorem Intact.addHorizontal (intact : g.Intact) {line : Nat} (inside : line ≤ g.rowCount) :
    (g.addHorizontal line).Intact :=
  { intact with
    shape := ⟨rfl, intact.shape.cols⟩
    horizontals := fun other member => by
      rcases (Ascending.mem_insert Nat.lt_trichotomy).mp member with rfl | old
      · exact inside
      · exact intact.horizontals other old }

theorem Intact.addPartial (intact : g.Intact) {l : PartialLine}
    (inside : l.row ≤ g.rowCount ∧ l.first ≤ l.last ∧ l.last < g.columns.length) : (g.addPartial l).Intact :=
  { intact with
    shape := ⟨rfl, intact.shape.cols⟩
    partials := List.forall_mem_append.mpr ⟨intact.partials, List.forall_mem_singleton.mpr inside⟩ }

theorem Intact.addMerge (intact : g.Intact) {m : Merge}
    (inside : m.row < g.rowCount ∧ 2 ≤ m.span ∧ m.col + m.span ≤ g.columns.length) : (g.addMerge m).Intact :=
  { intact with
    shape := ⟨rfl, intact.shape.cols⟩
    merges := List.forall_mem_append.mpr ⟨intact.merges, List.forall_mem_singleton.mpr inside⟩ }

/-- What lies below the rows that are kept goes with the other rows. -/
theorem Intact.keepRows (intact : g.Intact) (count : Nat) : (g.keepRows count).Intact := by
  unfold Grid.keepRows
  split
  · exact intact
  · rename_i more
    have rows : (g.rows.take count).length = count := List.length_take_of_le (Nat.le_of_not_le more)
    refine ⟨⟨rfl, fun cells member => intact.shape.cols cells (List.mem_of_mem_take member)⟩, ?_,
      intact.columns, fun line member => ?_, fun l member => ?_, fun m member => ?_⟩
    · have declared := intact.declared
      simp only [rowCount, rows] at more declared ⊢
      omega
    · obtain ⟨_, above⟩ := List.mem_filter.mp member
      rw [rowCount, rows]
      simpa using above
    · obtain ⟨old, above⟩ := List.mem_filter.mp member
      rw [rowCount, rows]
      exact ⟨by simpa using above, (intact.partials l old).2⟩
    · obtain ⟨old, above⟩ := List.mem_filter.mp member
      rw [rowCount, rows]
      exact ⟨by simpa using above, (intact.merges m old).2⟩

theorem Intact.fitColumns (intact : g.Intact) : g.fitColumns.Intact := by
  have width : g.fitColumns.columns.length = g.columns.length := by simp [Grid.fitColumns]
  refine ⟨⟨rfl, fun cells member => ?_⟩, intact.declared, ?_, intact.horizontals, ?_, ?_⟩
  · rw [width]
    exact intact.shape.cols cells member
  · rw [width]
    exact intact.columns
  · rw [width]
    exact intact.partials
  · rw [width]
    exact intact.merges

/-- The table that comes of a grid is its own, perhaps without some rows at the end. -/
theorem toShape?_eq_some {pausedAt : Option RowCursor} {mode : Mode} {s : Shape}
    (made : g.toShape? pausedAt mode = some s) :
    ∃ bounds h hidden, s = .single bounds (.table h) hidden ∧ (h = g ∨ ∃ count, h = g.keepRows count) := by
  have cut {h : Grid} (made : (if !mode.emits || h.rowCount == 0 then none
      else some (Shape.single ⟨0.0, 0.0, h.width, h.height⟩ (.table h) mode.isHidden)) = some s) :
      ∃ bounds hidden, s = .single bounds (.table h) hidden := by
    split at made
    · cases made
    · exact ⟨_, _, (Option.some.inj made).symm⟩
  cases pausedAt with
  | none =>
    obtain ⟨bounds, hidden, rfl⟩ := cut made
    exact ⟨bounds, g, hidden, rfl, .inl rfl⟩
  | some cursor =>
    obtain ⟨bounds, hidden, rfl⟩ := cut made
    exact ⟨bounds, _, hidden, rfl, .inr ⟨_, rfl⟩⟩

end Grid

namespace Node

/-- A line that is drawn stays in the row and among the columns. -/
theorem partialLine_inside {n : Node} {row lastCol : Nat} {line : PartialLine}
    (read : n.partialLine row lastCol = .ok (some line)) :
    line.row = row ∧ line.first ≤ line.last ∧ line.last ≤ lastCol := by
  by_cases zero : n.NamesZero
  · rw [partialLine_of_namesZero zero] at read
    cases read
  · rw [partialLine_of_not zero] at read
    obtain ⟨⟨first, last⟩, _, drawn⟩ := Option.bind_eq_some_iff.mp (Except.ok.inj read)
    split at drawn
    · cases drawn
      dsimp only
      omega
    · cases drawn

end Node

namespace TableWalk

/-- A walk on an intact grid with so many columns after the first. -/
structure OnIntact (t : TableWalk) (lastCol : Nat) : Prop where
  intact : t.grid.Intact
  columns : t.grid.columns.length = lastCol + 1

theorem OnIntact.writeCell {t : TableWalk} {lastCol : Nat} (on : t.OnIntact lastCol) (rules : InlineRules)
    (mode : Mode) (col : Nat) (nodes : List Node) : (t.writeCell rules mode col nodes).2.OnIntact lastCol := by
  unfold TableWalk.writeCell
  split
  · exact on
  · exact ⟨on.intact.mapCell _ _ _, on.columns⟩

theorem Fits.row_lt {t : TableWalk} {rows lastCol : Nat} {left : List Node} (fits : t.Fits rows lastCol left) :
    t.cursor.row < t.grid.rowCount := by
  have room := fits.room
  have rows := fits.shape.rows
  rw [Grid.rowCount, rows]
  omega

/-- Whatever a step draws or merges lies inside of the grid. -/
theorem OnIntact.step {t u : TableWalk} {rules : InlineRules} {mode : Mode} {rows lastCol : Nat} {n : Node}
    {left : List Node} {flow : Flow} (on : t.OnIntact lastCol) (fits : t.Fits rows lastCol left)
    (stepped : t.step rules mode lastCol n = .ok (flow, u)) : u.OnIntact lastCol := by
  have inside := fits.row_lt
  cases step_cases stepped with
  | column | row | noLine => exact ⟨on.intact, on.columns⟩
  | line => exact ⟨on.intact.addHorizontal (Nat.le_of_lt inside), on.columns⟩
  | partialLine kind line read =>
    obtain ⟨row, order, last⟩ := Node.partialLine_inside read
    have columns := on.columns
    exact ⟨on.intact.addPartial (by omega), on.columns⟩
  | span kind before spanned =>
    obtain ⟨column, borders, _, rfl⟩ := spanCell_ok spanned
    have last : min t.col lastCol ≤ lastCol := Nat.min_le_right _ _
    have columns := on.columns
    refine OnIntact.writeCell ⟨?_, ?_⟩ rules mode _ [n]
    · dsimp only
      split
      · rename_i several
        refine (on.intact.mapCell _ _ _).addMerge ⟨?_, several, ?_⟩
        · simpa using inside
        · have width : min (max n.columnSpan 1) (lastCol - min t.col lastCol + 1) ≤
              lastCol - min t.col lastCol + 1 := Nat.min_le_right _ _
          change min t.col lastCol + min (max n.columnSpan 1) _ ≤ t.grid.columns.length
          omega
      · exact on.intact.mapCell _ _ _
    · dsimp only
      split <;> exact on.columns
  | cell => exact on.writeCell rules mode _ [n]

/-- The grid is intact wherever the walk ends. -/
theorem OnIntact.steps {t u : TableWalk} {rules : InlineRules} {mode : Mode} {rows lastCol : Nat}
    {nodes : List Node} {flow : Flow} (on : t.OnIntact lastCol) (fits : t.Fits rows lastCol nodes)
    (ran : t.steps rules mode lastCol nodes = .ok (flow, u)) : u.OnIntact lastCol := by
  induction nodes generalizing t with
  | nil =>
    cases ran
    exact on
  | cons n rest ih =>
    rcases steps_cons ran with ⟨v, stepped, ran⟩ | ⟨stepped, rfl⟩
    · exact ih (on.step fits stepped) (step_answers fits stepped).fits ran
    · exact on.step fits stepped

theorem start_onIntact (n : Node) {plan : ColumnPlan} (c : Context) (tracker : Tracker) (faces : FaceStack)
    (nonempty : plan.columns ≠ []) : (start n plan c tracker faces).OnIntact ((plan.toColumns c).length - 1) := by
  have columns := plan.toColumns_length c
  have positive : 0 < plan.columns.length := List.length_pos_iff.mpr nonempty
  refine ⟨.empty (by omega) _ _ _, ?_⟩
  change (plan.toColumns c).length = _
  omega

end TableWalk

namespace DescriptionWalk

theorem writeTerm_intact {d : DescriptionWalk} (intact : d.grid.Intact) (face : Face) (row : Nat) (term : String)
    (mode : Mode) : (d.writeTerm face row term mode).2.Intact := by
  unfold writeTerm
  split
  · exact intact.mapCell _ _ _
  · exact intact

theorem item_intact {d : DescriptionWalk} (intact : d.grid.Intact) (rules : InlineRules) (face : Face)
    (mode : Mode) (n : Node) : (d.item rules face mode n).2.grid.Intact := by
  have term := writeTerm_intact intact face d.nextRow n.params (d.text.gate n mode).1
  unfold item
  dsimp only
  split
  · exact term
  · exact term.mapCell _ _ _

theorem steps_intact {d : DescriptionWalk} (intact : d.grid.Intact) (rules : InlineRules) (face : Face)
    (mode : Mode) (nodes : List Node) : (d.steps rules face mode nodes).2.grid.Intact := by
  induction nodes generalizing d with
  | nil => exact intact
  | cons n rest ih =>
    have goes := d.steps_goes rules face mode n rest
    generalize d.steps rules face mode (n :: rest) = found at goes
    cases goes with
    | item kind ran =>
      have after := item_intact intact rules face mode n
      rw [ran] at after
      exact ih after
    | cut kind ran =>
      have after := item_intact intact rules face mode n
      rwa [ran] at after
    | pause => exact ih (d := { d with text := _ }) intact
    | stop => exact intact
    | other => exact ih intact

end DescriptionWalk

namespace Shape

mutual

/-- The tables in a shape. -/
def grids : Shape → List Grid
  | single _ (.table g) _ => [g]
  | single _ _ _ => []
  | group _ members _ => gridsAll members

def gridsAll : List Shape → List Grid
  | [] => []
  | s :: rest => grids s ++ gridsAll rest

end

/-- A shape in which all tables are intact. -/
def Intact (s : Shape) : Prop := ∀ g ∈ s.grids, g.Intact

end Shape

theorem Grid.Intact.toShape? {g : Grid} (intact : g.Intact) {pausedAt : Option RowCursor} {mode : Mode} {s : Shape}
    (made : g.toShape? pausedAt mode = some s) : s.Intact := by
  obtain ⟨bounds, h, hidden, rfl, same | ⟨count, cut⟩⟩ := Grid.toShape?_eq_some made
  · exact List.forall_mem_singleton.mpr (same ▸ intact)
  · exact List.forall_mem_singleton.mpr (cut ▸ intact.keepRows count)

/-- Blocks come out with intact tables. -/
def Block.Intact (b : Block) : Prop := ∀ s, b.shape = some s → s.Intact

namespace Node

theorem renderTable_intact {n : Node} {c : Context} {tracker : Tracker} {faces : FaceStack} {mode : Mode}
    {block : Block} (rendered : n.renderTable c tracker faces mode = .ok block) : block.Intact := by
  obtain ⟨plan, flow, walk, _, nonempty, ran, rfl⟩ := renderTable_ok rendered
  have start := TableWalk.start_onIntact n c (mode.gate n tracker).2 faces nonempty
  have fits := TableWalk.start_fits n c (mode.gate n tracker).2 faces nonempty
  exact fun s made => (start.steps fits ran).intact.fitColumns.toShape? made

theorem renderDescription_intact (n : Node) (c : Context) (tracker : Tracker) (faces : FaceStack) (mode : Mode) :
    (n.renderDescription c tracker faces mode).Intact := by
  have start : (DescriptionWalk.start n c (mode.gate n tracker).2 faces).grid.Intact :=
    .empty (by simp) _ _ _
  exact fun s made => (DescriptionWalk.steps_intact start _ _ _ _).toShape? made

end Node

end Unveil
