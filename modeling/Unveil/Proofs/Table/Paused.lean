import Unveil.Proofs.Nested.Walks
import Unveil.Proofs.Table.Above
import Unveil.Proofs.Table.Covered
import Unveil.Proofs.Table.Events

namespace Unveil

namespace Grid

theorem keepRows_rowCount {g : Grid} {count : Nat} (inside : count ≤ g.rowCount) :
    (g.keepRows count).rowCount = count := by
  rw [rowCount, keepRows_rows, List.length_take]
  exact Nat.min_eq_left inside

/-- What is left of a grid that is cut off at a cursor. -/
theorem toShape?_cut {g : Grid} {stop : RowCursor} {mode : Mode} (shown : mode.emits = true)
    (inside : stop.keptRows ≤ g.rowCount) :
    (stop.keptRows = 0 → g.toShape? (some stop) mode = none) ∧
      (0 < stop.keptRows →
        ∃ bounds, g.toShape? (some stop) mode =
          some (.single bounds (.table (g.keepRows stop.keptRows)) mode.isHidden)) := by
  have rows := keepRows_rowCount inside
  unfold toShape?
  simp only [shown, rows, Bool.not_true, Bool.false_or, beq_iff_eq]
  refine ⟨fun rowless => if_pos rowless, fun positive => ?_⟩
  rw [if_neg (Nat.ne_of_gt positive)]
  exact ⟨_, rfl⟩

theorem toShape?_whole {g : Grid} {mode : Mode} (shown : mode.emits = true) (rows : 0 < g.rowCount) :
    ∃ bounds, g.toShape? none mode = some (.single bounds (.table g) mode.isHidden) := by
  unfold toShape?
  simp only [shown, Bool.not_true, Bool.false_or, beq_iff_eq]
  rw [if_neg (Nat.ne_of_gt rows)]
  exact ⟨_, rfl⟩

end Grid

namespace Node

/-- The events of a table or a description list, row by row. -/
def rowEvents (rules : InlineRules) (pass : Nat) (mode : Mode) (n : Node) : List (Nat × Inline.Event) :=
  if n.kind = .tabular then TableWalk.events rules pass mode 0 n.children
  else DescriptionWalk.events rules pass mode 0 n.children

/-- The rows of a table or a description list that no pause cuts off. -/
def gridRows (n : Node) : Nat := if n.kind = .tabular then n.rowCount else n.itemCount

/-- A table or description list that a pause has cut off at a cursor, its grid before the cut, and what becomes
of it where all its pauses are let through. -/
structure CutAt (n : Node) (c : Context) (tracker : Tracker) (faces : FaceStack) (mode : Mode) (block : Block)
    (stop : RowCursor) (g : Grid) : Prop where
  shape : block.shape = g.toShape? (some stop) (mode.gate n tracker).1
  stops : PausesAt (n.rowEvents c.cellRules tracker.pass (mode.gate n tracker).1) tracker.through stop
  inside : stop.keptRows ≤ g.rowCount
  rowCount : g.rowCount = n.gridRows
  declared : g.declaredRows = n.gridRows
  whole : ∀ pauses,
    tracker.reached + pausesIn (n.rowEvents c.cellRules tracker.pass (mode.gate n tracker).1) ≤ pauses →
      (n.kind = .tabular ∧ ∃ cell ∈ n.children, TableWalk.isFaulty cell = true) ∨
        ∃ whole h, n.renderBlock c (tracker.allow pauses) faces mode = .ok whole ∧ whole.flow = .completed ∧
          whole.shape = h.toShape? none (mode.gate n tracker).1 ∧ h.rowCount = n.gridRows ∧ g.SameAbove stop.row h

variable {n : Node} {c : Context} {tracker : Tracker} {faces : FaceStack} {mode : Mode} {block : Block}

section Through

variable {es : List (Nat × Inline.Event)} {pauses : Nat} {stop : RowCursor}

/-- Letting all pauses through is letting through no less. -/
theorem pauses_le_of_pausesAt (stops : PausesAt es tracker.through stop) (many : tracker.reached + pausesIn es ≤ pauses) :
    tracker.state.pauses ≤ pauses := by
  have fewer := stops.lt_pausesIn
  rw [Tracker.through] at fewer
  omega

/-- Where all pauses are let through, none stops the walk. -/
theorem not_pausesAt_of_allow (many : tracker.reached + pausesIn es ≤ pauses) :
    ¬PausesAt es (tracker.allow pauses).through stop := by
  intro stops
  have fewer := stops.lt_pausesIn
  simp only [Tracker.through, Tracker.allow] at fewer
  omega

end Through

theorem renderBlock_tabular (kind : n.kind = .tabular) :
    n.renderBlock c tracker faces mode = n.renderTable c tracker faces mode := by
  unfold renderBlock
  simp only [kind]

theorem renderBlock_description (kind : n.kind = .list .description) :
    n.renderBlock c tracker faces mode = .ok (n.renderDescription c tracker faces mode) := by
  unfold renderBlock
  simp only [kind]

/-- The walk over a table. -/
def walkTable (n : Node) (plan : ColumnPlan) (c : Context) (tracker : Tracker) (faces : FaceStack) (mode : Mode) :
    Except DeckError (Flow × TableWalk) :=
  (TableWalk.start n plan c (mode.gate n tracker).2 faces).steps c.cellRules (mode.gate n tracker).1
    ((plan.toColumns c).length - 1) n.children

variable {plan : ColumnPlan} {walk : TableWalk} {pauses : Nat}

/-- A pause that ends the walk over a table is where the events of the table say. -/
theorem walkTable_pausesAt (nonempty : plan.columns ≠ []) (counting : tracker.ignoring = false)
    (ran : n.walkTable plan c tracker faces mode = .ok (.paused, walk)) :
    PausesAt (TableWalk.events c.cellRules tracker.pass (mode.gate n tracker).1 0 n.children) tracker.through
      walk.cursor := by
  have fits := TableWalk.start_fits n c (mode.gate n tracker).2 faces nonempty
  have stands := TableWalk.start_stands n plan c faces ((mode.gate_ignoring n tracker).trans counting)
  rw [Mode.gate_through, Tracker.pass, Mode.gate_state] at stands
  exact TableWalk.steps_pausesAt fits stands ran

theorem walkTable_rowCount {flow : Flow} (nonempty : plan.columns ≠ [])
    (ran : n.walkTable plan c tracker faces mode = .ok (flow, walk)) :
    walk.grid.rowCount = n.rowCount ∧ walk.cursor.row < n.rowCount := by
  obtain ⟨_, ended⟩ := TableWalk.steps_fits (TableWalk.start_fits n c (mode.gate n tracker).2 faces nonempty) ran
  exact ⟨ended.shape.rows, Nat.lt_of_le_of_lt (Nat.le_add_right _ _) ended.room⟩

theorem walkTable_allow (n : Node) (plan : ColumnPlan) (c : Context) (tracker : Tracker) (faces : FaceStack)
    (mode : Mode) (pauses : Nat) :
    n.walkTable plan c (tracker.allow pauses) faces mode =
      ((TableWalk.start n plan c (mode.gate n tracker).2 faces).allow pauses).steps c.cellRules
        (mode.gate n tracker).1 ((plan.toColumns c).length - 1) n.children := by
  rw [walkTable, Mode.gate_allow]
  rfl

/-- The table from a walk that lets all pauses through, unless that walk meets a cell that cannot be read. -/
theorem renderTable_whole (read : ColumnPlan.read n.params = .ok plan) (nonempty : plan.columns ≠ [])
    (counting : tracker.ignoring = false) (ran : n.walkTable plan c tracker faces mode = .ok (.paused, walk))
    (many : tracker.reached +
      pausesIn (TableWalk.events c.cellRules tracker.pass (mode.gate n tracker).1 0 n.children) ≤ pauses) :
    (∃ cell ∈ n.children, TableWalk.isFaulty cell = true) ∨
      ∃ whole h, n.renderTable c (tracker.allow pauses) faces mode = .ok whole ∧ whole.flow = .completed ∧
        whole.shape = h.toShape? none (mode.gate n tracker).1 ∧ h.rowCount = n.rowCount ∧
        walk.grid.fitColumns.SameAbove walk.cursor.row h := by
  have inner : (mode.gate n (tracker.allow pauses)).1 = (mode.gate n tracker).1 := by rw [Mode.gate_allow]
  rcases ranWhole : n.walkTable plan c (tracker.allow pauses) faces mode with error | ⟨flow, whole⟩
  · exact .inl (TableWalk.steps_error ranWhole)
  · cases flow with
    | paused =>
      have stops : PausesAt _ (tracker.allow pauses).through _ := walkTable_pausesAt nonempty counting ranWhole
      rw [inner] at stops
      exact absurd stops (not_pausesAt_of_allow many)
    | completed =>
      have rendered := renderTable_ran read nonempty ranWhole
      have rows := (walkTable_rowCount nonempty ranWhole).1
      have more : (mode.gate n tracker).2.state.pauses ≤ pauses := by
        rw [Mode.gate_state]
        exact pauses_le_of_pausesAt (walkTable_pausesAt nonempty counting ran) many
      rw [walkTable_allow] at ranWhole
      have same := TableWalk.steps_same (TableWalk.start_clean n plan c _ faces _) more ran ranWhole
      exact .inr ⟨_, whole.grid.fitColumns, rendered, rfl, by rw [inner]; rfl, rows, same.fitColumns⟩

/-- A table that is paused is cut off where the pause stands. -/
theorem renderTable_cutAt (kind : n.kind = .tabular) (rendered : n.renderTable c tracker faces mode = .ok block)
    (paused : block.flow = .paused) (counting : tracker.ignoring = false) :
    ∃ stop g, n.CutAt c tracker faces mode block stop g := by
  obtain ⟨plan, flow, walk, read, nonempty, ran, rfl⟩ := renderTable_ok rendered
  obtain rfl : flow = .paused := paused
  have events : n.rowEvents c.cellRules tracker.pass (mode.gate n tracker).1 =
    TableWalk.events c.cellRules tracker.pass (mode.gate n tracker).1 0 n.children := if_pos kind
  have gridRows : n.gridRows = n.rowCount := if_pos kind
  obtain ⟨rows, inRow⟩ := walkTable_rowCount nonempty ran
  refine ⟨walk.cursor, walk.grid.fitColumns, rfl, ?_, ?_, rows.trans gridRows.symm, ?_, fun pauses many => ?_⟩
  · rw [events]
    exact walkTable_pausesAt nonempty counting ran
  · change _ ≤ walk.grid.rowCount
    rw [rows, RowCursor.keptRows]
    split <;> omega
  · rw [gridRows]
    exact (TableWalk.steps_below ran).same.declared
  · rw [events] at many
    rw [gridRows, renderBlock_tabular kind]
    exact (renderTable_whole read nonempty counting ran many).imp_left fun faulty => ⟨kind, faulty⟩

/-- The walk over a description list, with the cursor at which a pause ended it. -/
def walkItems (n : Node) (c : Context) (tracker : Tracker) (faces : FaceStack) (mode : Mode) :
    Option RowCursor × DescriptionWalk :=
  (DescriptionWalk.start n c (mode.gate n tracker).2 faces).steps c.cellRules faces.current (mode.gate n tracker).1
    n.children

variable {stop : RowCursor}

/-- A pause that ends the walk over a description list is where the events of the list say. -/
theorem walkItems_pausesAt (counting : tracker.ignoring = false)
    (ended : (n.walkItems c tracker faces mode).1 = some stop) :
    PausesAt (DescriptionWalk.events c.cellRules tracker.pass (mode.gate n tracker).1 0 n.children) tracker.through
      stop := by
  have fits := DescriptionWalk.start_fits n c (mode.gate n tracker).2 faces
  have stands := DescriptionWalk.start_stands n c faces ((mode.gate_ignoring n tracker).trans counting)
  rw [Mode.gate_through, Tracker.pass, Mode.gate_state] at stands
  exact DescriptionWalk.steps_pausesAt c.cellRules faces.current _ fits stands ended

theorem walkItems_rowCount (n : Node) (c : Context) (tracker : Tracker) (faces : FaceStack) (mode : Mode) :
    (n.walkItems c tracker faces mode).2.grid.rowCount = n.itemCount :=
  (DescriptionWalk.steps_above c.cellRules faces.current _
    (DescriptionWalk.start_fits n c (mode.gate n tracker).2 faces)).2.rows

theorem walkItems_allow (n : Node) (c : Context) (tracker : Tracker) (faces : FaceStack) (mode : Mode)
    (pauses : Nat) :
    n.walkItems c (tracker.allow pauses) faces mode =
      ((DescriptionWalk.start n c (mode.gate n tracker).2 faces).allow pauses).steps c.cellRules faces.current
        (mode.gate n tracker).1 n.children := by
  rw [walkItems, Mode.gate_allow]
  rfl

theorem renderDescription_eq (n : Node) (c : Context) (tracker : Tracker) (faces : FaceStack) (mode : Mode) :
    n.renderDescription c tracker faces mode =
      descriptionBlock (mode.gate n tracker).1 (n.walkItems c tracker faces mode) := rfl

/-- The list from a walk that lets all pauses through. -/
theorem renderDescription_whole (counting : tracker.ignoring = false)
    (ended : (n.walkItems c tracker faces mode).1 = some stop)
    (many : tracker.reached +
      pausesIn (DescriptionWalk.events c.cellRules tracker.pass (mode.gate n tracker).1 0 n.children) ≤ pauses) :
    ∃ whole h, n.renderDescription c (tracker.allow pauses) faces mode = whole ∧ whole.flow = .completed ∧
      whole.shape = h.toShape? none (mode.gate n tracker).1 ∧ h.rowCount = n.itemCount ∧
      (n.walkItems c tracker faces mode).2.grid.SameAbove stop.row h := by
  have inner : (mode.gate n (tracker.allow pauses)).1 = (mode.gate n tracker).1 := by rw [Mode.gate_allow]
  have completed : (n.walkItems c (tracker.allow pauses) faces mode).1 = none := by
    refine Option.eq_none_iff_forall_ne_some.mpr fun other endedWhole => ?_
    have stops : PausesAt _ (tracker.allow pauses).through _ := walkItems_pausesAt counting endedWhole
    rw [inner] at stops
    exact not_pausesAt_of_allow many stops
  have more : (mode.gate n tracker).2.state.pauses ≤ pauses := by
    rw [Mode.gate_state]
    exact pauses_le_of_pausesAt (walkItems_pausesAt counting ended) many
  have same := DescriptionWalk.steps_same (DescriptionWalk.start_fits n c (mode.gate n tracker).2 faces)
    (DescriptionWalk.start_clean n c (mode.gate n tracker).2 faces) more ended
  rw [← walkItems_allow] at same
  have rows := walkItems_rowCount n c (tracker.allow pauses) faces mode
  refine ⟨_, (n.walkItems c (tracker.allow pauses) faces mode).2.grid, rfl, ?_, ?_, rows, same⟩
  · rw [renderDescription_eq, descriptionBlock, completed]
    rfl
  · rw [renderDescription_eq, descriptionBlock, completed, inner]

/-- A description list that is paused is cut off where the pause stands. -/
theorem renderDescription_cutAt (kind : n.kind = .list .description)
    (paused : (n.renderDescription c tracker faces mode).flow = .paused) (counting : tracker.ignoring = false) :
    ∃ stop g, n.CutAt c tracker faces mode (n.renderDescription c tracker faces mode) stop g := by
  rw [renderDescription_eq] at paused
  obtain ⟨stop, ended⟩ : ∃ stop, (n.walkItems c tracker faces mode).1 = some stop := by
    refine Option.ne_none_iff_exists'.mp ?_
    simpa [descriptionBlock, DescriptionWalk.flow] using paused
  have other : n.kind ≠ .tabular := by
    rw [kind]
    decide
  have events : n.rowEvents c.cellRules tracker.pass (mode.gate n tracker).1 =
    DescriptionWalk.events c.cellRules tracker.pass (mode.gate n tracker).1 0 n.children := if_neg other
  have gridRows : n.gridRows = n.itemCount := if_neg other
  have fits := DescriptionWalk.start_fits n c (mode.gate n tracker).2 faces
  have rows := walkItems_rowCount n c tracker faces mode
  refine ⟨stop, (n.walkItems c tracker faces mode).2.grid, ?_, ?_, ?_, rows.trans gridRows.symm, ?_,
    fun pauses many => ?_⟩
  · rw [renderDescription_eq, descriptionBlock, ended]
  · rw [events]
    exact walkItems_pausesAt counting ended
  · rw [rows]
    exact DescriptionWalk.steps_inside fits ended
  · rw [gridRows]
    exact (DescriptionWalk.steps_above c.cellRules faces.current _ fits).1.declared
  · rw [events] at many
    rw [gridRows, renderBlock_description kind]
    obtain ⟨whole, h, rendered, rest⟩ := renderDescription_whole counting ended many
    exact .inr ⟨whole, h, congrArg Except.ok rendered, rest⟩

/-- Only a tracker that counts pauses ends a walk. -/
theorem counting_of_paused (rendered : n.renderBlock c tracker faces mode = .ok block)
    (paused : block.flow = .paused) : tracker.ignoring = false := by
  rw [Bool.eq_false_iff]
  intro ignores
  have completed := ((renderBlock_leaves rendered []).ignoring ignores).1
  rw [paused] at completed
  cases completed

/-- What a pause leaves of a table or a description list that is not omitted. The pause stands in the row of
`stop`; that row stays if something in front of the pause shows in it, and all rows above are those of the block
with every pause let through, unless that block is a table with a cell or a line that cannot be read. A pause
between the items of a description list keeps the items before it. -/
theorem renderBlock_paused (ofRows : n.kind = .tabular ∨ n.kind = .list .description)
    (rendered : n.renderBlock c tracker faces mode = .ok block) (paused : block.flow = .paused)
    (shown : (mode.gate n tracker).1.emits = true) :
    ∃ stop, PausesAt (n.rowEvents c.cellRules tracker.pass (mode.gate n tracker).1) tracker.through stop ∧
      (∀ before p after, n.kind = .list .description → n.children = before ++ p :: after → p.kind = .pause →
        pausesIn (DescriptionWalk.events c.cellRules tracker.pass (mode.gate n tracker).1 0 before) =
            tracker.through →
          stop = ⟨(before.filter (·.kind = .item)).length, false⟩) ∧
      (stop.row + (if stop.hasContent then 1 else 0) = 0 → block.shape = none) ∧
      (0 < stop.row + (if stop.hasContent then 1 else 0) → ∃ bounds g hidden,
        block.shape = some (.single bounds (.table g) hidden) ∧
          g.rows.length = stop.row + (if stop.hasContent then 1 else 0) ∧ g.declaredRows = n.gridRows ∧
          ∀ pauses,
            tracker.reached + pausesIn (n.rowEvents c.cellRules tracker.pass (mode.gate n tracker).1) ≤ pauses →
              (n.kind = .tabular ∧ ∃ cell ∈ n.children, TableWalk.isFaulty cell = true) ∨
                ∃ whole bounds h, n.renderBlock c (tracker.allow pauses) faces mode = .ok whole ∧
                  whole.flow = .completed ∧ whole.shape = some (.single bounds (.table h) hidden) ∧
                  h.rows.length = n.gridRows ∧ g.SameAbove stop.row h) := by
  have counting := counting_of_paused rendered paused
  obtain ⟨stop, g, cut⟩ : ∃ stop g, n.CutAt c tracker faces mode block stop g := by
    rcases ofRows with kind | kind
    · rw [renderBlock_tabular kind] at rendered
      exact renderTable_cutAt kind rendered paused counting
    · rw [renderBlock_description kind] at rendered
      obtain rfl := Except.ok.inj rendered
      exact renderDescription_cutAt kind paused counting
  obtain ⟨noRows, someRows⟩ := Grid.toShape?_cut shown cut.inside
  refine ⟨stop, cut.stops, fun before p after kind split pause passed => ?_,
    fun rows => cut.shape.trans (noRows rows), fun rows => ?_⟩
  · have other : n.kind ≠ .tabular := by
      rw [kind]
      decide
    have stops := cut.stops
    rw [rowEvents, if_neg other, split, ← passed] at stops
    exact stops.unique (DescriptionWalk.pausesAt_between c.cellRules tracker.pass (mode.gate n tracker).1 pause)
  · obtain ⟨bounds, shape⟩ := someRows rows
    have kept := Grid.SameAbove.keepRows g (Nat.le_add_right stop.row (if stop.hasContent then 1 else 0))
    refine ⟨bounds, _, _, cut.shape.trans shape, Grid.keepRows_rowCount cut.inside,
      kept.declared.trans cut.declared, fun pauses many => (cut.whole pauses many).imp_right ?_⟩
    rintro ⟨whole, h, allowed, completed, shape, rowCount, same⟩
    have positive : 0 < h.rowCount := by
      rw [rowCount, ← cut.rowCount]
      exact Nat.lt_of_lt_of_le rows cut.inside
    obtain ⟨outer, shapeWhole⟩ := Grid.toShape?_whole shown positive
    exact ⟨whole, outer, h, allowed, completed, shape.trans shapeWhole, rowCount, kept.symm.trans same⟩

/-- A node that holds nothing. -/
def mark (kind : NodeKind) : Node := ⟨kind, .none, "", none, []⟩

/-- Three rows of two cells with a pause in the second, behind a text. -/
def pausedInRow : Node :=
  ⟨.tabular, .none, "ll", none,
    [.ofText "a", mark .tableColumn, .ofText "b", mark .tableRow, .ofText "c", mark .pause, mark .tableColumn,
      .ofText "d", mark .tableRow, .ofText "e"]⟩

/-- Two items with a pause between them. -/
def pausedBetween : Node :=
  ⟨.list .description, .none, "", none,
    [⟨.item, .none, "a", none, [.ofText "1"]⟩, mark .pause, ⟨.item, .none, "b", none, [.ofText "2"]⟩]⟩

/-- A block of which only the end of its walk is asked. -/
theorem renderBlock_flow {n : Node} {c : Context} {tracker : Tracker} {faces : FaceStack} {mode : Mode} {flow : Flow}
    (ended : (n.renderBlock c tracker faces mode).toOption.map Block.flow = some flow) :
    ∃ block, n.renderBlock c tracker faces mode = .ok block ∧ block.flow = flow := by
  cases rendered : n.renderBlock c tracker faces mode with
  | error fault =>
    rw [rendered] at ended
    cases ended
  | ok block =>
    rw [rendered] at ended
    exact ⟨block, rfl, Option.some.inj ended⟩

/-- Of the three rows the first two are kept, of the two items the first. -/
theorem renderBlock_paused_kept :
    (∃ block bounds g hidden whole outer h,
      pausedInRow.renderBlock plainContext default (.ofBase 22) .visible = .ok block ∧ block.flow = .paused ∧
        block.shape = some (.single bounds (.table g) hidden) ∧ g.rows.length = 2 ∧ g.declaredRows = 3 ∧
        pausedInRow.renderBlock plainContext (Tracker.allow 1 default) (.ofBase 22) .visible = .ok whole ∧
        whole.shape = some (.single outer (.table h) hidden) ∧ h.rows.length = 3 ∧ g.SameAbove 1 h) ∧
    ∃ block bounds g hidden,
      pausedBetween.renderBlock plainContext default (.ofBase 22) .visible = .ok block ∧ block.flow = .paused ∧
        block.shape = some (.single bounds (.table g) hidden) ∧ g.rows.length = 1 ∧ g.declaredRows = 2 := by
  constructor
  · obtain ⟨block, rendered, paused⟩ : ∃ block,
        pausedInRow.renderBlock plainContext default (.ofBase 22) .visible = .ok block ∧ block.flow = .paused :=
      renderBlock_flow (by decide +kernel)
    obtain ⟨stop, stops, _, _, left⟩ := renderBlock_paused (.inl rfl) rendered paused (by decide)
    have inRow : PausesAt (pausedInRow.rowEvents plainContext.cellRules 1 .visible) 0 ⟨1, true⟩ :=
      ⟨[(0, .note), (0, .note), (1, .note)], [(1, .note), (2, .note)], by decide +kernel, by decide, by decide⟩
    obtain rfl : stop = ⟨1, true⟩ := stops.unique inRow
    obtain ⟨bounds, g, hidden, shape, kept, declared, whole⟩ := left (by decide)
    rcases whole 1 (by decide +kernel) with
      ⟨_, cell, member, faulty⟩ | ⟨whole, outer, h, allowed, _, all, rows, same⟩
    · have sound : ∀ cell ∈ pausedInRow.children, TableWalk.isFaulty cell = false := by decide +kernel
      rw [sound cell member] at faulty
      cases faulty
    · exact ⟨block, bounds, g, hidden, whole, outer, h, rendered, paused, shape, kept, declared, allowed, all, rows,
        same⟩
  · obtain ⟨block, rendered, paused⟩ : ∃ block,
        pausedBetween.renderBlock plainContext default (.ofBase 22) .visible = .ok block ∧ block.flow = .paused :=
      renderBlock_flow (by decide +kernel)
    obtain ⟨stop, _, between, _, left⟩ := renderBlock_paused (.inr rfl) rendered paused (by decide)
    obtain rfl : stop = ⟨1, false⟩ := between (pausedBetween.children.take 1) (mark .pause)
      (pausedBetween.children.drop 2) rfl rfl rfl (by decide +kernel)
    obtain ⟨bounds, g, hidden, shape, kept, declared, _⟩ := left (by decide)
    exact ⟨block, bounds, g, hidden, rendered, paused, shape, kept, declared⟩

end Node

end Unveil
