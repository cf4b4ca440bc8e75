import Unveil.Proofs.ColumnSpec.Read
import Unveil.Proofs.Table.Above
import Unveil.Proofs.Table.Covered

namespace Unveil

theorem ColumnMark.Draws.le_columns {marks : List ColumnMark} {k : Nat} (draws : Draws marks k) :
    k ≤ (columns marks).length := by
  obtain ⟨before, after, rfl, rfl⟩ := draws
  rw [columns_append, List.length_append]
  exact Nat.le_add_right _ _

/-- A specification that is read has few enough columns, and lines only beside them. -/
theorem ColumnPlan.read_bounds {spec : String} {plan : ColumnPlan} (read : ColumnPlan.read spec = .ok plan) :
    plan.columns.length ≤ ColumnItem.maxColumns ∧ ∀ line ∈ plan.borders, line ≤ plan.columns.length := by
  obtain ⟨marks, _, added⟩ := (addAll_eq_ok_iff reads_addCopies).mp read
  rcases addMarks_empty marks with ⟨same, found, built, room⟩ | ⟨⟨fault, refused⟩, _⟩
  · obtain rfl := Except.ok.inj (found.symm.trans added)
    rw [built.columns]
    exact ⟨room, fun line inside => ((built.drawn line).mp inside).le_columns⟩
  · cases refused.symm.trans added

/-- An intact grid for so many declared rows, with no more columns than a specification may have and with
vertical lines beside its columns only. -/
structure Grid.Sound (g : Grid) (rows : Nat) : Prop where
  intact : g.Intact
  few : g.columns.length ≤ ColumnItem.maxColumns
  declared : g.declaredRows = rows
  verticals : ∀ line ∈ g.verticals, line ≤ g.columns.length

namespace Grid

variable {g h : Grid} {rows row : Nat}

theorem SameAbove.columns_length (same : SameAbove row g h) : h.columns.length = g.columns.length := by
  simpa only [List.length_map] using congrArg List.length same.aligns

/-- Filling a grid keeps its frame. -/
theorem Sound.of_same (sound : g.Sound rows) (same : SameAbove row g h) (intact : h.Intact) : h.Sound rows where
  intact := intact
  few := same.columns_length ▸ sound.few
  declared := same.declared.trans sound.declared
  verticals := by
    rw [same.verticals, same.columns_length]
    exact sound.verticals

theorem Sound.fitColumns (sound : g.Sound rows) : g.fitColumns.Sound rows := by
  have columns : g.fitColumns.columns.length = g.columns.length := by
    simpa only [List.length_map] using congrArg List.length (fitColumns_aligns g)
  exact ⟨sound.intact.fitColumns, columns ▸ sound.few, sound.declared, columns ▸ sound.verticals⟩

theorem Sound.toShape? (sound : g.Sound rows) {pausedAt : Option RowCursor} {mode : Mode} {s : Shape}
    (made : g.toShape? pausedAt mode = some s) :
    ∃ bounds h hidden, s = .single bounds (.table h) hidden ∧ h.Sound rows := by
  obtain ⟨bounds, h, hidden, rfl, rfl | ⟨count, rfl⟩⟩ := toShape?_eq_some made
  · exact ⟨bounds, h, hidden, rfl, sound⟩
  · exact ⟨bounds, _, hidden, rfl,
      sound.of_same (.keepRows g (Nat.zero_le count)) (sound.intact.keepRows count)⟩

end Grid

namespace TableWalk

variable {t u : TableWalk} {rules : InlineRules} {mode : Mode} {rows lastCol : Nat} {flow : Flow} {n : Node}
  {before left : List Node}

/-- A child finds the cell that it stands in, also after it was given the columns that it asks for. -/
structure Finds (t : TableWalk) (lastCol : Nat) (n : Node) : Prop where
  cell : ∃ cell, t.grid.cell? t.cursor.row (min t.col lastCol) = some cell
  spanned : ∀ u, t.spanCell n (min t.col lastCol) lastCol = .ok u →
    ∃ cell, u.grid.cell? u.cursor.row (min t.col lastCol) = some cell

/-- The walk over the first children has room for the rows of the others. -/
theorem steps_left (fits : t.Fits rows lastCol (before ++ left))
    (ran : t.steps rules mode lastCol before = .ok (.completed, u)) : u.Fits rows lastCol left := by
  induction before generalizing t with
  | nil =>
    cases ran
    exact fits
  | cons n rest ih =>
    rcases steps_cons ran with ⟨v, stepped, ran⟩ | ⟨_, paused⟩
    · exact ih (step_answers fits stepped).fits ran
    · cases paused

theorem Fits.finds (fits : t.Fits rows lastCol left) (n : Node) : t.Finds lastCol n where
  cell := fits.cell?_isSome (Nat.min_le_right _ _)
  spanned _ spanned := (fits.spanCell spanned).1.cell?_isSome (Nat.min_le_right _ _)

theorem start_sound {plan : ColumnPlan} (read : ColumnPlan.read n.params = .ok plan) (nonempty : plan.columns ≠ [])
    (c : Context) (tracker : Tracker) (faces : FaceStack) : (start n plan c tracker faces).grid.Sound n.rowCount := by
  obtain ⟨few, lines⟩ := ColumnPlan.read_bounds read
  have columns : (start n plan c tracker faces).grid.columns.length = plan.columns.length := plan.toColumns_length c
  refine ⟨(start_onIntact n c tracker faces nonempty).intact, ?_, rfl, ?_⟩ <;> rw [columns]
  · exact few
  · exact lines

end TableWalk

namespace DescriptionWalk

variable {d e : DescriptionWalk} {rules : InlineRules} {face : Face} {mode : Mode} {rows : Nat}
  {before left : List Node}

/-- An item finds the cell of its term, and the cell of its text after the term was written. -/
structure Finds (d : DescriptionWalk) (face : Face) (mode : Mode) (n : Node) : Prop where
  term : ∃ cell, d.grid.cell? d.nextRow 0 = some cell
  text : ∃ cell, (d.writeTerm face d.nextRow n.params (d.text.gate n mode).1).2.cell? d.nextRow 1 = some cell

theorem Fits.finds {n : Node} (fits : d.Fits rows (n :: left)) (kind : n.kind = .item) (face : Face) (mode : Mode) :
    d.Finds face mode n where
  term := fits.shape.cell?_isSome (fits.inRow kind) (by decide)
  text := (writeTerm_hasShape fits.shape face d.nextRow n.params _).cell?_isSome (fits.inRow kind) (by decide)

/-- The walk over the first children has room for the items among the others. -/
theorem steps_left (fits : d.Fits rows (before ++ left)) (ran : d.steps rules face mode before = (none, e)) :
    e.Fits rows left := by
  induction before generalizing d with
  | nil =>
    cases ran
    exact fits
  | cons n rest ih =>
    have goes := d.steps_goes rules face mode n rest
    rw [ran] at goes
    generalize atEnd : (none, e) = found at goes
    cases goes with
    | item kind went =>
      have after := (fits.item kind rules face mode).1
      rw [went] at after
      exact ih after atEnd.symm
    | cut kind went =>
      have isSome := (fits.item kind rules face mode).2.1
      rw [went] at isSome
      obtain ⟨ended, _⟩ := Prod.mk.inj atEnd
      rw [← ended] at isSome
      cases isSome
    | pause kind _ => exact ih (fits.skip (by simp [kind]) _) atEnd.symm
    | stop => cases atEnd
    | other noEntry => exact ih (fits.skip (ne_item_of_not_isEntry noEntry) d.text) atEnd.symm

theorem start_sound (n : Node) (c : Context) (tracker : Tracker) (faces : FaceStack) :
    (start n c tracker faces).grid.Sound n.itemCount :=
  ⟨.empty (by simp) _ _ _, by simp [start, Node.descriptionColumns, Grid.empty, ColumnItem.maxColumns], rfl, nofun⟩

end DescriptionWalk

namespace Node

/-- The table that a table is rendered to is sound for its separators and one more row, and that of a
description list for its items. All their children that are met find their cells. -/
theorem rendered_sound (n : Node) (c : Context) (tracker : Tracker) (faces : FaceStack) (mode : Mode) :
    (∀ block s, n.renderTable c tracker faces mode = .ok block → block.shape = some s →
      ∃ bounds g hidden, s = .single bounds (.table g) hidden ∧ g.Sound n.rowCount) ∧
    (∀ s, (n.renderDescription c tracker faces mode).shape = some s →
      ∃ bounds g hidden, s = .single bounds (.table g) hidden ∧ g.Sound n.itemCount) ∧
    (∀ plan before child after t, ColumnPlan.read n.params = .ok plan → plan.columns ≠ [] →
      n.children = before ++ child :: after →
      (TableWalk.start n plan c (mode.gate n tracker).2 faces).steps c.cellRules (mode.gate n tracker).1
        ((plan.toColumns c).length - 1) before = .ok (.completed, t) →
      t.Finds ((plan.toColumns c).length - 1) child) ∧
    ∀ before child after d, n.children = before ++ child :: after → child.kind = .item →
      (DescriptionWalk.start n c (mode.gate n tracker).2 faces).steps c.cellRules faces.current
        (mode.gate n tracker).1 before = (none, d) →
      d.Finds faces.current (mode.gate n tracker).1 child := by
  refine ⟨fun block s rendered made => ?_, fun s made => ?_, fun plan before child after t _ nonempty children ran => ?_,
    fun before child after d children item ran => ?_⟩
  · obtain ⟨plan, flow, walk, read, nonempty, ran, rfl⟩ := renderTable_ok rendered
    have intact := ((TableWalk.start_onIntact n c _ faces nonempty).steps
      (TableWalk.start_fits n c _ faces nonempty) ran).intact
    exact ((TableWalk.start_sound read nonempty c _ faces).of_same (TableWalk.steps_below ran).same
      intact).fitColumns.toShape? made
  · have start := DescriptionWalk.start_sound n c (mode.gate n tracker).2 faces
    obtain ⟨same, _⟩ := DescriptionWalk.steps_above c.cellRules faces.current (mode.gate n tracker).1
      (DescriptionWalk.start_fits n c (mode.gate n tracker).2 faces)
    exact (start.of_same same (DescriptionWalk.steps_intact start.intact _ _ _ _)).toShape? made
  · have fits := TableWalk.start_fits n c (mode.gate n tracker).2 faces nonempty
    rw [children] at fits
    exact (TableWalk.steps_left fits ran).finds child
  · have fits := DescriptionWalk.start_fits n c (mode.gate n tracker).2 faces
    rw [children] at fits
    exact (DescriptionWalk.steps_left fits ran).finds item faces.current _

/-- A table that is paused in its second row, below a line. -/
def pausedTable : Node :=
  threeColumns [wideCell, columnEnd, .ofText "z", ⟨.tableRow, .none, "", none, []⟩, ⟨.hline, .none, "", none, []⟩,
    ⟨.pause, .none, "", none, []⟩, .ofText "later"]

/-- A description list of two items, with a pause between them. -/
def pausedDescription : Node :=
  ⟨.list .description, .none, "", none, [⟨.item, .none, "term", none, [.ofText "text"]⟩,
    ⟨.pause, .none, "", none, []⟩, ⟨.item, .none, "other", none, []⟩]⟩

/-- On the first pass both are cut to one row, and the children in front of the pause find their cells. -/
theorem rendered_sound_paused :
    (∃ block bounds g hidden, pausedTable.renderPlain = .ok block ∧
      block.shape = some (.single bounds (.table g) hidden) ∧ g.Sound 2 ∧ g.rowCount = 1 ∧ g.horizontals = [1]) ∧
    (∃ bounds g hidden, (pausedDescription.renderDescription plainContext default (.ofBase 22) .visible).shape =
      some (.single bounds (.table g) hidden) ∧ g.Sound 2 ∧ g.rowCount = 1) ∧
    (∃ plan t, ColumnPlan.read "lll" = .ok plan ∧ plan.columns ≠ [] ∧
      (TableWalk.start pausedTable plan plainContext default (.ofBase 22)).steps plainContext.cellRules .visible
        ((plan.toColumns plainContext).length - 1) [wideCell, columnEnd] = .ok (.completed, t) ∧
      t.Finds ((plan.toColumns plainContext).length - 1) (.ofText "z")) ∧
    ∃ d, (DescriptionWalk.start pausedDescription plainContext default (.ofBase 22)).steps plainContext.cellRules
        (FaceStack.ofBase 22).current .visible [] = (none, d) ∧
      d.Finds (FaceStack.ofBase 22).current .visible ⟨.item, .none, "term", none, [.ofText "text"]⟩ := by
  obtain ⟨table, _, child, _⟩ := rendered_sound pausedTable plainContext default (.ofBase 22) .visible
  obtain ⟨_, description, _, item⟩ := rendered_sound pausedDescription plainContext default (.ofBase 22) .visible
  refine ⟨?_, ?_, ?_, _, rfl, item [] _ _ _ rfl rfl rfl⟩
  · obtain ⟨block, bounds, g, hidden, rendered, shaped, like⟩ :
        ∃ block bounds g hidden, pausedTable.renderPlain = .ok block ∧
          block.shape = some (.single bounds (.table g) hidden) ∧ (g.rowCount, g.horizontals) = (1, [1]) :=
      renderPlain_grid (by decide +kernel)
    obtain ⟨_, _, _, same, sound⟩ := table block _ rendered shaped
    cases same
    obtain ⟨rows, lines⟩ := Prod.mk.inj like
    exact ⟨block, bounds, g, hidden, rendered, shaped, sound, rows, lines⟩
  · have rows : ((pausedDescription.renderDescription plainContext default (.ofBase 22) .visible).shape.map fun s =>
        s.grids.map Grid.rowCount) = some [1] := by decide +kernel
    obtain ⟨s, shaped, only⟩ := Option.map_eq_some_iff.mp rows
    obtain ⟨bounds, g, hidden, rfl, sound⟩ := description s shaped
    exact ⟨bounds, g, hidden, shaped, sound, List.singleton_inj.mp only⟩
  · have reached : ((ColumnPlan.read "lll").toOption.bind fun plan =>
        ((TableWalk.start pausedTable plan plainContext default (.ofBase 22)).steps plainContext.cellRules .visible
          ((plan.toColumns plainContext).length - 1) [wideCell, columnEnd]).toOption.map fun found =>
            (found.1, plan.columns.length)) = some (.completed, 3) := by decide +kernel
    rcases read : ColumnPlan.read "lll" with error | plan
    · rw [read] at reached
      cases reached
    · rcases ran : (TableWalk.start pausedTable plan plainContext default (.ofBase 22)).steps plainContext.cellRules
          .visible ((plan.toColumns plainContext).length - 1) [wideCell, columnEnd] with error | ⟨flow, t⟩ <;>
        rw [read, Except.toOption, Option.bind_some, ran] at reached
      · cases reached
      obtain ⟨rfl, columns⟩ := Prod.mk.inj (Option.some.inj reached)
      have nonempty : plan.columns ≠ [] := List.ne_nil_of_length_eq_add_one columns
      exact ⟨plan, t, rfl, nonempty, ran, child plan _ _ _ t read nonempty rfl ran⟩

end Node

end Unveil
