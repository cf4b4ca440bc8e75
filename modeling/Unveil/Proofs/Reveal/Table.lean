import Unveil.Proofs.Reveal.Grid
import Unveil.Proofs.Table.Description

namespace Unveil

namespace TableWalk

/-- All that one table holds is also held by the other, and comes first there. -/
structure Behind (t u : TableWalk) : Prop where
  grid : t.grid.Behind u.grid
  kept : t.cursor.keptRows ≤ u.cursor.keptRows
  deferred : t.text.deferred <+: u.text.deferred

/-- Nothing was written behind the cell in which the walk stands. -/
def Clean (t : TableWalk) (lastCol : Nat) : Prop := t.grid.EmptyAfter t.cursor.row (min t.col lastCol)

/-- The same walk with so many pauses let through. -/
def allow (pauses : Nat) (t : TableWalk) : TableWalk := { t with text := t.text.allow pauses }

variable {t u v : TableWalk} {rules : InlineRules} {mode : Mode} {lastCol pauses : Nat}

theorem Behind.refl (t : TableWalk) : Behind t t := ⟨.refl _, Nat.le_refl _, List.prefix_rfl⟩

theorem Behind.trans (first : Behind t u) (second : Behind u v) : Behind t v :=
  ⟨first.grid.trans second.grid, Nat.le_trans first.kept second.kept,
    first.deferred.trans second.deferred⟩

theorem keptRows_le {row : Nat} {fewer more : Bool} (grows : fewer = true → more = true) :
    RowCursor.keptRows ⟨row, fewer⟩ ≤ RowCursor.keptRows ⟨row, more⟩ := by
  cases fewer with
  | false => simp [RowCursor.keptRows]
  | true => simp [RowCursor.keptRows, grows rfl]

/-- What writing into a cell keeps. -/
structure Wrote (t u : TableWalk) (col : Nat) : Prop where
  behind : Behind t u
  empty : u.grid.EmptyAfter t.cursor.row col
  row : u.cursor.row = t.cursor.row
  col : u.col = t.col
  state : u.text.tracker.state = t.text.tracker.state

theorem writeCell_wrote {col : Nat} (empty : t.grid.EmptyAfter t.cursor.row col) (rules : InlineRules)
    (mode : Mode) (nodes : List Node) : Wrote t (t.writeCell rules mode col nodes).2 col := by
  cases atCell : t.grid.cell? t.cursor.row col with
  | none =>
    have still : t.writeCell rules mode col nodes = (.completed, t) := by
      unfold writeCell
      rw [atCell]
    rw [still]
    exact ⟨.refl t, empty, rfl, rfl, rfl⟩
  | some cell =>
    have grown := Inline.behind_visitAll rules { t.text with body := cell.body } mode nodes
    have state := Tracker.answer_state
      (Inline.answer_asksAll rules { t.text with body := cell.body } mode nodes)
    rw [writeCell_eq rules mode nodes atCell]
    refine ⟨⟨empty.behind_write fun old atOld => ?_, keptRows_le fun shows => ?_, grown.deferred⟩,
      empty.mapCell _, rfl, rfl, state⟩
    · cases Option.some.inj (atCell.symm.trans atOld)
      exact grown.body
    · simp only [shows, Bool.true_or]

theorem writeCell_reveals {col : Nat} (empty : t.grid.EmptyAfter t.cursor.row col) (rules : InlineRules)
    (mode : Mode) (nodes : List Node) (more : t.text.tracker.state.pauses ≤ pauses) :
    Reveals (allow pauses) Behind (t.writeCell rules mode col nodes)
      ((t.allow pauses).writeCell rules mode col nodes) := by
  cases atCell : t.grid.cell? t.cursor.row col with
  | none =>
    unfold writeCell
    simp only [allow, atCell]
    exact .completed t
  | some cell =>
    have below := Inline.visitAll_reveals rules { t.text with body := cell.body } mode more nodes
    rw [writeCell_eq rules mode nodes atCell,
      writeCell_eq (t := t.allow pauses) rules mode nodes atCell]
    refine below.map (f := fun _ => t.filled col) (g := fun _ => (t.allow pauses).filled col)
      (fun _ => rfl)
      fun _ s s' behind => ?_
    refine ⟨empty.behind_mapCell fun _ _ => behind.body, keptRows_le fun shows => ?_, behind.deferred⟩
    rw [Bool.or_eq_true] at shows ⊢
    exact shows.imp_right behind.emitted

/-- What a step keeps that did not fail. -/
structure Advanced (t u : TableWalk) (lastCol : Nat) : Prop where
  behind : Behind t u
  clean : u.Clean lastCol
  state : u.text.tracker.state = t.text.tracker.state

theorem spanCell_advanced {n : Node} (clean : t.Clean lastCol)
    (spanned : t.spanCell n (min t.col lastCol) lastCol = .ok u) :
    Behind t u ∧ u.grid.EmptyAfter u.cursor.row (min t.col lastCol) ∧ u.cursor = t.cursor ∧
      u.text = t.text ∧
      t.col ≤ u.col := by
  obtain ⟨column, borders, _, rfl⟩ := spanCell_ok spanned
  have written :=
    Grid.EmptyAfter.behind_write (f := fun cell => { cell with align := some column.align, borders })
      clean fun _ _ => List.prefix_rfl
  have empty :=
    Grid.EmptyAfter.mapCell clean fun cell => { cell with align := some column.align, borders }
  refine ⟨⟨?_, Nat.le_refl _, List.prefix_rfl⟩, ?_, rfl, rfl, Nat.le_add_right _ _⟩
  · simp only
    split
    · exact written.trans (.of_rows rfl)
    · exact written
  · simp only
    split
    · exact empty
    · exact empty

theorem step_advanced {n : Node} {flow : Flow} (clean : t.Clean lastCol)
    (stepped : t.step rules mode lastCol n = .ok (flow, u)) : Advanced t u lastCol := by
  cases step_cases stepped with
  | column =>
    refine ⟨⟨.refl _, Nat.le_refl _, List.prefix_rfl⟩, ?_, rfl⟩
    exact clean.mono (.inr ⟨rfl, by simp only; omega⟩)
  | row =>
    refine ⟨⟨.refl _, ?_, List.prefix_rfl⟩, clean.mono (.inl (Nat.lt_succ_self _)), rfl⟩
    simp only [nextRow, RowCursor.keptRows]
    split <;> simp
  | line => exact ⟨⟨.of_rows rfl, Nat.le_refl _, List.prefix_rfl⟩, clean, rfl⟩
  | partialLine => exact ⟨⟨.of_rows rfl, Nat.le_refl _, List.prefix_rfl⟩, clean, rfl⟩
  | noLine => exact ⟨.refl t, clean, rfl⟩
  | span _ before spanned =>
    obtain ⟨grown, empty, cursor, text, col⟩ := spanCell_advanced clean spanned
    have wrote := writeCell_wrote empty rules mode [n]
    refine ⟨grown.trans wrote.behind, ?_, wrote.state.trans (by rw [text])⟩
    refine wrote.empty.mono (.inr ⟨wrote.row.symm, ?_⟩)
    have colSame := wrote.col
    omega
  | cell =>
    have wrote := writeCell_wrote clean rules mode [n]
    refine ⟨wrote.behind, wrote.empty.mono (.inr ⟨wrote.row.symm, ?_⟩), wrote.state⟩
    exact Nat.le_of_eq (by rw [wrote.col])

theorem steps_behind {t u : TableWalk} {nodes : List Node} {flow : Flow} (clean : t.Clean lastCol)
    (stepped : t.steps rules mode lastCol nodes = .ok (flow, u)) : Behind t u := by
  induction nodes generalizing t with
  | nil =>
    cases Except.ok.inj stepped
    exact .refl _
  | cons n rest ih =>
    rcases steps_cons stepped with ⟨before, first, stepped⟩ | ⟨first, rfl⟩
    · have advanced := step_advanced clean first
      exact advanced.behind.trans (ih advanced.clean stepped)
    · exact (step_advanced clean first).behind

theorem spanCell_allow (t : TableWalk) (n : Node) {col lastCol : Nat} (inside : col ≤ lastCol) (pauses : Nat) :
    (t.allow pauses).spanCell n col lastCol = (t.spanCell n col lastCol).map (allow pauses) := by
  rw [spanCell_eq _ n inside, spanCell_eq _ n inside]
  cases ColumnPlan.readCell n.params <;> rfl

/-- A child of a table that comes to its end is the same in both walks. -/
theorem step_reveals {n : Node} (clean : t.Clean lastCol)
    (more : t.text.tracker.state.pauses ≤ pauses) :
    RevealsOk (allow pauses) Behind (t.step rules mode lastCol n)
      ((t.allow pauses).step rules mode lastCol n) := by
  unfold step
  cases kind : n.kind <;> simp only
  case tableColumn => exact .completed { t with col := t.col + 1 }
  case tableRow => exact .completed t.nextRow
  case hline => exact .completed { t with grid := t.grid.addHorizontal t.cursor.row }
  case cline =>
    rw [show (t.allow pauses).cursor = t.cursor from rfl]
    rcases n.partialLine t.cursor.row lastCol with error | _ | line
    · exact .failed error _
    · exact .completed t
    · exact .completed { t with grid := t.grid.addPartial line }
  case multiColumn =>
    rw [show (t.allow pauses).col = t.col from rfl, spanCell_allow t n (Nat.min_le_right _ _)]
    cases spanned : t.spanCell n (min t.col lastCol) lastCol with
    | error error => exact .failed error _
    | ok before =>
      obtain ⟨_, empty, _, text, _⟩ := spanCell_advanced clean spanned
      exact (writeCell_reveals empty rules mode [n] (by rwa [text])).ok
  all_goals exact (writeCell_reveals clean rules mode [n] more).ok

theorem steps_reveals (rules : InlineRules) (mode : Mode) (nodes : List Node) {t : TableWalk}
    (clean : t.Clean lastCol) (more : t.text.tracker.state.pauses ≤ pauses) :
    RevealsOk (allow pauses) Behind (t.steps rules mode lastCol nodes)
      ((t.allow pauses).steps rules mode lastCol nodes) := by
  induction nodes generalizing t with
  | nil => exact .completed t
  | cons n rest ih =>
    have first : RevealsOk (allow pauses) Behind (t.step rules mode lastCol n)
      ((t.allow pauses).step rules mode lastCol n) := step_reveals clean more
    rw [steps, steps]
    have advanced {flow : Flow} {u : TableWalk}
      (stepped : t.step rules mode lastCol n = .ok (flow, u)) :=
      step_advanced clean stepped
    have advancedMore {flow : Flow} {u : TableWalk}
        (stepped : (t.allow pauses).step rules mode lastCol n = .ok (flow, u)) :=
      step_advanced (t := t.allow pauses) clean stepped
    generalize t.step rules mode lastCol n = found at first advanced
    generalize (t.allow pauses).step rules mode lastCol n = foundMore at first advancedMore
    cases first with
    | completed u => exact ih (advanced rfl).clean ((advanced rfl).state ▸ more)
    | @paused u _ behind =>
      refine .paused fun flow v stepped => ?_
      rcases foundMore with error | ⟨ended, before⟩
      · cases stepped
      · have grown := behind ended before rfl
        cases ended with
        | completed => exact grown.trans (steps_behind (advancedMore rfl).clean stepped)
        | paused =>
          cases Except.ok.inj stepped
          exact grown
    | failed error => exact .failed error _

theorem start_clean (n : Node) (plan : ColumnPlan) (c : Context) (tracker : Tracker) (faces : FaceStack)
    (lastCol : Nat) : (start n plan c tracker faces).Clean lastCol :=
  fun _ _ _ atCell _ => Grid.empty_cell_chars atCell

end TableWalk

namespace Block

def chars (b : Block) : List Char := (b.shape.map Shape.chars).getD []

/-- All that one block holds is also held by the other, and comes first there. -/
structure Behind (b d : Block) : Prop where
  chars : b.chars <+: d.chars
  deferred : b.deferred <+: d.deferred

def allow (pauses : Nat) (b : Block) : Block := { b with tracker := b.tracker.allow pauses }

/-- How the walk of a block ended, and the block. -/
def ended (b : Block) : Flow × Block := (b.flow, b)

end Block

namespace Node

theorem tableBlock_behind {mode : Mode} {flow : Flow} {t u : TableWalk} (behind : t.Behind u) :
    (tableBlock mode .paused t).Behind (tableBlock mode flow u) := by
  refine ⟨?_, behind.deferred⟩
  have grid : t.grid.fitColumns.Behind u.grid.fitColumns := behind.grid
  refine grid.toShape? (fun stop eq => ?_) mode
  split at eq
  · cases Option.some.inj eq
    exact behind.kept
  · cases eq

theorem renderTable_eq (n : Node) (c : Context) (tracker : Tracker) (faces : FaceStack) (mode : Mode) :
    (n.renderTable c tracker faces mode).map Block.ended =
      match ColumnPlan.read n.params with
      | .error fault => .error (.columns fault)
      | .ok plan =>
        if plan.columns.isEmpty then .error (.columns (.noColumns n.params))
        else ((TableWalk.start n plan c (mode.gate n tracker).2 faces).steps c.cellRules
          (mode.gate n tracker).1
          ((plan.toColumns c).length - 1) n.children).map
            fun found => (found.1, tableBlock (mode.gate n tracker).1 found.1 found.2) := by
  rcases read : ColumnPlan.read n.params with fault | plan
  · rw [renderTable_unread read]
    rfl
  · by_cases bare : plan.columns = []
    · rw [renderTable_noColumns read bare]
      exact (if_pos (List.isEmpty_iff.mpr bare)).symm
    · rw [renderTable_of_read read bare]
      refine Eq.trans ?_ (if_neg (mt List.isEmpty_iff.mp bare)).symm
      generalize TableWalk.steps _ _ _ _ n.children = ended
      cases ended <;> rfl

/-- A table whose walk does not fail is rendered. -/
theorem renderTable_ran {n : Node} {c : Context} {tracker : Tracker} {faces : FaceStack} {mode : Mode}
    {plan : ColumnPlan} {flow : Flow} {walk : TableWalk} (read : ColumnPlan.read n.params = .ok plan)
    (nonempty : plan.columns ≠ [])
    (ran : (TableWalk.start n plan c (mode.gate n tracker).2 faces).steps c.cellRules (mode.gate n tracker).1
      ((plan.toColumns c).length - 1) n.children = .ok (flow, walk)) :
    n.renderTable c tracker faces mode = .ok (tableBlock (mode.gate n tracker).1 flow walk) := by
  rw [renderTable_of_read read nonempty, ran]
  rfl

/-- A table shows no less where more pauses are let through: the cut at the row of the pause never takes away what
the longer walk keeps. -/
theorem renderTable_reveals (n : Node) (c : Context) {tracker : Tracker} (faces : FaceStack)
    (mode : Mode) {pauses : Nat} (more : tracker.state.pauses ≤ pauses) :
    RevealsOk (Block.allow pauses) Block.Behind ((n.renderTable c tracker faces mode).map Block.ended)
      ((n.renderTable c (tracker.allow pauses) faces mode).map Block.ended) := by
  rw [renderTable_eq, renderTable_eq, Mode.gate_allow]
  cases ColumnPlan.read n.params with
  | error fault => exact .failed _ _
  | ok plan =>
    simp only
    split
    · exact .failed _ _
    · have state : (mode.gate n tracker).2.state.pauses ≤ pauses := by simpa using more
      have walked := TableWalk.steps_reveals c.cellRules (mode.gate n tracker).1 n.children
        (TableWalk.start_clean n plan c (mode.gate n tracker).2 faces
          ((plan.toColumns c).length - 1)) state
      exact walked.map (fun _ => rfl) fun _ _ _ behind => tableBlock_behind behind

end Node

end Unveil
