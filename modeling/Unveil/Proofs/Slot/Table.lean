import Unveil.Proofs.Reveal.Table
import Unveil.Proofs.Slot.Flow
import Unveil.Proofs.Slot.Inline
import Unveil.Proofs.Table.Asks

namespace Unveil

open Float.Model.UnpackedFloat (Sign)

variable {sign : Sign} {p q : Nat}

/-- Blocks of alike shapes. -/
structure Block.Alike (sign : Sign) (p q : Nat) (b d : Block) : Prop where
  shape : Option.Rel (Shape.Alike sign) b.shape d.shape
  flow : b.flow = d.flow
  deferred : List.Forall₂ Deferred.Alike b.deferred d.deferred
  tracker : b.tracker.Alike p q d.tracker

namespace TableWalk

/-- Tables that differ in what is hidden only. -/
structure Alike (sign : Sign) (p q : Nat) (t u : TableWalk) : Prop where
  grid : t.grid.Alike sign u.grid
  text : t.text.Alike sign p q u.text
  cursor : t.cursor = u.cursor
  col : t.col = u.col

variable {t u : TableWalk} {rules : InlineRules} {mode mode' : Mode} {rows lastCol : Nat}

theorem writeCell_alike (alike : t.Alike sign p q u) (emits : mode.emits = mode'.emits) (col : Nat)
    (nodes : List Node) (agree : AgreeOn p q (t.text.tracker.met (Inline.asksAll rules nodes))) :
    EndAlike (Alike sign p q) (t.writeCell rules mode col nodes)
      (u.writeCell rules mode' col nodes) := by
  have cells := alike.grid.cell? t.cursor.row col
  unfold writeCell
  rw [← alike.cursor]
  generalize t.grid.cell? t.cursor.row col = found at cells ⊢
  generalize u.grid.cell? t.cursor.row col = other at cells ⊢
  cases cells with
  | none => exact ⟨rfl, alike⟩
  | @some cell cell' same =>
    have start :
        Inline.Alike sign p q { t.text with body := cell.body } { u.text with body := cell'.body } :=
      { alike.text with body := same.body }
    have written := Inline.visitAll_alike rules start emits nodes agree
    refine ⟨written.flow, ⟨?_, ?_, ?_, alike.col⟩⟩
    · exact alike.grid.mapBody (fun _ _ _ => written.state.body) _ _
    · exact { written.state with emitted := rfl }
    · simp only [written.state.emitted]

theorem spanCell_alike (alike : t.Alike sign p q u) {n : Node} {col : Nat} {before : TableWalk}
    (inside : col ≤ lastCol) (spanned : t.spanCell n col lastCol = .ok before) :
    ∃ other, u.spanCell n col lastCol = .ok other ∧ before.Alike sign p q other := by
  rw [spanCell_eq _ n inside] at spanned ⊢
  cases read : ColumnPlan.readCell n.params with
  | error fault =>
    rw [read] at spanned
    cases spanned
  | ok found =>
    rw [read] at spanned
    cases Except.ok.inj spanned
    refine ⟨_, rfl, ?_, alike.text, alike.cursor, congrArg (· + _) alike.col⟩
    have changes (c d : Cell) (old : c.Alike sign d) :
        Cell.Alike sign { c with align := some found.1.align, borders := found.2 }
          { d with align := some found.1.align, borders := found.2 } :=
      { old with align := rfl, borders := rfl }
    have spanned := alike.grid.mapCell changes t.cursor.row col
    rw [← alike.cursor]
    dsimp only
    split
    · exact spanned.addMerge _
    · exact spanned

theorem step_alike (alike : t.Alike sign p q u) (emits : mode.emits = mode'.emits) {n : Node}
    {flow : Flow} {after : TableWalk} (agree : AgreeOn p q (t.text.tracker.met (asks rules n)))
    (stepped : t.step rules mode lastCol n = .ok (flow, after)) :
    ∃ other, u.step rules mode' lastCol n = .ok (flow, other) ∧ after.Alike sign p q other := by
  have written {found other : Flow × TableWalk} (ends : EndAlike (Alike sign p q) found other)
      (eq : found = (flow, after)) : ∃ v, other = (flow, v) ∧ after.Alike sign p q v := by
    subst eq
    obtain ⟨ended, v⟩ := other
    exact ⟨v, congrArg (·, v) ends.flow.symm, ends.state⟩
  have sound := (step_cases stepped).sound
  have cell {v w : TableWalk} (same : v.Alike sign p q w) (text : v.text = t.text)
      (plain : n.kind.isRuling = false) :
      EndAlike (Alike sign p q) (v.writeCell rules mode (min t.col lastCol) [n])
        (w.writeCell rules mode' (min t.col lastCol) [n]) := by
    refine writeCell_alike same emits _ [n] ?_
    rw [asks, plain, sound] at agree
    rw [text]
    exact agree
  unfold step at stepped ⊢
  rw [← alike.col, ← alike.cursor]
  cases kind : n.kind <;> simp only [kind] at stepped ⊢
  case tableColumn =>
    cases Except.ok.inj stepped
    exact ⟨_, rfl, { alike with cursor := rfl, col := rfl }⟩
  case tableRow =>
    cases Except.ok.inj stepped
    exact ⟨_, rfl, { alike with cursor := by simp only [nextRow, alike.cursor], col := rfl }⟩
  case hline =>
    cases Except.ok.inj stepped
    exact ⟨_, rfl, { alike with grid := alike.grid.addHorizontal _, cursor := rfl, col := rfl }⟩
  case cline =>
    obtain ⟨_ | line, read, drawn⟩ := map_eq_ok_iff.mp stepped
    · cases drawn
      rw [read]
      exact ⟨u, rfl, alike⟩
    · cases drawn
      rw [read]
      exact ⟨_, rfl, { alike with grid := alike.grid.addPartial line }⟩
  case multiColumn =>
    cases spanned : t.spanCell n (min t.col lastCol) lastCol with
    | error error =>
      rw [spanned] at stepped
      cases stepped
    | ok before =>
      rw [spanned] at stepped
      obtain ⟨other, spanned', same⟩ := spanCell_alike alike (Nat.min_le_right _ _) spanned
      have text : before.text = t.text := by
        obtain ⟨_, _, _, rfl⟩ := spanCell_ok spanned
        rfl
      obtain ⟨v, ended, state⟩ :=
        written (cell same text (by simp [kind, NodeKind.isRuling])) (Except.ok.inj stepped)
      rw [spanned']
      exact ⟨v, congrArg Except.ok ended, state⟩
  all_goals
    obtain ⟨v, ended, state⟩ :=
      written (cell alike rfl (by simp [kind, NodeKind.isRuling])) (Except.ok.inj stepped)
    exact ⟨v, congrArg Except.ok ended, state⟩

theorem steps_alike (rules : InlineRules) {nodes : List Node} (fits : t.Fits rows lastCol nodes)
    (alike : t.Alike sign p q u) (emits : mode.emits = mode'.emits) {flow : Flow} {after : TableWalk}
    (agree : AgreeOn p q (t.text.tracker.met (asksAll rules nodes)))
    (stepped : t.steps rules mode lastCol nodes = .ok (flow, after)) :
    ∃ other, u.steps rules mode' lastCol nodes = .ok (flow, other) ∧ after.Alike sign p q other := by
  induction nodes generalizing t u with
  | nil =>
    cases Except.ok.inj stepped
    exact ⟨u, rfl, alike⟩
  | cons n rest ih =>
    obtain ⟨here, later⟩ := agree.append (asks rules n)
    rw [steps]
    rcases steps_cons stepped with ⟨before, first, stepped⟩ | ⟨first, rfl⟩
    · obtain ⟨other, first', same⟩ := step_alike alike emits here first
      have answers := step_answers fits first
      rw [first']
      exact ih answers.fits same (later _ answers.answer) stepped
    · obtain ⟨other, first', same⟩ := step_alike alike emits here first
      rw [first']
      exact ⟨other, rfl, same⟩

theorem start_alike (n : Node) (plan : ColumnPlan) (c : Context) {tracker tracker' : Tracker}
    {faces : FaceStack} (trackers : tracker.Alike p q tracker') (sized : faces.Sized sign) :
    (start n plan c tracker faces).Alike sign p q (start n plan c tracker' faces) := by
  have empty := Grid.empty_alike sign (plan.toColumns c) n.rowCount faces.current.size
  refine ⟨⟨empty.rows, rfl⟩, Inline.ofFaces_alike trackers sized ?_, rfl, rfl⟩
  exact TextBody.ofSize_sound sign 0

end TableWalk

namespace Node

/-- Tables on two passes that agree on what decides: the same cells are written, with alike texts, and a pause
cuts both tables off at the same row. -/
theorem renderTable_alike {n : Node} {c : Context} {tracker tracker' : Tracker} {faces : FaceStack}
    {mode mode' : Mode} (trackers : tracker.Alike p q tracker') (sized : faces.Sized sign)
    (emits : mode.emits = mode'.emits) {block : Block}
    (agree : AgreeOn p q (tracker.met (tableAsks c.policy n)))
    (rendered : n.renderTable c tracker faces mode = .ok block) :
    ∃ other, n.renderTable c tracker' faces mode' = .ok other ∧ block.Alike sign p q other := by
  obtain ⟨inner, inside⟩ := Mode.gate_agree trackers emits agree
  have gated := trackers.gate mode mode' n
  obtain ⟨plan, flow, walk, read, nonempty, ran, rfl⟩ := renderTable_ok rendered
  have listed : plan.columns.isEmpty = false := by simpa using nonempty
  rw [read] at inside
  simp only [listed, Bool.false_eq_true, if_false] at inside
  have fits := TableWalk.start_fits n c (mode.gate n tracker).2 faces nonempty
  obtain ⟨other, ran', alike⟩ := TableWalk.steps_alike c.cellRules fits
    (TableWalk.start_alike n plan c gated sized) inner inside ran
  have shapes := alike.grid.fitColumns.toShape? (if flow = .paused then some walk.cursor else none) inner
  refine ⟨_, renderTable_ran read nonempty ran', ?_, rfl, alike.text.deferred, alike.text.tracker⟩
  rw [tableBlock, ← alike.cursor]
  exact shapes

end Node

end Unveil
