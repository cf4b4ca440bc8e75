import Unveil.Proofs.Inline.Asks
import Unveil.Proofs.Table.Shape

namespace Unveil

namespace TableWalk

/-- A cell over several columns whose own specification cannot be read, or a partial line that names column zero. -/
def isFaulty (n : Node) : Bool :=
  match n.kind with
  | .multiColumn => (ColumnPlan.readCell n.params matches .error _)
  | .cline => n.NamesZero
  | _ => false

/-- A child at which the walk goes on, or pauses, is none of them. -/
theorem Stepped.sound {t u : TableWalk} {rules : InlineRules} {mode : Mode} {lastCol : Nat} {n : Node} {flow : Flow}
    (stepped : Stepped t rules mode lastCol n flow u) : isFaulty n = false := by
  have named {row : Nat} {line? : Option PartialLine} (kind : n.kind = .cline)
      (read : n.partialLine row lastCol = .ok line?) : isFaulty n = false := by
    have noZero : ¬n.NamesZero := fun zero => by
      rw [Node.partialLine_of_namesZero zero] at read
      cases read
    simpa only [isFaulty, kind, decide_eq_false_iff_not] using noZero
  cases stepped with
  | column kind | row kind | line kind => simp only [isFaulty, kind]
  | partialLine kind line read => exact named kind read
  | noLine kind read => exact named kind read
  | span kind before spanned =>
    obtain ⟨column, borders, read, _⟩ := spanCell_ok spanned
    simp only [isFaulty, kind, read]
  | cell noRuling noSpan =>
    unfold isFaulty
    split
    · exact absurd ‹_› noSpan
    · rw [‹n.kind = .cline›] at noRuling
      cases noRuling
    · rfl

/-- Only these make a walk fail. -/
theorem step_error {t : TableWalk} {rules : InlineRules} {mode : Mode} {lastCol : Nat} {n : Node} {error : DeckError}
    (ran : t.step rules mode lastCol n = .error error) : isFaulty n = true := by
  unfold step at ran
  cases kind : n.kind <;> simp only [kind] at ran
  case cline =>
    by_contra sane
    have noZero : ¬n.NamesZero := by simpa only [isFaulty, kind, decide_eq_true_iff] using sane
    rw [Node.partialLine_of_not noZero] at ran
    cases ran
  case multiColumn =>
    rw [spanCell_eq t n (Nat.min_le_right _ _)] at ran
    cases read : ColumnPlan.readCell n.params with
    | error fault => simp only [isFaulty, kind, read]
    | ok found =>
      rw [read] at ran
      cases ran
  all_goals cases ran

/-- What a child of a table asks. -/
def asks (rules : InlineRules) (n : Node) : List Ask :=
  if isFaulty n then [.fault] else if n.kind.isRuling then [] else Inline.asksAll rules [n]

def asksAll (rules : InlineRules) (nodes : List Node) : List Ask := nodes.flatMap (asks rules)

theorem Fits.writeCell {t : TableWalk} {rows lastCol col : Nat} {left : List Node}
    (fits : t.Fits rows lastCol left) (inCol : col ≤ lastCol) (rules : InlineRules) (mode : Mode)
    (nodes : List Node) :
    (t.writeCell rules mode col nodes).2.Fits rows lastCol left ∧
      t.text.tracker.answer (Inline.asksAll rules nodes) =
        some ((t.writeCell rules mode col nodes).1, (t.writeCell rules mode col nodes).2.text.tracker) ∧
      (rules.policy = .asText →
        (t.writeCell rules mode col nodes).2.text.deferred = t.text.deferred) := by
  obtain ⟨cell, atCell⟩ := fits.cell?_isSome inCol
  rw [writeCell_eq rules mode nodes atCell]
  refine ⟨⟨fits.shape.mapCell _ _ _, fits.room⟩, ?_, fun asText => ?_⟩
  · exact Inline.answer_asksAll rules { t.text with body := cell.body } mode nodes
  · exact Inline.visitAll_deferred asText { t.text with body := cell.body } mode nodes

/-- What a step over a child does to the walk, as far as the tracker and the shape of the grid go. -/
structure Answers (rules : InlineRules) (rows lastCol : Nat) (asked : List Ask) (left : List Node)
    (t : TableWalk) (flow : Flow) (u : TableWalk) : Prop where
  fits : u.Fits rows lastCol left
  answer : t.text.tracker.answer asked = some (flow, u.text.tracker)
  deferred : rules.policy = .asText → u.text.deferred = t.text.deferred

/-- A step that only moves the cursor or draws a line. -/
theorem Answers.quiet {rules : InlineRules} {rows lastCol : Nat} {left : List Node} {t u : TableWalk}
    (fits : u.Fits rows lastCol left) (text : u.text = t.text) :
    Answers rules rows lastCol [] left t .completed u :=
  ⟨fits, by rw [text]; rfl, fun _ => by rw [text]⟩

theorem step_answers {rules : InlineRules} {mode : Mode} {rows lastCol : Nat} {n : Node}
    {left : List Node} {t u : TableWalk} {flow : Flow} (fits : t.Fits rows lastCol (n :: left))
    (stepped : t.step rules mode lastCol n = .ok (flow, u)) :
    Answers rules rows lastCol (asks rules n) left t flow u := by
  have room := fits.room
  have last : min t.col lastCol ≤ lastCol := Nat.min_le_right _ _
  have kept (plain : n.kind ≠ .tableRow) : t.cursor.row + rowsLeft left < rows := by
    simpa [rowsLeft, plain] using room
  have sound := (step_cases stepped).sound
  have ruling (kind : n.kind.isRuling = true) : asks rules n = [] := by simp [asks, sound, kind]
  cases step_cases stepped with
  | column kind =>
    rw [ruling (by simp [kind, NodeKind.isRuling])]
    exact .quiet ⟨fits.shape, kept (by simp [kind])⟩ rfl
  | row kind =>
    rw [ruling (by simp [kind, NodeKind.isRuling])]
    refine .quiet ⟨fits.shape, ?_⟩ rfl
    simp only [rowsLeft, kind, List.filter_cons, decide_true, if_true, List.length_cons] at room
    simp only [nextRow, rowsLeft]
    omega
  | line kind =>
    rw [ruling (by simp [kind, NodeKind.isRuling])]
    exact .quiet ⟨⟨fits.shape.rows, fits.shape.cols⟩, kept (by simp [kind])⟩ rfl
  | partialLine kind =>
    rw [ruling (by simp [kind, NodeKind.isRuling])]
    exact .quiet ⟨⟨fits.shape.rows, fits.shape.cols⟩, kept (by simp [kind])⟩ rfl
  | noLine kind =>
    rw [ruling (by simp [kind, NodeKind.isRuling])]
    exact .quiet ⟨fits.shape, kept (by simp [kind])⟩ rfl
  | span kind before spanned =>
    have start : t.Fits rows lastCol left := ⟨fits.shape, kept (by simp [kind])⟩
    obtain ⟨same, text, _⟩ := start.spanCell spanned
    obtain ⟨after, answer, deferred⟩ := same.writeCell last rules mode [n]
    have asked : asks rules n = Inline.asksAll rules [n] := by
      simp [asks, sound, kind, NodeKind.isRuling]
    exact ⟨after, asked ▸ text ▸ answer, text ▸ deferred⟩
  | cell noRuling noSpan =>
    have plain : n.kind ≠ .tableRow := by
      intro kind
      simp [kind, NodeKind.isRuling] at noRuling
    have start : t.Fits rows lastCol left := ⟨fits.shape, kept plain⟩
    obtain ⟨after, answer, deferred⟩ := start.writeCell last rules mode [n]
    have asked : asks rules n = Inline.asksAll rules [n] := by
      simp [asks, sound, noRuling]
    exact ⟨after, asked ▸ answer, deferred⟩

theorem steps_answers {rules : InlineRules} {mode : Mode} {rows lastCol : Nat} {nodes : List Node}
    {t u : TableWalk} {flow : Flow} (fits : t.Fits rows lastCol nodes)
    (stepped : t.steps rules mode lastCol nodes = .ok (flow, u)) :
    t.text.tracker.answer (asksAll rules nodes) = some (flow, u.text.tracker) ∧
      (rules.policy = .asText → u.text.deferred = t.text.deferred) := by
  induction nodes generalizing t with
  | nil =>
    cases Except.ok.inj stepped
    exact ⟨rfl, fun _ => rfl⟩
  | cons n rest ih =>
    simp only [asksAll, List.flatMap_cons]
    rcases steps_cons stepped with ⟨before, first, stepped⟩ | ⟨first, rfl⟩
    · have answers := step_answers fits first
      obtain ⟨answer, deferred⟩ := ih answers.fits stepped
      exact ⟨(Tracker.answer_append_completed answers.answer _).trans answer,
        fun asText => (deferred asText).trans (answers.deferred asText)⟩
    · have answers := step_answers fits first
      exact ⟨Tracker.answer_append_paused answers.answer _, answers.deferred⟩

end TableWalk

namespace Node

/-- What a table asks: first its own overlay, then what its cells ask. -/
def tableAsks (policy : NestedPolicy) (n : Node) : List Ask :=
  Ask.gate n ++
    match ColumnPlan.read n.params with
    | .error _ => [.fault]
    | .ok plan =>
      if plan.columns.isEmpty then [.fault] else TableWalk.asksAll ⟨policy, false⟩ n.children

/-- What a table asks does not depend on what its grid shows: no cell is missing, so no child is passed over. -/
theorem renderTable_answers {n : Node} {c : Context} {tracker : Tracker} {faces : FaceStack}
    {mode : Mode} {block : Block} (rendered : n.renderTable c tracker faces mode = .ok block) :
    tracker.answer (tableAsks c.policy n) = some (block.flow, block.tracker) ∧
      (c.policy = .asText → block.deferred = []) := by
  obtain ⟨plan, flow, walk, read, nonempty, ran, rfl⟩ := renderTable_ok rendered
  have fits := TableWalk.start_fits n c (mode.gate n tracker).2 faces nonempty
  obtain ⟨answer, deferred⟩ := TableWalk.steps_answers fits ran
  refine ⟨?_, deferred⟩
  rw [tableAsks, Tracker.answer_gate_append tracker mode, read]
  have listed : plan.columns.isEmpty = false := by simpa using nonempty
  simp only [listed, Bool.false_eq_true, if_false]
  exact answer

end Node

end Unveil
