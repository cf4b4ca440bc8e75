import Unveil.Proofs.Slide.Failure
import Unveil.Proofs.Table.Covered

namespace Unveil

namespace TableWalk

variable {t u : TableWalk} {rules : InlineRules} {mode : Mode} {lastCol : Nat} {n : Node} {nodes rest : List Node}

/-- Of all children only a partial line that names column zero ends the run. The columns of a line are counted
from 0 before they are compared, whereas the span of a cell is brought into its range first. -/
theorem step_aborted_iff (t : TableWalk) (rules : InlineRules) (mode : Mode) (lastCol : Nat) (n : Node) :
    t.step rules mode lastCol n = .error .aborted ↔ n.kind = .cline ∧ n.NamesZero := by
  by_cases kind : n.kind = .cline
  · have drawn : t.step rules mode lastCol n =
        (n.partialLine t.cursor.row lastCol).map fun line => (.completed, t.drawPartial line) := by
      simp only [step, kind]
    rw [drawn, map_eq_error_iff]
    by_cases zero : n.NamesZero
    · exact iff_of_true (Node.partialLine_of_namesZero zero) ⟨kind, zero⟩
    · rw [Node.partialLine_of_not zero]
      exact iff_of_false nofun fun both => zero both.2
  · refine iff_of_false (fun failed => ?_) fun both => kind both.1
    unfold step at failed
    split at failed
    case h_4 line => exact kind line
    case h_5 =>
      -- the differences of a cell are counts, so that it fails over its own specification if at all
      rw [map_eq_error_iff, spanCell_eq t n (Nat.min_le_right _ _), map_eq_error_iff] at failed
      cases read : ColumnPlan.readCell n.params <;> rw [read] at failed <;> cases failed
    all_goals cases failed

/-- The walk gets to a partial line that names column zero. -/
def MeetsZero (t : TableWalk) (rules : InlineRules) (mode : Mode) (lastCol : Nat) (nodes : List Node) : Prop :=
  ∃ before line after u, nodes = before ++ line :: after ∧ line.kind = .cline ∧ line.NamesZero ∧
    t.steps rules mode lastCol before = .ok (.completed, u)

theorem MeetsZero.here (kind : n.kind = .cline) (zero : n.NamesZero) :
    t.MeetsZero rules mode lastCol (n :: rest) := ⟨[], n, rest, t, rfl, kind, zero, rfl⟩

theorem MeetsZero.later (stepped : t.step rules mode lastCol n = .ok (.completed, u))
    (met : u.MeetsZero rules mode lastCol rest) : t.MeetsZero rules mode lastCol (n :: rest) := by
  obtain ⟨before, line, after, v, rfl, kind, zero, ran⟩ := met
  refine ⟨n :: before, line, after, v, rfl, kind, zero, ?_⟩
  rw [steps, stepped]
  exact ran

theorem MeetsZero.cons (met : t.MeetsZero rules mode lastCol (n :: rest)) :
    n.kind = .cline ∧ n.NamesZero ∨
      ∃ u, t.step rules mode lastCol n = .ok (.completed, u) ∧ u.MeetsZero rules mode lastCol rest := by
  obtain ⟨before, line, after, v, nodes, kind, zero, ran⟩ := met
  cases before with
  | nil =>
    cases nodes
    exact .inl ⟨kind, zero⟩
  | cons first before =>
    cases nodes
    rcases steps_cons ran with ⟨u, stepped, ran⟩ | ⟨_, paused⟩
    · exact .inr ⟨u, stepped, before, line, after, v, rfl, kind, zero, ran⟩
    · cases paused

/-- A walk ends the run exactly where it meets such a line. -/
theorem steps_aborted_iff (t : TableWalk) (rules : InlineRules) (mode : Mode) (lastCol : Nat) (nodes : List Node) :
    t.steps rules mode lastCol nodes = .error .aborted ↔ t.MeetsZero rules mode lastCol nodes := by
  induction nodes generalizing t with
  | nil =>
    refine iff_of_false nofun fun ⟨before, line, after, _, nodes, _⟩ => ?_
    cases before <;> cases nodes
  | cons n rest ih =>
    constructor
    · intro failed
      rw [steps] at failed
      rcases stepped : t.step rules mode lastCol n with error | ⟨_ | _, u⟩
      · rw [stepped] at failed
        have aborted := stepped.trans (congrArg Except.error (Except.error.inj failed))
        obtain ⟨kind, zero⟩ := (step_aborted_iff ..).mp aborted
        exact .here kind zero
      · rw [stepped] at failed
        exact .later stepped ((ih u).mp failed)
      · rw [stepped] at failed
        cases failed
    · intro met
      rw [steps]
      rcases met.cons with here | ⟨u, stepped, met⟩
      · rw [(step_aborted_iff ..).mpr here]
      · rw [stepped]
        exact (ih u).mpr met

end TableWalk

namespace Node

variable {n : Node} {c : Context} {tracker : Tracker} {faces : FaceStack} {mode : Mode} {lastCol : Nat}

/-- The walk over the children of a table meets a line that names column zero. -/
def MeetsZero (n : Node) (c : Context) (tracker : Tracker) (faces : FaceStack) (mode : Mode) : Prop :=
  ∃ plan, ColumnPlan.read n.params = .ok plan ∧ plan.columns ≠ [] ∧
    (TableWalk.start n plan c (mode.gate n tracker).2 faces).MeetsZero c.cellRules (mode.gate n tracker).1
      ((plan.toColumns c).length - 1) n.children

theorem MeetsZero.namesZero (met : n.MeetsZero c tracker faces mode) :
    ∃ line ∈ n.children, line.kind = .cline ∧ line.NamesZero := by
  obtain ⟨_, _, _, before, line, after, _, children, kind, zero, _⟩ := met
  exact ⟨line, children ▸ List.mem_append_right before (.head after), kind, zero⟩

theorem renderTable_eq_aborted_iff :
    n.renderTable c tracker faces mode = .error .aborted ↔ n.MeetsZero c tracker faces mode := by
  rcases read : ColumnPlan.read n.params with fault | plan
  · rw [renderTable_unread read]
    refine iff_of_false nofun fun ⟨_, found, _⟩ => ?_
    cases read.symm.trans found
  · by_cases bare : plan.columns = []
    · rw [renderTable_noColumns read bare]
      refine iff_of_false nofun fun ⟨_, found, columns, _⟩ => ?_
      cases read.symm.trans found
      exact columns bare
    · rw [renderTable_of_read read bare, map_eq_error_iff, TableWalk.steps_aborted_iff]
      refine ⟨fun met => ⟨plan, read, bare, met⟩, fun ⟨_, found, _, met⟩ => ?_⟩
      cases read.symm.trans found
      exact met

/-- A table that does not end the run is rendered, or it fails over a specification of columns. -/
theorem renderTable_returns (going : n.renderTable c tracker faces mode ≠ .error .aborted) :
    (∃ block, n.renderTable c tracker faces mode = .ok block) ∨
      ∃ fault, n.renderTable c tracker faces mode = .error (.columns fault) := by
  rcases rendered : n.renderTable c tracker faces mode with error | block
  · -- a table looks for no image, so any finder will do
    have cause : Cause (fun _ => .ok default) error := renderTable_cause rendered
    cases cause with
    | columns fault => exact .inr ⟨fault, rfl⟩
    | aborted => exact absurd rendered going
    | image missing => cases missing
  · exact .inl ⟨block, rfl⟩

/-- A cell that asks for a positive whole number of columns. -/
def namesSpan (n : Node) : Bool := (n.payload.bind Payload.number?).any fun x => 1.0 ≤ x && isWhole x

theorem columnSpan_of_not (unnamed : n.namesSpan = false) : n.columnSpan = 1 := by
  unfold namesSpan at unnamed
  unfold columnSpan
  rcases spelled : n.payload.bind Payload.number? with _ | x
  · rfl
  · rw [spelled] at unnamed
    exact if_neg (by simpa using unnamed)

/-- What is heeded of a child: nothing of a line that is ignored, and no span that is not a positive whole
number. -/
def heeded? (lastCol : Nat) (n : Node) : Option Node :=
  match n.kind with
  | .cline =>
    match n.partialLine 0 lastCol with
    | .ok none => none
    | _ => some n
  | .multiColumn => some (if n.namesSpan then n else { n with payload := none })
  | _ => some n

/-- A table without what is ignored of its lines and spans. -/
def heeded (n : Node) (lastCol : Nat) : Node := { n with children := n.children.filterMap (heeded? lastCol) }

/-- Everything that is heeded of a child. -/
inductive Heeds (lastCol : Nat) (n : Node) : Option Node → Prop
  | whole : Heeds lastCol n (some n)
  | noLine (kind : n.kind = .cline) (ignored : ∀ row, n.partialLine row lastCol = .ok none) : Heeds lastCol n none
  | noSpan (kind : n.kind = .multiColumn) (unnamed : n.namesSpan = false) :
    Heeds lastCol n (some { n with payload := none })

/-- A line that is ignored in the first row is ignored in every row. -/
theorem partialLine_ignored (ignored : n.partialLine 0 lastCol = .ok none) (row : Nat) :
    n.partialLine row lastCol = .ok none := by
  by_cases zero : n.NamesZero
  · rw [partialLine_of_namesZero zero] at ignored
    cases ignored
  · rw [partialLine_of_not zero] at ignored ⊢
    refine congrArg Except.ok (Option.bind_eq_none_iff.mpr fun named found => ?_)
    have undrawn := Option.bind_eq_none_iff.mp (Except.ok.inj ignored) named found
    split at undrawn
    · cases undrawn
    · exact if_neg ‹_›

theorem heeded?_heeds (n : Node) (lastCol : Nat) : n.Heeds lastCol (n.heeded? lastCol) := by
  unfold heeded?
  split
  · rename_i kind
    split
    · rename_i ignored
      exact .noLine kind (partialLine_ignored ignored)
    · exact .whole
  · rename_i kind
    split
    · exact .whole
    · rename_i unnamed
      exact .noSpan kind (by simpa using unnamed)
  · exact .whole

end Node

namespace TableWalk

variable {rules : InlineRules} {mode : Mode} {lastCol : Nat} {n : Node}

theorem step_ignored (t : TableWalk) (kind : n.kind = .cline)
    (ignored : ∀ row, n.partialLine row lastCol = .ok none) : t.step rules mode lastCol n = .ok (.completed, t) := by
  simp only [step, kind, ignored]
  rfl

theorem step_spanless (t : TableWalk) (kind : n.kind = .multiColumn) (unnamed : n.namesSpan = false) :
    t.step rules mode lastCol { n with payload := none } = t.step rules mode lastCol n := by
  have one : ({ n with payload := none } : Node).columnSpan = n.columnSpan := by
    rw [Node.columnSpan_of_not unnamed]
    rfl
  rcases n with ⟨_, overlay, params, payload, children⟩
  cases kind
  -- a walk over text reads no span
  have same (u : TableWalk) (col : Nat) :
      u.writeCell rules mode col [⟨.multiColumn, overlay, params, none, children⟩] =
        u.writeCell rules mode col [⟨.multiColumn, overlay, params, payload, children⟩] := by
    unfold writeCell
    simp only [Inline.visitAll_singleton]
    rfl
  have spanned (col : Nat) : t.spanCell ⟨.multiColumn, overlay, params, none, children⟩ col lastCol =
      t.spanCell ⟨.multiColumn, overlay, params, payload, children⟩ col lastCol := by
    simp only [spanCell, one]
  simp only [step, spanned, same]

/-- What is ignored of the children changes no step of the walk. -/
theorem steps_heeded (t : TableWalk) (rules : InlineRules) (mode : Mode) (lastCol : Nat) (nodes : List Node) :
    t.steps rules mode lastCol (nodes.filterMap (Node.heeded? lastCol)) = t.steps rules mode lastCol nodes := by
  induction nodes generalizing t with
  | nil => rfl
  | cons n rest ih =>
    have heeds := n.heeded?_heeds lastCol
    rw [List.filterMap_cons]
    generalize n.heeded? lastCol = kept at heeds
    cases heeds with
    | whole => simp only [steps, ih]
    | noLine kind ignored => rw [ih, steps, t.step_ignored kind ignored]
    | noSpan kind unnamed => simp only [steps, t.step_spanless kind unnamed, ih]

/-- No separator of rows is ignored. -/
theorem rowsLeft_heeded (lastCol : Nat) (nodes : List Node) :
    rowsLeft (nodes.filterMap (Node.heeded? lastCol)) = rowsLeft nodes := by
  unfold rowsLeft
  induction nodes with
  | nil => rfl
  | cons n rest ih =>
    have heeds := n.heeded?_heeds lastCol
    rw [List.filterMap_cons]
    generalize n.heeded? lastCol = kept at heeds
    cases heeds with
    | whole => simp only [List.filter_cons, apply_ite List.length, List.length_cons, ih]
    | noLine kind => rw [ih, List.filter_cons_of_neg (by simp [kind])]
    | noSpan => simp only [List.filter_cons, apply_ite List.length, List.length_cons, ih]

end TableWalk

namespace Node

variable {n : Node} {c : Context} {tracker : Tracker} {faces : FaceStack} {mode : Mode} {plan : ColumnPlan}

theorem heeded_rowCount (n : Node) (lastCol : Nat) : (n.heeded lastCol).rowCount = n.rowCount :=
  congrArg (· + 1) (TableWalk.rowsLeft_heeded lastCol n.children)

/-- What a table is rendered to does not depend on what is ignored of its children. -/
theorem renderTable_heeded (read : ColumnPlan.read n.params = .ok plan) :
    (n.heeded (plan.columns.length - 1)).renderTable c tracker faces mode = n.renderTable c tracker faces mode := by
  by_cases bare : plan.columns = []
  · rw [renderTable_noColumns read bare]
    exact renderTable_noColumns read bare
  · have start (lastCol : Nat) : TableWalk.start (n.heeded lastCol) plan c (mode.gate n tracker).2 faces =
        TableWalk.start n plan c (mode.gate n tracker).2 faces := by
      rw [TableWalk.start, heeded_rowCount, TableWalk.start]
    rw [← plan.toColumns_length c, renderTable_of_read read bare, ← TableWalk.steps_heeded, ← start]
    exact renderTable_of_read (n := n.heeded _) read bare

/-- Rendering a table ends the run exactly if its walk meets a partial line that names column zero. Every other
table, whatever its children, spans and lines are, is rendered or fails over a specification of columns, and a line
that names no columns of the table, or a span that is no positive whole number, is as if it were not there. -/
theorem renderTable_aborted_iff (n : Node) (c : Context) (tracker : Tracker) (faces : FaceStack) (mode : Mode) :
    (n.renderTable c tracker faces mode = .error .aborted ↔ n.MeetsZero c tracker faces mode) ∧
      ((∀ line ∈ n.children, line.kind = .cline → ¬line.NamesZero) →
        (∃ block, n.renderTable c tracker faces mode = .ok block) ∨
          ∃ fault, n.renderTable c tracker faces mode = .error (.columns fault)) ∧
      ∀ plan, ColumnPlan.read n.params = .ok plan →
        (n.heeded (plan.columns.length - 1)).renderTable c tracker faces mode =
          n.renderTable c tracker faces mode := by
  refine ⟨renderTable_eq_aborted_iff, fun noZero => renderTable_returns fun aborted => ?_,
    fun plan => renderTable_heeded⟩
  obtain ⟨line, inside, kind, zero⟩ := (renderTable_eq_aborted_iff.mp aborted).namesZero
  exact noZero line inside kind zero

/-- A partial line under the columns that are named. -/
def lineUnder (named : String) : Node := ⟨.cline, .none, "", some (.text named), []⟩

/-- A wide cell whose span is a word. -/
def wordyCell : Node := { wideCell with payload := some (.text "two") }

/-- Lines that are reversed, name no columns or start behind the last one, and a span that is no number. -/
def misnamed : Node := threeColumns [lineUnder "3-2", lineUnder "x", lineUnder "9-9", wordyCell]

theorem threeColumns_read : ∃ plan, ColumnPlan.read "lll" = .ok plan ∧ plan.columns.length = 3 :=
  exists_ok_of_decide (by decide +kernel)

/-- All of it is ignored: the table is rendered without a line or a merge, as it is with its cell alone. -/
theorem renderTable_misnamed :
    (misnamed.heeded 2).children.length = 1 ∧
      ∃ block bounds g hidden, misnamed.renderTable plainContext default (.ofBase 22) .visible = .ok block ∧
        (misnamed.heeded 2).renderTable plainContext default (.ofBase 22) .visible = .ok block ∧
        block.shape = some (.single bounds (.table g) hidden) ∧ (g.partials, g.merges) = ([], []) := by
  refine ⟨by decide +kernel, ?_⟩
  obtain ⟨block, bounds, g, hidden, made, shaped, bare⟩ : ∃ block bounds g hidden,
      misnamed.renderPlain = .ok block ∧ block.shape = some (.single bounds (.table g) hidden) ∧
        (g.partials, g.merges) = ([], []) :=
    renderPlain_grid (by decide +kernel)
  obtain ⟨plan, read, columns⟩ := threeColumns_read
  obtain ⟨_, renders, heeded⟩ := renderTable_aborted_iff misnamed plainContext default (.ofBase 22) .visible
  have same := heeded plan read
  rw [columns] at same
  rcases renders (by decide +kernel) with ⟨found, rendered⟩ | ⟨fault, failed⟩
  · cases made.symm.trans rendered
    exact ⟨block, bounds, g, hidden, rendered, same.trans rendered, shaped, bare⟩
  · cases made.symm.trans failed

/-- A table with a line from the first column to column zero. -/
def backToZero : Node := threeColumns [lineUnder "1-0", .ofText "x"]

/-- The first column of the line is not zero, yet the run ends at its last. -/
theorem renderTable_backToZero :
    (lineUnder "1-0").namedColumns? = some (1, 0) ∧
      backToZero.renderTable plainContext default (.ofBase 22) .visible = .error .aborted := by
  obtain ⟨plan, read, columns⟩ := threeColumns_read
  have several : plan.columns ≠ [] := List.ne_nil_of_length_pos (by omega)
  exact ⟨by decide +kernel, renderTable_eq_aborted_iff.mpr ⟨plan, read, several, .here rfl (by decide +kernel)⟩⟩

end Node

end Unveil
