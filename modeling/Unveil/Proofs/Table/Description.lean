import Unveil.Proofs.Table.Asks

namespace Unveil

namespace DescriptionWalk

/-- Items among the children that are still to come. -/
def itemsLeft (nodes : List Node) : Nat := (nodes.filter (·.kind = .item)).length

/-- A walk that has room for the items that are still to come. -/
structure Fits (d : DescriptionWalk) (rows : Nat) (left : List Node) : Prop where
  shape : d.grid.HasShape rows 2
  room : d.nextRow + itemsLeft left ≤ rows

theorem writeTerm_hasShape {d : DescriptionWalk} {rows : Nat} (shape : d.grid.HasShape rows 2)
    (face : Face) (row : Nat) (term : String) (mode : Mode) :
    (d.writeTerm face row term mode).2.HasShape rows 2 := by
  unfold writeTerm
  split
  · exact shape.mapCell _ _ _
  · exact shape

/-- The walk after the text of an item was written into its row. -/
def filled (row : Nat) (term : Bool × Grid) (text : Inline) : DescriptionWalk where
  grid := term.2.mapCell row 1 fun cell => { cell with body := text.body }
  text := { text with emitted := false }
  cursor := some ⟨row, term.1 || text.emitted⟩

@[simp]
theorem filled_nextRow (row : Nat) (term : Bool × Grid) (text : Inline) :
    (filled row term text).nextRow = row + 1 := rfl

/-- What an item comes to whose row is missing. -/
theorem item_none {d : DescriptionWalk} {n : Node} {face : Face} {mode : Mode} (rules : InlineRules)
    (missing : (d.writeTerm face d.nextRow n.params (d.text.gate n mode).1).2.cell? d.nextRow 1 = none) :
    d.item rules face mode n =
      (.completed, { d with
        grid := (d.writeTerm face d.nextRow n.params (d.text.gate n mode).1).2
        text := (d.text.gate n mode).2 }) := by
  unfold item
  simp only [missing]

/-- What an item comes to whose row exists. -/
theorem item_some {d : DescriptionWalk} {n : Node} {face : Face} {mode : Mode} {cell : Cell} (rules : InlineRules)
    (atCell : (d.writeTerm face d.nextRow n.params (d.text.gate n mode).1).2.cell? d.nextRow 1 = some cell) :
    d.item rules face mode n =
      let found := Inline.visitAll rules { (d.text.gate n mode).2 with body := cell.body }
        (d.text.gate n mode).1 n.children
      (found.1, filled d.nextRow
        (d.writeTerm face d.nextRow n.params (d.text.gate n mode).1) found.2) := by
  unfold item
  simp only [atCell]
  rfl

/-- Every item finds its row in a grid that is large enough. -/
theorem item_eq {d : DescriptionWalk} {rows : Nat} (shape : d.grid.HasShape rows 2)
    (inRow : d.nextRow < rows) (rules : InlineRules) (face : Face) (mode : Mode) (n : Node) :
    ∃ cell, (d.writeTerm face d.nextRow n.params (d.text.gate n mode).1).2.cell? d.nextRow 1 =
      some cell ∧
      d.item rules face mode n =
        let found := Inline.visitAll rules { (d.text.gate n mode).2 with body := cell.body }
          (d.text.gate n mode).1 n.children
        (found.1, filled d.nextRow
          (d.writeTerm face d.nextRow n.params (d.text.gate n mode).1) found.2) := by
  have termShape := writeTerm_hasShape shape face d.nextRow n.params (d.text.gate n mode).1
  obtain ⟨cell, atCell⟩ := termShape.cell?_isSome inRow (by decide : 1 < 2)
  exact ⟨cell, atCell, item_some rules atCell⟩

/-- The children of a description list that take part in it. -/
def isEntry (n : Node) : Bool := n.kind = .item || n.kind = .pause

/-- What a child of a description list asks. -/
def asks (rules : InlineRules) (n : Node) : List Ask :=
  match n.kind with
  | .item => Ask.gate n ++ Inline.asksAll rules n.children
  | .pause => [.pause]
  | _ => []

def asksAll (rules : InlineRules) (nodes : List Node) : List Ask := nodes.flatMap (asks rules)

theorem asks_of_not_isEntry (rules : InlineRules) {n : Node} (other : isEntry n = false) :
    asks rules n = [] := by
  obtain ⟨kind, overlay, params, payload, children⟩ := n
  cases kind with
  | item | pause => cases other
  | _ => rfl

/-- An item finds its row. -/
theorem Fits.inRow {d : DescriptionWalk} {rows : Nat} {n : Node} {left : List Node}
    (fits : d.Fits rows (n :: left)) (kind : n.kind = .item) : d.nextRow < rows := by
  have room := fits.room
  simp only [itemsLeft, kind, List.filter_cons, decide_true, if_true, List.length_cons] at room
  omega

/-- Other children need no row. -/
theorem Fits.skip {d : DescriptionWalk} {rows : Nat} {n : Node} {left : List Node}
    (fits : d.Fits rows (n :: left)) (plain : n.kind ≠ .item) (text : Inline) :
    Fits { d with text } rows left :=
  ⟨fits.shape, by simpa [itemsLeft, plain, nextRow] using fits.room⟩

theorem Fits.item {d : DescriptionWalk} {rows : Nat} {n : Node} {left : List Node}
    (fits : d.Fits rows (n :: left)) (kind : n.kind = .item) (rules : InlineRules) (face : Face)
    (mode : Mode) :
    (d.item rules face mode n).2.Fits rows left ∧ (d.item rules face mode n).2.cursor.isSome ∧
      d.text.tracker.answer (asks rules n) =
        some ((d.item rules face mode n).1, (d.item rules face mode n).2.text.tracker) ∧
      (rules.policy = .asText → (d.item rules face mode n).2.text.deferred = d.text.deferred) := by
  have room := fits.room
  simp only [itemsLeft, kind, List.filter_cons, decide_true, if_true, List.length_cons] at room
  obtain ⟨cell, _, ran⟩ := item_eq fits.shape (fits.inRow kind) rules face mode n
  rw [ran]
  refine ⟨⟨(writeTerm_hasShape fits.shape _ _ _ _).mapCell _ _ _, ?_⟩, rfl, ?_, fun asText => ?_⟩
  · rw [filled_nextRow]
    simp only [itemsLeft] at room ⊢
    omega
  · simp only [asks, kind]
    rw [Tracker.answer_gate_append _ mode]
    exact Inline.answer_asksAll rules { (d.text.gate n mode).2 with body := cell.body } _ n.children
  · exact Inline.visitAll_deferred asText { (d.text.gate n mode).2 with body := cell.body } _ n.children

theorem steps_of_not_isEntry {n : Node} (noEntry : isEntry n = false) (d : DescriptionWalk) (rules : InlineRules)
    (face : Face) (mode : Mode) (rest : List Node) :
    d.steps rules face mode (n :: rest) = d.steps rules face mode rest := by
  rw [steps]
  cases kind : n.kind
  case item | pause => simp [isEntry, kind] at noEntry
  all_goals rfl

/-- Everything that a walk over the children of a list can do at the first of them. -/
inductive Goes (d : DescriptionWalk) (rules : InlineRules) (face : Face) (mode : Mode) (n : Node)
    (rest : List Node) : Option RowCursor × DescriptionWalk → Prop
  | item {e : DescriptionWalk} (kind : n.kind = .item) (ran : d.item rules face mode n = (.completed, e)) :
    Goes d rules face mode n rest (e.steps rules face mode rest)
  | cut {e : DescriptionWalk} (kind : n.kind = .item) (ran : d.item rules face mode n = (.paused, e)) :
    Goes d rules face mode n rest (e.cursor, e)
  | pause {text : Inline} (kind : n.kind = .pause) (met : d.text.meetPause = (.completed, text)) :
    Goes d rules face mode n rest (steps { d with text } rules face mode rest)
  | stop {text : Inline} (kind : n.kind = .pause) (met : d.text.meetPause = (.paused, text)) :
    Goes d rules face mode n rest (some ⟨d.nextRow, false⟩, { d with text })
  | other (noEntry : isEntry n = false) : Goes d rules face mode n rest (d.steps rules face mode rest)

theorem steps_goes (d : DescriptionWalk) (rules : InlineRules) (face : Face) (mode : Mode) (n : Node)
    (rest : List Node) : Goes d rules face mode n rest (d.steps rules face mode (n :: rest)) := by
  rw [steps]
  cases kind : n.kind
  case item =>
    simp only
    rcases ran : d.item rules face mode n with ⟨_ | _, e⟩
    · exact .item kind ran
    · exact .cut kind ran
  case pause =>
    simp only
    rcases met : d.text.meetPause with ⟨_ | _, text⟩
    · exact .pause kind met
    · exact .stop kind met
  all_goals exact .other (by simp [isEntry, kind])

/-- What takes no part in a list is no item of it. -/
theorem ne_item_of_not_isEntry {n : Node} (noEntry : isEntry n = false) : n.kind ≠ .item := by
  intro kind
  simp [isEntry, kind] at noEntry

/-- How a walk over the items ended. -/
def flow (pausedAt : Option RowCursor) : Flow := if pausedAt.isSome then .paused else .completed

theorem steps_answers {d : DescriptionWalk} {rows : Nat} {nodes : List Node} (fits : d.Fits rows nodes)
    (rules : InlineRules) (face : Face) (mode : Mode) :
    d.text.tracker.answer (asksAll rules nodes) =
        some (flow (d.steps rules face mode nodes).1, (d.steps rules face mode nodes).2.text.tracker) ∧
      (rules.policy = .asText →
        (d.steps rules face mode nodes).2.text.deferred = d.text.deferred) := by
  induction nodes generalizing d with
  | nil => exact ⟨rfl, fun _ => rfl⟩
  | cons n rest ih =>
    simp only [asksAll, List.flatMap_cons]
    have goes := d.steps_goes rules face mode n rest
    generalize d.steps rules face mode (n :: rest) = found at goes
    have asked (kind : n.kind = .pause) : d.text.tracker.answer (asks rules n) =
        some (d.text.meetPause.1, d.text.meetPause.2.tracker) := by
      simp only [asks, kind]
      exact Tracker.answer_pause _
    have keeps : d.text.meetPause.2.deferred = d.text.deferred := rfl
    cases goes with
    | item kind ran =>
      obtain ⟨after, _, answer, deferred⟩ := fits.item kind rules face mode
      rw [ran] at after answer deferred
      obtain ⟨more, still⟩ := ih after
      exact ⟨(Tracker.answer_append_completed answer _).trans more,
        fun asText => (still asText).trans (deferred asText)⟩
    | cut kind ran =>
      obtain ⟨_, isSome, answer, deferred⟩ := fits.item kind rules face mode
      rw [ran] at isSome answer deferred
      refine ⟨(Tracker.answer_append_paused answer _).trans ?_, deferred⟩
      simp only at isSome
      simp [flow, isSome]
    | pause kind met =>
      have answer := asked kind
      rw [met] at answer keeps
      obtain ⟨more, still⟩ := ih (fits.skip (by simp [kind]) _)
      exact ⟨(Tracker.answer_append_completed answer _).trans more, fun asText => (still asText).trans keeps⟩
    | stop kind met =>
      have answer := asked kind
      rw [met] at answer keeps
      exact ⟨Tracker.answer_append_paused answer _, fun _ => keeps⟩
    | other noEntry =>
      rw [asks_of_not_isEntry rules noEntry, List.nil_append]
      exact ih (fits.skip (ne_item_of_not_isEntry noEntry) d.text)

/-- The walk over a description list before its first child. -/
def start (n : Node) (c : Context) (tracker : Tracker) (faces : FaceStack) : DescriptionWalk :=
  ⟨.empty (Node.descriptionColumns c.area.width) n.itemCount faces.current.size,
    .ofFaces tracker faces default, none⟩

theorem start_fits (n : Node) (c : Context) (tracker : Tracker) (faces : FaceStack) :
    (start n c tracker faces).Fits n.itemCount n.children :=
  ⟨Grid.empty_hasShape _ _ _, by simp [start, nextRow, itemsLeft, Node.itemCount]⟩

end DescriptionWalk

namespace Node

/-- What a description list asks: first its own overlay, then what its children ask. -/
def descriptionAsks (policy : NestedPolicy) (n : Node) : List Ask :=
  Ask.gate n ++ DescriptionWalk.asksAll ⟨policy, false⟩ n.children

theorem renderDescription_answers (n : Node) (c : Context) (tracker : Tracker) (faces : FaceStack)
    (mode : Mode) :
    let block := n.renderDescription c tracker faces mode
    tracker.answer (descriptionAsks c.policy n) = some (block.flow, block.tracker) ∧
      (c.policy = .asText → block.deferred = []) := by
  have fits := DescriptionWalk.start_fits n c (mode.gate n tracker).2 faces
  obtain ⟨answer, deferred⟩ :=
    DescriptionWalk.steps_answers fits c.cellRules faces.current (mode.gate n tracker).1
  refine ⟨?_, deferred⟩
  rw [descriptionAsks, Tracker.answer_gate_append tracker mode]
  exact answer

end Node

end Unveil
