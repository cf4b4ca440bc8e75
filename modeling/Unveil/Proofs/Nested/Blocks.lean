import Unveil.Proofs.Nested.Ignored

namespace Unveil

open Surroundings (Fit)

theorem modify_eq_self {α : Type} {f : α → α} {i : Nat} {as : List α} (keeps : ∀ a, as[i]? = some a → f a = a) :
    as.modify i f = as := by
  induction as generalizing i with
  | nil => exact List.modify_nil f i
  | cons a rest ih =>
    cases i with
    | zero => rw [List.modify_zero_cons, keeps a rfl]
    | succ i => rw [List.modify_succ_cons, ih keeps]

/-- Nothing changes where the cell stays what it is. -/
theorem Grid.mapCell_eq_self {g : Grid} {row col : Nat} {f : Cell → Cell}
    (keeps : ∀ cell, g.cell? row col = some cell → f cell = cell) : g.mapCell row col f = g := by
  have still (cells : List Cell) (atRow : g.rows[row]? = some cells) : cells.modify col f = cells := by
    refine modify_eq_self fun cell atCol => keeps cell ?_
    rw [cell?, atRow, Option.bind_some, atCol]
  rw [mapCell, modify_eq_self still]

namespace TableWalk

/-- Walks over a table of which the second meets a tree without the pauses: they are the same but for what
they put off, and for the text of the cell that was left. -/
structure Matches (rules : InlineRules) (q : Surroundings) (t u : TableWalk) : Prop where
  fit : Fit (.text rules) q t.text.tracker
  grid : u.grid = t.grid
  cursor : u.cursor = t.cursor
  col : u.col = t.col
  text : ∀ body, { u.text with body } = Inline.unpaused { t.text with body }
  fresh : t.text.emitted = false

/-- Results that fail alike or match. -/
inductive EndsMatch (rules : InlineRules) (q : Surroundings) :
    Except DeckError (Flow × TableWalk) → Except DeckError (Flow × TableWalk) → Prop
  | failed (error : DeckError) : EndsMatch rules q (.error error) (.error error)
  | ended (flow : Flow) {t u : TableWalk} (matching : Matches rules q t u) :
    EndsMatch rules q (.ok (flow, t)) (.ok (flow, u))

variable {t u : TableWalk} {rules : InlineRules} {q r : Surroundings} {mode : Mode} {lastCol : Nat}

theorem writeCell_matches (matching : Matches rules q t u) (col : Nat) (nodes : List Node) :
    (u.writeCell rules mode col (Node.unpausedAll q nodes)).1 = (t.writeCell rules mode col nodes).1 ∧
      Matches rules q (t.writeCell rules mode col nodes).2
        (u.writeCell rules mode col (Node.unpausedAll q nodes)).2 := by
  cases atCell : t.grid.cell? t.cursor.row col with
  | none =>
    unfold writeCell
    rw [matching.grid, matching.cursor, atCell]
    exact ⟨rfl, matching⟩
  | some cell =>
    have atCell' : u.grid.cell? u.cursor.row col = some cell := by rw [matching.grid, matching.cursor, atCell]
    have walked := Inline.visitAll_unpaused rules { t.text with body := cell.body } mode matching.fit nodes
    rw [← matching.text] at walked
    rw [writeCell_eq rules mode _ atCell, writeCell_eq rules mode _ atCell', walked]
    refine ⟨rfl, ?_, ?_, ?_, matching.col, fun body => rfl, rfl⟩
    · exact matching.fit.tracker (Inline.visitAll_ignoring { t.text with body := cell.body } mode nodes)
    · simp only [filled, matching.grid, matching.cursor]
      rfl
    · simp only [filled, matching.cursor]
      rfl

/-- A pause that is not counted leaves a table as it is. -/
theorem writeCell_pause (matching : Matches rules q t u) (ignores : t.text.tracker.ignoring = true) (col : Nat)
    {n : Node} (kind : n.kind = .pause) :
    ∃ v, t.writeCell rules mode col [n] = (.completed, v) ∧ Matches rules q v u := by
  cases atCell : t.grid.cell? t.cursor.row col with
  | none =>
    unfold writeCell
    rw [atCell]
    exact ⟨t, rfl, matching⟩
  | some cell =>
    have met : Inline.visitAll rules { t.text with body := cell.body } mode [n] =
        (.completed, { t.text with body := cell.body }) := by
      rw [Inline.visitAll_singleton]
      exact Inline.visit_pause mode kind ignores
    rw [writeCell_eq rules mode _ atCell, met]
    refine ⟨_, rfl, matching.fit, ?_, ?_, matching.col, ?_, rfl⟩
    · have still : t.grid.mapCell t.cursor.row col (fun old => { old with body := cell.body }) = t.grid := by
        refine Grid.mapCell_eq_self fun old atOld => ?_
        rw [Option.some.inj (atOld.symm.trans atCell)]
      exact matching.grid.trans still.symm
    · simp only [filled, matching.fresh, Bool.or_false, matching.cursor]
    · intro body
      have text := matching.text body
      rw [text]
      simp only [filled, matching.fresh]

theorem spanCell_matches (matching : Matches rules q t u) (n : Node) {col : Nat} (inside : col ≤ lastCol) :
    (∃ error, t.spanCell n col lastCol = .error error ∧ u.spanCell (n.unpaused q) col lastCol = .error error) ∨
      ∃ v w, t.spanCell n col lastCol = .ok v ∧ u.spanCell (n.unpaused q) col lastCol = .ok w ∧
        Matches rules q v w := by
  have span : (n.unpaused q).columnSpan = n.columnSpan := by
    rw [Node.columnSpan, Node.unpaused_payload, Node.columnSpan]
  rw [spanCell_eq t n inside, spanCell_eq u (n.unpaused q) inside, Node.unpaused_params, span]
  cases ColumnPlan.readCell n.params with
  | error fault => exact .inl ⟨_, rfl, rfl⟩
  | ok found =>
    refine .inr ⟨_, _, rfl, rfl, matching.fit, ?_, matching.cursor, ?_, matching.text, matching.fresh⟩
    · simp only [matching.grid, matching.cursor]
    · simp only [matching.col]

/-- A child of a table is met in the same way without its pauses. -/
theorem step_matches (matching : Matches rules q t u) {n : Node} (kept : ¬(q = .putOff ∧ n.kind = .pause)) :
    EndsMatch rules q (t.step rules mode lastCol n) (u.step rules mode lastCol (n.unpaused q)) := by
  have written {v w : TableWalk} (same : Matches rules q v w) (col : Nat) :
      EndsMatch rules q (.ok (v.writeCell rules mode col [n])) (.ok (w.writeCell rules mode col [n.unpaused q])) := by
    obtain ⟨flow, state⟩ := @writeCell_matches v w rules q mode same col [n]
    rw [Node.unpausedAll_kept kept, Node.unpausedAll] at flow state
    generalize w.writeCell rules mode col [n.unpaused q] = other at flow state
    generalize v.writeCell rules mode col [n] = found at flow state
    obtain ⟨ended, after⟩ := found
    obtain ⟨_, after'⟩ := other
    obtain rfl : _ = ended := flow
    exact .ended _ state
  have line (row : Nat) : (n.unpaused q).partialLine row lastCol = n.partialLine row lastCol := by
    rw [Node.partialLine, Node.namedColumns?, Node.unpaused_content?, ← Node.namedColumns?, ← Node.partialLine]
  unfold step
  rw [Node.unpaused_kind, matching.col, matching.cursor, matching.grid]
  cases kind : n.kind
  case tableColumn => exact .ended _ ⟨matching.fit, rfl, rfl, rfl, matching.text, matching.fresh⟩
  case tableRow =>
    simp only [nextRow, matching.cursor]
    exact .ended _ ⟨matching.fit, matching.grid, rfl, rfl, matching.text, matching.fresh⟩
  case hline => exact .ended _ ⟨matching.fit, rfl, rfl, rfl, matching.text, matching.fresh⟩
  case cline =>
    simp only [line]
    rcases n.partialLine t.cursor.row lastCol with error | _ | drawn
    · exact .failed error
    · exact .ended _ matching
    · have drew := congrArg (Grid.addPartial · drawn) matching.grid
      exact .ended _ ⟨matching.fit, drew, matching.cursor, matching.col, matching.text, matching.fresh⟩
  case multiColumn =>
    rcases @spanCell_matches t u rules q lastCol matching n _ (Nat.min_le_right t.col lastCol) with
      ⟨error, failed, failed'⟩ | ⟨v, w, spanned, spanned', same⟩
    · simp only [failed, failed']
      exact .failed error
    · simp only [spanned, spanned']
      exact written same _
  all_goals exact written matching _

/-- The children of a table are met in the same way without the pauses, or fail alike. -/
theorem steps_matches (matching : Matches rules q t u) (nodes : List Node) :
    EndsMatch rules q (t.steps rules mode lastCol nodes)
      (u.steps rules mode lastCol (Node.unpausedAll q nodes)) := by
  induction nodes generalizing t u with
  | nil => exact .ended _ matching
  | cons n rest ih =>
    by_cases left : q = .putOff ∧ n.kind = .pause
    · have ignores : t.text.tracker.ignoring = true := matching.fit.ignores left.1
      have met : t.step rules mode lastCol n = .ok (t.writeCell rules mode (min t.col lastCol) [n]) := by
        simp only [step, left.2]
      obtain ⟨v, same, still⟩ := @writeCell_pause t u rules q mode matching ignores (min t.col lastCol) n left.2
      have after := ih still
      rw [left.1, Node.unpausedAll_pause left.2, ← left.1, steps, met, same]
      exact after
    · have first := @step_matches t u rules q mode lastCol matching n left
      rw [Node.unpausedAll_kept left, steps, steps]
      generalize t.step rules mode lastCol n = found at first
      generalize u.step rules mode lastCol (n.unpaused q) = other at first
      cases first with
      | failed error => exact .failed error
      | ended flow still =>
        cases flow with
        | completed => exact ih still
        | paused => exact .ended _ still

theorem Matches.tracker (matching : Matches rules q t u) : u.text.tracker = t.text.tracker := by
  have same := congrArg Inline.tracker (matching.text default)
  exact same

theorem Matches.deferred (matching : Matches rules q t u) :
    u.text.deferred = t.text.deferred.map Deferred.unpaused := by
  have same := congrArg Inline.deferred (matching.text default)
  exact same

theorem start_matches {n : Node} (inside : q.inside n.kind = some r) (plan : ColumnPlan) (c : Context)
    {tracker : Tracker} (fit : Fit (.text rules) r tracker) (faces : FaceStack) :
    Matches rules r (start n plan c tracker faces) (start (n.unpaused q) plan c tracker faces) := by
  have rows : (n.unpaused q).rowCount = n.rowCount := by
    rw [Node.rowCount, Node.unpaused_children inside,
      Node.unpausedAll_filter r (by decide : NodeKind.tableRow ≠ .pause), Node.rowCount]
  refine ⟨fit, ?_, rfl, rfl, fun body => rfl, rfl⟩
  rw [start, start, rows]

end TableWalk

namespace DescriptionWalk

/-- The walk as it goes over a tree without the pauses. -/
def unpaused (d : DescriptionWalk) : DescriptionWalk := { d with text := d.text.unpaused }

variable (rules : InlineRules) {q : Surroundings} (d : DescriptionWalk) (face : Face) (mode : Mode)

theorem item_ignoring (n : Node) (ignores : d.text.tracker.ignoring = true) :
    (d.item rules face mode n).2.text.tracker.ignoring = true := by
  have gated : (mode.gate n d.text.tracker).2.ignoring = true := (mode.gate_ignoring n _).trans ignores
  unfold item
  dsimp only
  split
  · exact gated
  · exact Inline.visitAll_ignoring _ _ n.children gated

theorem item_unpaused (fit : Fit (.text rules) q d.text.tracker) {n : Node} (kind : n.kind = .item) :
    d.unpaused.item rules face mode (n.unpaused q) = Prod.map id unpaused (d.item rules face mode n) := by
  have inside : q.inside n.kind = some q := by
    rw [kind]
    exact fit.walked rfl
  have gated : d.unpaused.text.gate (n.unpaused q) mode = ((d.text.gate n mode).1, (d.text.gate n mode).2.unpaused) :=
    d.text.gate_unpaused q n mode
  have term : d.unpaused.writeTerm face d.unpaused.nextRow (n.unpaused q).params (d.text.gate n mode).1 =
      d.writeTerm face d.nextRow n.params (d.text.gate n mode).1 := by
    rw [Node.unpaused_params]
    rfl
  cases atCell : (d.writeTerm face d.nextRow n.params (d.text.gate n mode).1).2.cell? d.nextRow 1 with
  | none =>
    have missing : (d.unpaused.writeTerm face d.unpaused.nextRow (n.unpaused q).params
        (d.unpaused.text.gate (n.unpaused q) mode).1).2.cell? d.unpaused.nextRow 1 = none := by
      rw [gated, term]
      exact atCell
    rw [item_none rules atCell, item_none rules missing, gated, term]
    rfl
  | some cell =>
    have atOther : (d.unpaused.writeTerm face d.unpaused.nextRow (n.unpaused q).params
        (d.unpaused.text.gate (n.unpaused q) mode).1).2.cell? d.unpaused.nextRow 1 = some cell := by
      rw [gated, term]
      exact atCell
    have walked := Inline.visitAll_unpaused rules { (d.text.gate n mode).2 with body := cell.body }
      (d.text.gate n mode).1 (fit.gate mode n) n.children
    rw [item_some rules atCell, item_some rules atOther, gated, term, Node.unpaused_children inside]
    dsimp only [Inline.unpaused] at walked ⊢
    rw [walked]
    rfl

/-- The items of a description list are met in the same way without the pauses. -/
theorem steps_unpaused (fit : Fit (.text rules) q d.text.tracker) (nodes : List Node) :
    d.unpaused.steps rules face mode (Node.unpausedAll q nodes) =
      Prod.map id unpaused (d.steps rules face mode nodes) := by
  induction nodes generalizing d with
  | nil => rfl
  | cons n rest ih =>
    by_cases left : q = .putOff ∧ n.kind = .pause
    · have met : d.text.meetPause = (.completed, d.text) := Inline.meetPause_ignoring (fit.ignores left.1)
      rw [left.1, Node.unpausedAll_pause left.2, ← left.1, ih d fit, steps]
      simp only [left.2, met]
    · rw [Node.unpausedAll_kept left, steps, steps, Node.unpaused_kind]
      cases kind : n.kind
      case item =>
        have after := fit.tracker (d.item_ignoring rules face mode n)
        simp only [d.item_unpaused rules face mode fit kind]
        generalize d.item rules face mode n = found at after
        obtain ⟨flow, e⟩ := found
        cases flow with
        | completed => exact ih e after
        | paused => rfl
      case pause =>
        -- it counts only if nothing is left out here
        have own : q = .text rules := fit.resolve_right fun off => left ⟨off.1, kind⟩
        have met : d.unpaused.text.meetPause = Prod.map id Inline.unpaused d.text.meetPause := rfl
        simp only [met]
        generalize d.text.meetPause = found
        obtain ⟨flow, text⟩ := found
        cases flow with
        | completed => exact ih { d with text } (.inl own)
        | paused => rfl
      all_goals exact ih d fit

end DescriptionWalk

/-- The block as it is rendered from a tree without the pauses. -/
def Block.unpaused (b : Block) : Block := { b with deferred := b.deferred.map Deferred.unpaused }

namespace Node

variable {q : Surroundings} {n : Node} {c : Context} {tracker : Tracker}

theorem renderTable_unpaused (fit : Fit (.content c.policy) q tracker) (kind : n.kind = .tabular) (faces : FaceStack)
    (mode : Mode) :
    (n.unpaused q).renderTable c tracker faces mode = (n.renderTable c tracker faces mode).map Block.unpaused := by
  have below : Surroundings.inside (.content c.policy) n.kind = some (.text c.cellRules) := by
    rw [kind]
    rfl
  obtain ⟨r, inside, fits⟩ := fit.inside below
  rcases read : ColumnPlan.read n.params with fault | plan
  · have read' : ColumnPlan.read (n.unpaused q).params = .error fault := by rw [unpaused_params, read]
    rw [renderTable_unread read, renderTable_unread read']
    rfl
  · have read' : ColumnPlan.read (n.unpaused q).params = .ok plan := by rw [unpaused_params, read]
    by_cases bare : plan.columns = []
    · rw [renderTable_noColumns read bare, renderTable_noColumns read' bare, unpaused_params]
      rfl
    · rw [renderTable_of_read read bare, renderTable_of_read read' bare, Mode.gate_unpaused, unpaused_children inside]
      have start := TableWalk.start_matches inside plan c (fits.gate mode n) faces
      have ends := @TableWalk.steps_matches _ _ _ _ (mode.gate n tracker).1 ((plan.toColumns c).length - 1) start
        n.children
      generalize TableWalk.steps _ c.cellRules _ _ n.children = found at ends ⊢
      generalize TableWalk.steps _ c.cellRules _ _ (unpausedAll r n.children) = other at ends ⊢
      cases ends with
      | failed => rfl
      | ended flow same =>
        simp only [Except.map, tableBlock, same.grid, same.cursor, same.deferred, same.tracker]
        rfl

theorem renderDescription_unpaused (fit : Fit (.content c.policy) q tracker) (kind : n.kind = .list .description)
    (faces : FaceStack) (mode : Mode) :
    (n.unpaused q).renderDescription c tracker faces mode = (n.renderDescription c tracker faces mode).unpaused := by
  have below : Surroundings.inside (.content c.policy) n.kind = some (.text c.cellRules) := by
    rw [kind]
    rfl
  obtain ⟨r, inside, fits⟩ := fit.inside below
  have items : (n.unpaused q).itemCount = n.itemCount := by
    rw [itemCount, unpaused_children inside, unpausedAll_filter r (by decide : NodeKind.item ≠ .pause), itemCount]
  have walked := (DescriptionWalk.start n c (mode.gate n tracker).2 faces).steps_unpaused c.cellRules faces.current
    (mode.gate n tracker).1 (fits.gate mode n) n.children
  unfold renderDescription
  rw [Mode.gate_unpaused, unpaused_children inside, items]
  dsimp only [DescriptionWalk.start, DescriptionWalk.unpaused, Inline.ofFaces_unpaused] at walked ⊢
  rw [walked]
  rfl

/-- A list of the slide is not put off. -/
theorem renderList_unpaused {list : ListKind} (fit : Fit (.content c.policy) q tracker) (kind : n.kind = .list list)
    (native : list ≠ .description) (faces : FaceStack) (mode : Mode) :
    (n.unpaused q).renderList c tracker faces mode = (n.renderList c tracker faces mode).unpaused := by
  have below : Surroundings.inside (.content c.policy) n.kind = some (.text c.listRules) := by
    rw [kind]
    cases list
    · rfl
    · rfl
    · exact absurd rfl native
  have walks : c.listRules.putsOff n.kind = false := by
    rw [kind]
    cases list
    · rfl
    · rfl
    · exact absurd rfl native
  obtain ⟨r, inside, fits⟩ := fit.inside below
  have same : n.unpaused q = n.unpaused r := unpaused_congr (inside.trans (fits.walked walks).symm)
  have visited := Inline.visit_unpaused c.listRules (.ofFaces tracker faces (.ofSize faces.current.size)) mode fits n
  unfold renderList
  rw [same]
  rw [Inline.ofFaces_unpaused] at visited
  rw [visited]
  rfl

theorem renderImage_unpaused (q : Surroundings) (n : Node) (c : Context) (tracker : Tracker) (mode : Mode) :
    (n.unpaused q).renderImage c tracker mode = (n.renderImage c tracker mode).map Block.unpaused := by
  unfold renderImage
  rw [Mode.gate_unpaused, unpaused_content?, unpaused_params]
  dsimp only
  split
  · generalize c.findImage (String.ofList (Text.trim (n.content?.getD "").toList)) = found
    cases found with
    | error => rfl
    | ok => rfl
  · rfl

/-- A block is rendered in the same way without the pauses in blocks that are put off, if the walk counts none in
it should it be such a block itself. A table or a description list is put off as a whole, so that the pauses among
its own children do not count either. -/
theorem renderBlock_unpaused (fit : Fit (.content c.policy) q tracker) (faces : FaceStack) (mode : Mode) :
    (n.unpaused q).renderBlock c tracker faces mode = (n.renderBlock c tracker faces mode).map Block.unpaused := by
  unfold renderBlock
  rw [unpaused_kind]
  cases kind : n.kind with
  | list list =>
    cases list with
    | description => exact congrArg Except.ok (renderDescription_unpaused fit kind faces mode)
    | bullet | numbered => exact congrArg Except.ok (renderList_unpaused fit kind nofun faces mode)
  | tabular => exact renderTable_unpaused fit kind faces mode
  | image => exact renderImage_unpaused q n c tracker mode
  | _ => rfl

end Node

end Unveil
