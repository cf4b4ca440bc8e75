import Unveil.Proofs.Reveal.Blocks
import Unveil.Proofs.Table.Intact

namespace Unveil

/-- An entry that does not pass is not seen by a filter. -/
theorem Ascending.filter_insert {p : Nat → Bool} {x : Nat} (out : p x = false) (xs : List Nat) :
    (insert x xs).filter p = xs.filter p := by
  induction xs with
  | nil => simp [insert, out]
  | cons y ys ih =>
    unfold insert
    split
    · rw [List.filter_cons_of_neg (by simp [out])]
    · split
      · rw [List.filter_cons, ih, List.filter_cons]
      · rfl

namespace Grid

/-- Narrower columns keep their alignment. -/
theorem fitColumns_aligns (g : Grid) : g.fitColumns.columns.map Column.align = g.columns.map Column.align := by
  have firsts : g.columns.zipIdx.map Prod.fst = g.columns := List.zipIdx_map_fst 0 g.columns
  refine Eq.trans ?_ (congrArg (List.map Column.align) firsts)
  rw [Grid.fitColumns, List.map_map, List.map_map]
  refine List.map_congr_left fun entry _ => ?_
  simp only [Function.comp_apply]
  split <;> rfl

/-- Two grids that are the same above a row. -/
structure SameAbove (row : Nat) (g h : Grid) : Prop where
  rows : h.rows.take row = g.rows.take row
  merges : h.merges.filter (·.row < row) = g.merges.filter (·.row < row)
  horizontals : h.horizontals.filter (· < row) = g.horizontals.filter (· < row)
  partials : h.partials.filter (·.row < row) = g.partials.filter (·.row < row)
  verticals : h.verticals = g.verticals
  aligns : h.columns.map Column.align = g.columns.map Column.align
  declared : h.declaredRows = g.declaredRows

namespace SameAbove

variable {row other : Nat} {g h k : Grid}

theorem refl (row : Nat) (g : Grid) : SameAbove row g g := ⟨rfl, rfl, rfl, rfl, rfl, rfl, rfl⟩

theorem symm (same : SameAbove row g h) : SameAbove row h g :=
  ⟨same.rows.symm, same.merges.symm, same.horizontals.symm, same.partials.symm, same.verticals.symm,
    same.aligns.symm, same.declared.symm⟩

theorem trans (first : SameAbove row g h) (second : SameAbove row h k) : SameAbove row g k :=
  ⟨second.rows.trans first.rows, second.merges.trans first.merges, second.horizontals.trans first.horizontals,
    second.partials.trans first.partials, second.verticals.trans first.verticals,
    second.aligns.trans first.aligns, second.declared.trans first.declared⟩

/-- A filter that lets less through can come alone. -/
theorem filter_narrow {α : Type} {p q : α → Bool} (less : ∀ x, p x = true → q x = true) (xs : List α) :
    (xs.filter q).filter p = xs.filter p := by
  rw [List.filter_filter]
  refine List.filter_congr fun x _ => ?_
  cases passes : p x with
  | false => rfl
  | true => rw [less x passes, Bool.and_self]

/-- What is the same above a row is the same above a row further up. -/
theorem filter_mono {α : Type} (rowOf : α → Nat) (above : other ≤ row) {xs ys : List α}
    (same : ys.filter (rowOf · < row) = xs.filter (rowOf · < row)) :
    ys.filter (rowOf · < other) = xs.filter (rowOf · < other) := by
  have less (x : α) (inside : decide (rowOf x < other) = true) : decide (rowOf x < row) = true :=
    decide_eq_true (Nat.lt_of_lt_of_le (of_decide_eq_true inside) above)
  rw [← filter_narrow less ys, same, filter_narrow less xs]

theorem mono (same : SameAbove row g h) (above : other ≤ row) : SameAbove other g h where
  rows := by
    have cut := congrArg (List.take other) same.rows
    rwa [List.take_take, List.take_take, Nat.min_eq_left above] at cut
  merges := filter_mono Merge.row above same.merges
  horizontals := filter_mono id above same.horizontals
  partials := filter_mono PartialLine.row above same.partials
  verticals := same.verticals
  aligns := same.aligns
  declared := same.declared

theorem mapCell (g : Grid) (below : row ≤ other) (col : Nat) (f : Cell → Cell) :
    SameAbove row g (g.mapCell other col f) := by
  refine ⟨?_, rfl, rfl, rfl, rfl, rfl, rfl⟩
  rw [Grid.mapCell, List.take_modify]
  exact List.modify_eq_self (Nat.le_trans (List.length_take_le _ _) below)

theorem addHorizontal (g : Grid) (below : row ≤ other) : SameAbove row g (g.addHorizontal other) :=
  ⟨rfl, rfl, Ascending.filter_insert (by simpa using below) _, rfl, rfl, rfl, rfl⟩

theorem addPartial (g : Grid) {line : PartialLine} (below : row ≤ line.row) :
    SameAbove row g (g.addPartial line) := by
  refine ⟨rfl, rfl, rfl, ?_, rfl, rfl, rfl⟩
  rw [Grid.addPartial, List.filter_append, List.filter_cons_of_neg (by simpa using below), List.filter_nil,
    List.append_nil]

theorem addMerge (g : Grid) {m : Merge} (below : row ≤ m.row) : SameAbove row g (g.addMerge m) := by
  refine ⟨rfl, ?_, rfl, rfl, rfl, rfl, rfl⟩
  rw [Grid.addMerge, List.filter_append, List.filter_cons_of_neg (by simpa using below), List.filter_nil,
    List.append_nil]

theorem keepRows (g : Grid) (above : row ≤ other) : SameAbove row g (g.keepRows other) := by
  have less {x : Nat} (inside : decide (x < row) = true) : x < other :=
    Nat.lt_of_lt_of_le (of_decide_eq_true inside) above
  refine ⟨?_, ?_, ?_, ?_, ?_, ?_, ?_⟩
  · rw [keepRows_rows, List.take_take, Nat.min_eq_left above]
  all_goals
    unfold Grid.keepRows
    split
  · rfl
  · exact filter_narrow (fun _ inside => decide_eq_true (less inside)) _
  · rfl
  · exact filter_narrow (fun _ inside => decide_eq_true (Nat.le_of_lt (less inside))) _
  · rfl
  · exact filter_narrow (fun _ inside => decide_eq_true (Nat.le_of_lt (less inside))) _
  all_goals rfl

theorem fitColumns (same : SameAbove row g h) : SameAbove row g.fitColumns h.fitColumns :=
  ⟨same.rows, same.merges, same.horizontals, same.partials, same.verticals,
    (fitColumns_aligns h).trans (same.aligns.trans (fitColumns_aligns g).symm), same.declared⟩

end SameAbove

end Grid

namespace TableWalk

variable {t u v : TableWalk} {rules : InlineRules} {mode : Mode} {rows lastCol pauses : Nat} {flow : Flow} {n : Node}
  {nodes : List Node}

/-- What a walk keeps that goes down the rows: it writes into the row of its cursor, so that all above stays as it
is. -/
structure Below (t u : TableWalk) : Prop where
  same : t.grid.SameAbove t.cursor.row u.grid
  row : t.cursor.row ≤ u.cursor.row

theorem Below.refl (t : TableWalk) : Below t t := ⟨.refl _ _, Nat.le_refl _⟩

theorem Below.trans (first : Below t u) (second : Below u v) : Below t v :=
  ⟨first.same.trans (second.same.mono first.row), Nat.le_trans first.row second.row⟩

theorem writeCell_below (t : TableWalk) (rules : InlineRules) (mode : Mode) (col : Nat) (nodes : List Node) :
    Below t (t.writeCell rules mode col nodes).2 ∧
      (t.writeCell rules mode col nodes).2.cursor.row = t.cursor.row := by
  unfold writeCell
  split
  · exact ⟨.refl t, rfl⟩
  · exact ⟨⟨.mapCell _ (Nat.le_refl _) _ _, Nat.le_refl _⟩, rfl⟩

theorem spanCell_below {col : Nat} (spanned : t.spanCell n col lastCol = .ok u) :
    Below t u ∧ u.cursor = t.cursor := by
  obtain ⟨column, borders, _, rfl⟩ := spanCell_ok spanned
  have here := Nat.le_refl t.cursor.row
  have aligned := Grid.SameAbove.mapCell t.grid here col fun cell => { cell with align := some column.align, borders }
  refine ⟨⟨?_, here⟩, rfl⟩
  dsimp only
  split
  · exact aligned.trans (.addMerge _ here)
  · exact aligned

theorem step_below (stepped : t.step rules mode lastCol n = .ok (flow, u)) :
    Below t u ∧ (flow = .paused → u.cursor.row = t.cursor.row) := by
  have here := Nat.le_refl t.cursor.row
  cases step_cases stepped with
  | column | noLine => exact ⟨⟨.refl _ _, here⟩, fun _ => rfl⟩
  | row => exact ⟨⟨.refl _ _, Nat.le_succ _⟩, nofun⟩
  | line => exact ⟨⟨.addHorizontal _ here, here⟩, fun _ => rfl⟩
  | partialLine kind line read =>
    have inRow := (Node.partialLine_inside read).1
    exact ⟨⟨.addPartial _ (Nat.le_of_eq inRow.symm), here⟩, fun _ => rfl⟩
  | span kind before spanned =>
    obtain ⟨spans, cursor⟩ := spanCell_below spanned
    obtain ⟨wrote, row⟩ := before.writeCell_below rules mode (min t.col lastCol) [n]
    exact ⟨spans.trans wrote, fun _ => row.trans (congrArg RowCursor.row cursor)⟩
  | cell =>
    obtain ⟨wrote, row⟩ := t.writeCell_below rules mode (min t.col lastCol) [n]
    exact ⟨wrote, fun _ => row⟩

theorem steps_below (ran : t.steps rules mode lastCol nodes = .ok (flow, u)) : Below t u := by
  induction nodes generalizing t with
  | nil =>
    cases ran
    exact .refl _
  | cons n rest ih =>
    rcases steps_cons ran with ⟨v, stepped, ran⟩ | ⟨stepped, rfl⟩
    · exact (step_below stepped).1.trans (ih ran)
    · exact (step_below stepped).1

/-- A walk that more pauses are let through in leaves the rows above the first pause as they are. -/
theorem steps_same (clean : t.Clean lastCol) (more : t.text.tracker.state.pauses ≤ pauses)
    (ran : t.steps rules mode lastCol nodes = .ok (.paused, u))
    (whole : (t.allow pauses).steps rules mode lastCol nodes = .ok (flow, v)) :
    u.grid.SameAbove u.cursor.row v.grid := by
  -- up to the pause both walks are the same; from there each of them goes down the rows
  induction nodes generalizing t with
  | nil => cases ran
  | cons n rest ih =>
    rcases steps_cons ran with ⟨w, stepped, ran⟩ | ⟨stepped, _⟩
    · have first : RevealsOk (allow pauses) Behind (t.step rules mode lastCol n)
        ((t.allow pauses).step rules mode lastCol n) := step_reveals clean more
      have advanced := step_advanced clean stepped
      rw [stepped] at first
      rw [steps] at whole
      generalize (t.allow pauses).step rules mode lastCol n = found at first whole
      cases first with
      | completed => exact ih advanced.clean (advanced.state ▸ more) ran whole
    · obtain ⟨below, row⟩ := step_below stepped
      have above : (t.allow pauses).Below v := steps_below whole
      rw [row rfl]
      exact below.same.symm.trans above.same

/-- The walk stays in its grid. -/
theorem steps_fits (fits : t.Fits rows lastCol nodes) (ran : t.steps rules mode lastCol nodes = .ok (flow, u)) :
    ∃ left, u.Fits rows lastCol left := by
  induction nodes generalizing t with
  | nil =>
    cases ran
    exact ⟨[], fits⟩
  | cons n rest ih =>
    rcases steps_cons ran with ⟨v, stepped, ran⟩ | ⟨stepped, rfl⟩
    · exact ih (step_answers fits stepped).fits ran
    · exact ⟨rest, (step_answers fits stepped).fits⟩

theorem steps_error {error : DeckError} (ran : t.steps rules mode lastCol nodes = .error error) :
    ∃ n ∈ nodes, isFaulty n = true := by
  induction nodes generalizing t with
  | nil => cases ran
  | cons n rest ih =>
    rw [steps] at ran
    rcases stepped : t.step rules mode lastCol n with error | ⟨ended, v⟩
    · exact ⟨n, List.mem_cons_self, step_error stepped⟩
    · rw [stepped] at ran
      cases ended with
      | completed =>
        obtain ⟨m, member, faulty⟩ := ih ran
        exact ⟨m, List.mem_cons_of_mem n member, faulty⟩
      | paused => cases ran

end TableWalk

/-- What is left of a walk through text after a pause. -/
theorem Inline.meetPause_eq {s text : Inline} {flow : Flow} (met : s.meetPause = (flow, text)) :
    ∃ tracker, s.tracker.pause = (flow, tracker) ∧ text = { s with tracker } := by
  have ended := congrArg Prod.fst met
  have left := congrArg Prod.snd met
  exact ⟨s.tracker.pause.2, Prod.ext ended rfl, left.symm⟩

namespace DescriptionWalk

variable {d e : DescriptionWalk} {rules : InlineRules} {face : Face} {mode : Mode} {rows pauses : Nat} {n : Node}
  {left nodes : List Node} {stop : RowCursor}

/-- What a walk keeps that goes down the rows. -/
structure Below (d e : DescriptionWalk) : Prop where
  same : d.grid.SameAbove d.nextRow e.grid
  row : d.nextRow ≤ e.nextRow

theorem writeTerm_above (d : DescriptionWalk) (face : Face) (row : Nat) (term : String) (mode : Mode) :
    d.grid.SameAbove row (d.writeTerm face row term mode).2 := by
  unfold writeTerm
  split
  · exact .mapCell _ (Nat.le_refl _) _ _
  · exact .refl _ _

theorem item_below (fits : d.Fits rows (n :: left)) (kind : n.kind = .item) (rules : InlineRules) (face : Face)
    (mode : Mode) :
    Below d (d.item rules face mode n).2 ∧
      ∃ shown, (d.item rules face mode n).2.cursor = some ⟨d.nextRow, shown⟩ := by
  obtain ⟨cell, _, ran⟩ := item_eq fits.shape (fits.inRow kind) rules face mode n
  have term := d.writeTerm_above face d.nextRow n.params (d.text.gate n mode).1
  rw [ran]
  exact ⟨⟨term.trans (.mapCell _ (Nat.le_refl _) _ _), Nat.le_succ _⟩, _, rfl⟩

theorem steps_above (rules : InlineRules) (face : Face) (mode : Mode) (fits : d.Fits rows nodes) :
    d.grid.SameAbove d.nextRow (d.steps rules face mode nodes).2.grid ∧
      (d.steps rules face mode nodes).2.grid.HasShape rows 2 := by
  induction nodes generalizing d with
  | nil => exact ⟨.refl _ _, fits.shape⟩
  | cons n rest ih =>
    have goes := d.steps_goes rules face mode n rest
    generalize d.steps rules face mode (n :: rest) = found at goes
    cases goes with
    | item kind ran =>
      have below := (item_below fits kind rules face mode).1
      have after := (fits.item kind rules face mode).1
      rw [ran] at below after
      obtain ⟨same, shape⟩ := ih after
      exact ⟨below.same.trans (same.mono below.row), shape⟩
    | cut kind ran =>
      have below := (item_below fits kind rules face mode).1
      have after := (fits.item kind rules face mode).1
      rw [ran] at below after
      exact ⟨below.same, after.shape⟩
    | @pause text kind met => exact ih (fits.skip (by simp [kind]) text)
    | stop kind met => exact ⟨.refl _ _, fits.shape⟩
    | other noEntry => exact ih (fits.skip (ne_item_of_not_isEntry noEntry) d.text)

/-- A pause cuts the list off in the row of an item, or behind all of them. -/
theorem steps_inside (fits : d.Fits rows nodes) (ended : (d.steps rules face mode nodes).1 = some stop) :
    stop.keptRows ≤ rows := by
  induction nodes generalizing d with
  | nil => cases ended
  | cons n rest ih =>
    have goes := d.steps_goes rules face mode n rest
    generalize d.steps rules face mode (n :: rest) = found at goes ended
    cases goes with
    | item kind ran =>
      have after := (fits.item kind rules face mode).1
      rw [ran] at after
      exact ih after ended
    | cut kind ran =>
      obtain ⟨_, shown, cursor⟩ := item_below fits kind rules face mode
      have inRow := fits.inRow kind
      rw [ran] at cursor
      cases Option.some.inj (cursor.symm.trans ended)
      simp only [RowCursor.keptRows]
      split <;> omega
    | @pause text kind met => exact ih (fits.skip (by simp [kind]) text) ended
    | stop kind met =>
      have room := fits.room
      cases Option.some.inj ended
      simp only [RowCursor.keptRows, Bool.false_eq_true, if_false]
      omega
    | other noEntry => exact ih (fits.skip (ne_item_of_not_isEntry noEntry) d.text) ended

/-- A walk that more pauses are let through in leaves the rows above the first pause as they are. -/
theorem steps_same (fits : d.Fits rows nodes) (clean : d.Clean) (more : d.text.tracker.state.pauses ≤ pauses)
    (ended : (d.steps rules face mode nodes).1 = some stop) :
    (d.steps rules face mode nodes).2.grid.SameAbove stop.row
      ((d.allow pauses).steps rules face mode nodes).2.grid := by
  induction nodes generalizing d with
  | nil => cases ended
  | cons n rest ih =>
    have fitsMore : (d.allow pauses).Fits rows (n :: rest) := ⟨fits.shape, fits.room⟩
    have whole := (steps_above rules face mode fitsMore).1
    have goes := d.steps_goes rules face mode n rest
    generalize d.steps rules face mode (n :: rest) = found at goes ended ⊢
    cases goes with
    | item kind ran =>
      have first := item_reveals fits kind clean rules face mode more
      have advanced := item_advanced fits kind clean rules face mode
      have after := (fits.item kind rules face mode).1
      rw [ran] at first advanced after
      rw [steps]
      simp only [kind]
      generalize (d.allow pauses).item rules face mode n = foundMore at first ⊢
      cases first with
      | completed => exact ih after advanced.clean (advanced.state ▸ more) ended
    | cut kind ran =>
      obtain ⟨below, shown, cursor⟩ := item_below fits kind rules face mode
      rw [ran] at below cursor
      cases Option.some.inj (cursor.symm.trans ended)
      exact below.same.symm.trans whole
    | @pause text kind met =>
      obtain ⟨tracker, passed, rfl⟩ := Inline.meetPause_eq met
      have through : (d.allow pauses).text.tracker.pause = (.completed, tracker.allow pauses) :=
        Tracker.pause_allow more passed
      have state := d.text.tracker.pause_state
      rw [passed] at state
      rw [steps]
      simp only [kind, Inline.meetPause, through]
      exact ih (d := { d with text := { d.text with tracker } }) (fits.skip (by simp [kind]) _) clean
        (state ▸ more) ended
    | stop kind met =>
      cases Option.some.inj ended
      exact whole
    | other noEntry =>
      rw [steps_of_not_isEntry noEntry]
      exact ih (fits.skip (ne_item_of_not_isEntry noEntry) d.text) clean more ended

end DescriptionWalk

end Unveil
