import Unveil.Proofs.Reveal.Table
import Unveil.Proofs.Title

namespace Unveil

namespace DescriptionWalk

/-- Nothing was written into the rows of the items to come. -/
def Clean (d : DescriptionWalk) : Prop :=
  ∀ r c cell, d.grid.cell? r c = some cell → d.nextRow ≤ r → cell.body.chars = []

def allow (pauses : Nat) (d : DescriptionWalk) : DescriptionWalk :=
  { d with text := d.text.allow pauses }

/-- Rows that stay when the walk ends in its last item. -/
def standing (d : DescriptionWalk) : Nat := (d.cursor.map RowCursor.keptRows).getD 0

/-- All that one list holds is also held by the other, and comes first there. -/
structure Behind (d e : DescriptionWalk) : Prop where
  grid : d.grid.Behind e.grid
  kept : d.standing ≤ e.standing
  deferred : d.text.deferred <+: e.text.deferred

variable {d e : DescriptionWalk} {rows pauses : Nat} {n : Node} {left nodes : List Node}

theorem standing_le_nextRow (d : DescriptionWalk) : d.standing ≤ d.nextRow := by
  unfold standing nextRow
  cases d.cursor with
  | none => exact Nat.le_refl 0
  | some cursor =>
    simp only [Option.map_some, Option.getD_some, RowCursor.keptRows]
    split <;> omega

/-- The term of an item goes in front of everything in its row. -/
theorem Clean.writeTerm (clean : d.Clean) (face : Face) (term : String) (mode : Mode) :
    d.grid.Behind (d.writeTerm face d.nextRow term mode).2 ∧
      (d.writeTerm face d.nextRow term mode).2.EmptyAfter d.nextRow 0 := by
  have empty : d.grid.EmptyAfter d.nextRow 0 :=
    fun r c cell atCell after => clean r c cell atCell (by omega)
  unfold DescriptionWalk.writeTerm
  split
  · exact ⟨empty.behind_write fun _ _ => TextBody.append_prefix _ _ _ _, empty.mapCell _⟩
  · exact ⟨.refl _, empty⟩

/-- What an item keeps. -/
structure Advanced (d e : DescriptionWalk) : Prop where
  grid : d.grid.Behind e.grid
  clean : e.Clean
  nextRow : e.nextRow = d.nextRow + 1
  deferred : d.text.deferred <+: e.text.deferred
  state : e.text.tracker.state = d.text.tracker.state

theorem item_advanced (fits : d.Fits rows (n :: left)) (kind : n.kind = .item) (clean : d.Clean)
    (rules : InlineRules) (face : Face) (mode : Mode) : Advanced d (d.item rules face mode n).2 := by
  obtain ⟨cell, atCell, ran⟩ := item_eq fits.shape (fits.inRow kind) rules face mode n
  obtain ⟨term, empty⟩ := clean.writeTerm face n.params (d.text.gate n mode).1
  have inRow : Grid.EmptyAfter _ d.nextRow 1 := empty.mono (.inr ⟨rfl, Nat.zero_le 1⟩)
  let start : Inline := { (d.text.gate n mode).2 with body := cell.body }
  have grown := Inline.behind_visitAll rules start (d.text.gate n mode).1 n.children
  have state :=
    Tracker.answer_state (Inline.answer_asksAll rules start (d.text.gate n mode).1 n.children)
  rw [ran]
  refine ⟨term.trans (inRow.behind_write fun old atOld => ?_), ?_, rfl, grown.deferred,
    state.trans (by simp [start])⟩
  · cases Option.some.inj (atCell.symm.trans atOld)
    exact grown.body
  · intro r c cell atCell below
    rw [filled_nextRow] at below
    exact inRow.mapCell _ r c cell atCell (.inl below)

/-- How a walk over items goes on from a state. -/
structure Walked (d : DescriptionWalk) (found : Option RowCursor × DescriptionWalk) : Prop where
  grid : d.grid.Behind found.2.grid
  kept : ∀ cursor, found.1 = some cursor → d.nextRow ≤ cursor.keptRows
  deferred : d.text.deferred <+: found.2.text.deferred

theorem steps_walked (rules : InlineRules) (face : Face) (mode : Mode) (fits : d.Fits rows nodes)
    (clean : d.Clean) : Walked d (d.steps rules face mode nodes) := by
  induction nodes generalizing d with
  | nil => exact ⟨.refl _, nofun, List.prefix_rfl⟩
  | cons n rest ih =>
    have goes := d.steps_goes rules face mode n rest
    generalize d.steps rules face mode (n :: rest) = found at goes
    cases goes with
    | item kind ran =>
      have advanced := item_advanced fits kind clean rules face mode
      have after := (fits.item kind rules face mode).1
      rw [ran] at advanced after
      have later := ih after advanced.clean
      refine ⟨advanced.grid.trans later.grid, fun cursor atCursor => ?_,
        advanced.deferred.trans later.deferred⟩
      have kept := later.kept cursor atCursor
      rw [advanced.nextRow] at kept
      omega
    | cut kind ran =>
      have advanced := item_advanced fits kind clean rules face mode
      rw [ran] at advanced
      refine ⟨advanced.grid, fun cursor atCursor => ?_, advanced.deferred⟩
      have row := advanced.nextRow
      simp only at atCursor row
      simp only [nextRow, atCursor, Option.map_some, Option.getD_some] at row
      simp only [nextRow, RowCursor.keptRows]
      omega
    | pause kind met =>
      obtain rfl := congrArg Prod.snd met
      have later := ih (fits.skip (by simp [kind]) d.text.meetPause.2) clean
      exact ⟨later.grid, later.kept, later.deferred⟩
    | stop kind met =>
      obtain rfl := congrArg Prod.snd met
      refine ⟨.refl _, fun cursor atCursor => ?_, List.prefix_rfl⟩
      cases Option.some.inj atCursor
      exact Nat.le_add_right _ _
    | other noEntry => exact ih (fits.skip (ne_item_of_not_isEntry noEntry) d.text) clean

theorem item_reveals (fits : d.Fits rows (n :: left)) (kind : n.kind = .item) (clean : d.Clean)
    (rules : InlineRules) (face : Face) (mode : Mode) (more : d.text.tracker.state.pauses ≤ pauses) :
    Reveals (allow pauses) Behind (d.item rules face mode n)
      ((d.allow pauses).item rules face mode n) := by
  have inRow := fits.inRow kind
  have gate :
      (d.allow pauses).text.gate n mode =
        ((d.text.gate n mode).1, (d.text.gate n mode).2.allow pauses) :=
    Inline.gate_allow d.text n mode pauses
  obtain ⟨cell, atCell, ran⟩ := item_eq fits.shape inRow rules face mode n
  obtain ⟨cell', atCell', ranMore⟩ := item_eq (d := d.allow pauses) fits.shape inRow rules face mode n
  rw [gate] at atCell' ranMore
  cases Option.some.inj (atCell.symm.trans atCell')
  obtain ⟨_, empty⟩ := clean.writeTerm face n.params (d.text.gate n mode).1
  have emptyRow : Grid.EmptyAfter _ d.nextRow 1 := empty.mono (.inr ⟨rfl, Nat.zero_le 1⟩)
  let start : Inline := { (d.text.gate n mode).2 with body := cell.body }
  have state : start.tracker.state.pauses ≤ pauses := by simpa [start] using more
  have below := Inline.visitAll_reveals rules start (d.text.gate n mode).1 state n.children
  rw [ran, ranMore]
  refine below.map (f := fun _ => filled d.nextRow _) (g := fun _ => filled d.nextRow _) (fun _ => rfl)
    fun _ s t behind => ?_
  refine ⟨emptyRow.behind_mapCell fun _ _ => behind.body, TableWalk.keptRows_le fun shows => ?_,
    behind.deferred⟩
  rw [Bool.or_eq_true] at shows ⊢
  exact shows.imp_right behind.emitted

/-- How a walk over items ended, with what it left. -/
def ended (found : Option RowCursor × DescriptionWalk) : Flow × (Option RowCursor × DescriptionWalk) :=
  (flow found.1, found)

/-- The same of two walks that have ended. -/
structure EndedBehind (found more : Option RowCursor × DescriptionWalk) : Prop where
  paused : found.1.isSome
  grid : found.2.grid.Behind more.2.grid
  kept : ∀ cursor other, found.1 = some cursor → more.1 = some other → cursor.keptRows ≤ other.keptRows
  deferred : found.2.text.deferred <+: more.2.text.deferred

theorem standing_eq {cursor : RowCursor} (stands : d.cursor = some cursor) :
    d.standing = cursor.keptRows := by
  rw [standing, stands]
  rfl

theorem steps_reveals (rules : InlineRules) (face : Face) (mode : Mode) (fits : d.Fits rows nodes)
    (clean : d.Clean) (more : d.text.tracker.state.pauses ≤ pauses) :
    Reveals (Prod.map id (allow pauses)) EndedBehind (ended (d.steps rules face mode nodes))
      (ended ((d.allow pauses).steps rules face mode nodes)) := by
  induction nodes generalizing d with
  | nil => exact .completed (none, d)
  | cons n rest ih =>
    rw [steps, steps]
    cases kind : n.kind
    case item =>
      have first := item_reveals fits kind clean rules face mode more
      have advanced := item_advanced fits kind clean rules face mode
      have advancedMore :=
        item_advanced (d := d.allow pauses) ⟨fits.shape, fits.room⟩ kind clean rules face mode
      obtain ⟨after, stands, _, _⟩ := fits.item kind rules face mode
      obtain ⟨afterMore, standsMore, _, _⟩ :=
        Fits.item (d := d.allow pauses) ⟨fits.shape, fits.room⟩ kind rules face mode
      simp only
      generalize d.item rules face mode n = found at first advanced after stands
      generalize (d.allow pauses).item rules face mode n = foundMore
        at first advancedMore afterMore standsMore
      cases first with
      | completed e => exact ih after advanced.clean (advanced.state ▸ more)
      | @paused e u flow behind =>
        have ends : ended (e.cursor, e) = (.paused, (e.cursor, e)) := by
          rw [ended, DescriptionWalk.flow]
          simp only [stands, if_true]
        simp only [ends]
        cases flow with
        | completed =>
          have walked := steps_walked rules face mode afterMore advancedMore.clean
          refine .paused ⟨stands, behind.grid.trans walked.grid, fun stop other eq atOther => ?_,
            behind.deferred.trans walked.deferred⟩
          rw [← standing_eq eq]
          exact Nat.le_trans behind.kept
            (Nat.le_trans u.standing_le_nextRow (walked.kept other atOther))
        | paused =>
          refine .paused ⟨stands, behind.grid, fun stop other eq atOther => ?_, behind.deferred⟩
          have kept := behind.kept
          rwa [standing_eq eq, standing_eq atOther] at kept
    case pause =>
      simp only [Inline.meetPause]
      rcases met : d.text.tracker.pause with ⟨flow, tracker⟩
      cases flow with
      | completed =>
        have through : (d.allow pauses).text.tracker.pause = (.completed, tracker.allow pauses) :=
          Tracker.pause_allow more met
        have state := d.text.tracker.pause_state
        rw [met] at state
        rw [through]
        exact ih (fits.skip (by simp [kind]) { d.text with tracker }) clean (state ▸ more)
      | paused =>
        refine .paused ?_
        simp only
        rcases (d.allow pauses).text.tracker.pause with ⟨flow, trackerMore⟩
        cases flow with
        | completed =>
          have walked :=
            steps_walked (d := { d with text := { d.text with tracker := trackerMore } }) rules face
              mode (fits.skip (by simp [kind]) _) clean
          refine ⟨rfl, walked.grid, fun stop other eq atOther => ?_, walked.deferred⟩
          cases Option.some.inj eq
          exact walked.kept other atOther
        | paused =>
          refine ⟨rfl, .refl _, fun stop other eq atOther => ?_, List.prefix_rfl⟩
          cases Option.some.inj eq
          cases Option.some.inj atOther
          exact Nat.le_refl _
    all_goals exact ih (fits.skip (by simp [kind]) d.text) clean more

theorem start_clean (n : Node) (c : Context) (tracker : Tracker) (faces : FaceStack) :
    (start n c tracker faces).Clean :=
  fun _ _ _ atCell _ => Grid.empty_cell_chars atCell

end DescriptionWalk

namespace Node

/-- The rendering of a description list from the end of its walk. -/
def descriptionBlock (mode : Mode) (found : Option RowCursor × DescriptionWalk) : Block :=
  ⟨found.2.grid.toShape? found.1 mode, DescriptionWalk.flow found.1, found.2.text.deferred,
    found.2.text.tracker⟩

/-- A description list shows no less where more pauses are let through. -/
theorem renderDescription_reveals (n : Node) (c : Context) {tracker : Tracker} (faces : FaceStack)
    (mode : Mode) {pauses : Nat} (more : tracker.state.pauses ≤ pauses) :
    Reveals (Block.allow pauses) Block.Behind (n.renderDescription c tracker faces mode).ended
      (n.renderDescription c (tracker.allow pauses) faces mode).ended := by
  have state : (mode.gate n tracker).2.state.pauses ≤ pauses := by simpa using more
  have walked := DescriptionWalk.steps_reveals c.cellRules faces.current (mode.gate n tracker).1
    (DescriptionWalk.start_fits n c (mode.gate n tracker).2 faces)
    (DescriptionWalk.start_clean n c (mode.gate n tracker).2 faces) state
  have below (found other : Option RowCursor × DescriptionWalk)
    (behind : DescriptionWalk.EndedBehind found other) :
      (descriptionBlock (mode.gate n tracker).1 found).Behind
        (descriptionBlock (mode.gate n tracker).1 other) := by
    obtain ⟨cursor, atCursor⟩ := Option.isSome_iff_exists.mp behind.paused
    refine ⟨?_, behind.deferred⟩
    simp only [Block.chars, descriptionBlock, atCursor]
    exact behind.grid.toShape? (fun stop eq => behind.kept cursor stop atCursor eq) _
  unfold renderDescription
  rw [Mode.gate_allow]
  exact walked.map (f := fun _ => descriptionBlock (mode.gate n tracker).1)
    (g := fun _ => descriptionBlock (mode.gate n tracker).1) (fun _ => rfl) fun _ => below

end Node

namespace TitlePage

namespace Walk

/-- All that one title page holds is also held by the other, and comes first there. -/
def Behind (w v : Walk) : Prop := Shape.charsAll w.members <+: Shape.charsAll v.members

def allow (pauses : Nat) (w : Walk) : Walk := { w with tracker := w.tracker.allow pauses }

/-- The page after the text of a part. -/
def placed (w : Walk) (size width : Float32) (mode : Mode) (text : Inline) : Walk :=
  if mode.emits && !text.body.isBlank then
    let shape := (Shape.ofBody ⟨0.0, w.top, width, 0.0⟩ text.body).fitHeight
    ⟨w.members ++ [shape], shape.bounds.bottom + size * 0.5, text.tracker⟩
  else { w with tracker := text.tracker }

theorem placed_chars (w : Walk) (size width : Float32) (mode : Mode) (text : Inline) :
    Shape.charsAll (w.placed size width mode text).members =
      Shape.charsAll w.members ++ if mode.emits then text.body.chars else [] := by
  unfold placed
  cases mode.emits with
  | false => simp
  | true =>
    cases blank : text.body.isBlank with
    | true => simp [TextBody.chars_eq_nil blank]
    | false => simp [Shape.charsAll_append, Shape.charsAll]

theorem placed_allow (w : Walk) (size width : Float32) (mode : Mode) (text : Inline) (pauses : Nat) :
    (w.allow pauses).placed size width mode (text.allow pauses) =
      (w.placed size width mode text).allow pauses := by
  cases shown : mode.emits && !text.body.isBlank <;>
    simp only [placed, Inline.allow, shown, Bool.false_eq_true, if_false, if_true] <;> rfl

end Walk

/-- The text of a part before its first node. -/
def partStart (w : Walk) (size : Float32) : Inline :=
  .ofFaces w.tracker (.ofBase size) ((TextBody.ofSize size).setAlign .center)

theorem walkPart_eq (w : Walk) (size width : Float32) (mode : Mode) (nodes : List Node) :
    walkPart w size width mode nodes =
      ((Inline.visitAll titleRules (partStart w size) mode nodes).1,
        w.placed size width mode (Inline.visitAll titleRules (partStart w size) mode nodes).2) := by
  unfold walkPart Walk.placed partStart
  simp only
  split <;> rfl

variable {w : Walk} {pauses : Nat}

theorem walkPart_behind (w : Walk) (size width : Float32) (mode : Mode) (nodes : List Node) :
    w.Behind (walkPart w size width mode nodes).2 := by
  rw [walkPart_eq, Walk.Behind, Walk.placed_chars]
  exact List.prefix_append _ _

theorem walkPart_reveals (size width : Float32) (mode : Mode) (nodes : List Node)
    (more : w.tracker.state.pauses ≤ pauses) :
    Reveals (Walk.allow pauses) Walk.Behind (walkPart w size width mode nodes)
      (walkPart (w.allow pauses) size width mode nodes) := by
  rw [walkPart_eq, walkPart_eq]
  have below := Inline.visitAll_reveals titleRules (partStart w size) mode more nodes
  refine below.map (f := fun _ => w.placed size width mode)
    (g := fun _ => (w.allow pauses).placed size width mode)
    (fun s => w.placed_allow size width mode s pauses) fun _ s t behind => ?_
  rw [Walk.Behind, Walk.placed_chars, Walk.placed_chars]
  refine (List.prefix_append_right_inj _).mpr ?_
  split
  · exact behind.body
  · exact List.prefix_rfl

theorem walk_behind (base width : Float32) (mode : Mode) (parts : List (Option (List Node) × Float32))
    (w : Walk) :
    w.Behind (walk w base width mode parts).2 := by
  induction parts generalizing w with
  | nil => exact List.prefix_rfl
  | cons part rest ih =>
    obtain ⟨nodes?, factor⟩ := part
    cases nodes? with
    | none => exact ih w
    | some nodes =>
      have first := walkPart_behind w (base * factor) width mode nodes
      rw [walk]
      rcases found : walkPart w (base * factor) width mode nodes with ⟨flow, v⟩
      rw [found] at first
      cases flow with
      | completed => exact first.trans (ih v)
      | paused => exact first

theorem walk_reveals (base width : Float32) (mode : Mode) (parts : List (Option (List Node) × Float32))
    (more : w.tracker.state.pauses ≤ pauses) :
    Reveals (Walk.allow pauses) Walk.Behind (walk w base width mode parts)
      (walk (w.allow pauses) base width mode parts) := by
  induction parts generalizing w with
  | nil => exact .completed w
  | cons part rest ih =>
    obtain ⟨nodes?, factor⟩ := part
    cases nodes? with
    | none => exact ih more
    | some nodes =>
      have first := walkPart_reveals (base * factor) width mode nodes more
      have state := Tracker.answer_state (walkPart_answers w (base * factor) width mode nodes)
      rw [walk, walk]
      generalize walkPart w (base * factor) width mode nodes = found at first state
      generalize walkPart (w.allow pauses) (base * factor) width mode nodes = foundMore at first
      cases first with
      | completed v => exact ih (state ▸ more)
      | @paused v u flow behind =>
        cases flow with
        | completed => exact .paused (behind.trans (walk_behind base width mode rest u))
        | paused => exact .paused behind

theorem group?_chars (members : List Shape) :
    ((group? members).map Shape.chars).getD [] = Shape.charsAll members := by
  cases members <;> rfl

end TitlePage

end Unveil
