import Unveil.Proofs.Content.Trace
import Unveil.Proofs.Omitted.Replaced
import Unveil.Proofs.Reveal.Blocks

namespace Unveil

open Inline (Replaced ReplacedAll)

namespace Inline

theorem visitAll_pass (rules : InlineRules) (s : Inline) (mode : Mode) (nodes : List Node) :
    (visitAll rules s mode nodes).2.tracker.pass = s.tracker.pass :=
  congrArg PassState.pass (Tracker.answer_state (answer_asksAll rules s mode nodes))

variable {pass : Nat} {rules : InlineRules} {nodes others : List Node}

/-- The kind of a node is kept, or it is the one of content under an overlay. -/
theorem Replaced.kind_iff {n n' : Node} (replaced : Replaced pass rules n n') {kind : NodeKind}
    (plain : ∀ veil, kind ≠ .veil veil) : n'.kind = kind ↔ n.kind = kind := by
  cases replaced with
  | omitted only =>
    rw [only]
    exact iff_of_false (fun same => plain _ same.symm) fun same => plain _ same.symm
  | within => exact Iff.rfl

theorem ReplacedAll.filter_length (replaced : ReplacedAll pass rules nodes others) {kind : NodeKind}
    (plain : ∀ veil, kind ≠ .veil veil) :
    (others.filter (·.kind = kind)).length = (nodes.filter (·.kind = kind)).length := by
  induction nodes generalizing others with
  | nil =>
    cases replaced
    rfl
  | cons n rest ih =>
    cases replaced with
    | cons first others =>
      rw [List.filter_cons, List.filter_cons]
      by_cases same : n.kind = kind
      · rw [if_pos (decide_eq_true ((first.kind_iff plain).mpr same)), if_pos (decide_eq_true same), List.length_cons,
          List.length_cons, ih others]
      · rw [if_neg (by simpa using (first.kind_iff plain).not.mpr same), if_neg (by simpa using same), ih others]

end Inline

namespace TableWalk

/-- Walks over a table on a pass that are the same but for husks in the blocks that they have put off. -/
structure Beside (pass : Nat) (policy : NestedPolicy) (t t' : TableWalk) : Prop where
  state : t.text.tracker.pass = pass
  same : t' = { t with text := t'.text }
  text : Inline.Beside pass policy t.text t'.text

variable {pass : Nat} {rules : InlineRules} {t t' u : TableWalk} {mode : Mode} {lastCol : Nat} {flow : Flow}

theorem Beside.writeCell (beside : Beside pass rules.policy t t') {nodes others : List Node}
    (replaced : ReplacedAll pass rules nodes others) (col : Nat) :
    (t'.writeCell rules mode col others).1 = (t.writeCell rules mode col nodes).1 ∧
      Beside pass rules.policy (t.writeCell rules mode col nodes).2 (t'.writeCell rules mode col others).2 := by
  obtain ⟨rfl, same, text⟩ := beside
  obtain ⟨text', rfl⟩ : ∃ text', t' = { t with text := text' } := ⟨_, same⟩
  cases atCell : t.grid.cell? t.cursor.row col with
  | none =>
    unfold TableWalk.writeCell
    rw [atCell]
    exact ⟨rfl, rfl, rfl, text⟩
  | some cell =>
    have start := text.step ({ · with body := cell.body }) (fun _ => rfl) rfl
    have state := Inline.visitAll_pass rules { t.text with body := cell.body } mode nodes
    obtain ⟨ended, walked⟩ := Inline.visitAll_replaced (s := { t.text with body := cell.body }) mode start replaced
    rw [writeCell_eq rules mode _ atCell, writeCell_eq (t := { t with text := text' }) rules mode _ atCell]
    refine ⟨ended.symm, state, ?_, walked.step ({ · with emitted := false }) (fun _ => rfl) rfl⟩
    rw [walked.same]
    rfl

theorem Beside.spanCell (beside : Beside pass rules.policy t t') {n n' : Node} {col : Nat}
    (inside : col ≤ lastCol) (span : n'.columnSpan = n.columnSpan) (params : n'.params = n.params)
    (spanned : t.spanCell n col lastCol = .ok u) :
    ∃ u', t'.spanCell n' col lastCol = .ok u' ∧ Beside pass rules.policy u u' := by
  obtain ⟨text', rfl⟩ : ∃ text', t' = { t with text := text' } := ⟨_, beside.same⟩
  rw [spanCell_eq _ _ inside] at spanned ⊢
  rw [span, params]
  cases read : ColumnPlan.readCell n.params with
  | error fault =>
    rw [read] at spanned
    cases spanned
  | ok found =>
    rw [read] at spanned
    cases Except.ok.inj spanned
    exact ⟨_, rfl, beside.state, rfl, beside.text⟩

/-- A child of a table with husks is met in the same way. -/
theorem Beside.step (beside : Beside pass rules.policy t t') {n n' : Node} (replaced : Replaced pass rules n n')
    (stepped : t.step rules mode lastCol n = .ok (flow, u)) :
    ∃ u', t'.step rules mode lastCol n' = .ok (flow, u') ∧ Beside pass rules.policy u u' := by
  have written {v v' : TableWalk} (still : Beside pass rules.policy v v') (col : Nat)
      (eq : v.writeCell rules mode col [n] = (flow, u)) :
      ∃ u', v'.writeCell rules mode col [n'] = (flow, u') ∧ Beside pass rules.policy u u' := by
    obtain ⟨ended, after⟩ := @Beside.writeCell pass rules v v' mode still _ _ (.cons replaced .nil) col
    rw [eq] at ended after
    exact ⟨(v'.writeCell rules mode col [n']).2, Prod.ext ended rfl, after⟩
  obtain ⟨text', rfl⟩ : ∃ text', t' = { t with text := text' } := ⟨_, beside.same⟩
  cases replaced with
  | omitted only unseen =>
    simp only [TableWalk.step, only, Except.ok.injEq] at stepped
    simp only [TableWalk.step, Node.scope, Except.ok.injEq]
    exact written beside _ stepped
  | within inside =>
    rename_i kind overlay params payload children others
    cases kind with
    | tableColumn | tableRow | hline =>
      cases Except.ok.inj stepped
      exact ⟨_, rfl, beside.state, rfl, beside.text⟩
    | cline =>
      have line : Node.partialLine ⟨.cline, overlay, params, payload, others⟩ t.cursor.row lastCol =
        Node.partialLine ⟨.cline, overlay, params, payload, children⟩ t.cursor.row lastCol := rfl
      simp only [TableWalk.step, line] at stepped ⊢
      obtain ⟨_ | drawn, read, ended⟩ := map_eq_ok_iff.mp stepped
      · cases ended
        rw [read]
        exact ⟨_, rfl, beside.state, rfl, beside.text⟩
      · cases ended
        rw [read]
        exact ⟨_, rfl, beside.state, rfl, beside.text⟩
    | multiColumn =>
      simp only [TableWalk.step] at stepped ⊢
      rcases spanned : t.spanCell ⟨.multiColumn, overlay, params, payload, children⟩ (min t.col lastCol) lastCol
        with error | v
      · rw [spanned] at stepped
        cases stepped
      · obtain ⟨v', spanned', still⟩ : ∃ v', TableWalk.spanCell { t with text := text' }
            ⟨.multiColumn, overlay, params, payload, others⟩ (min t.col lastCol) lastCol = .ok v' ∧
            Beside pass rules.policy v v' := 
              beside.spanCell (Nat.min_le_right _ _) rfl rfl spanned
        rw [spanned] at stepped
        rw [spanned']
        obtain ⟨u', wrote, after⟩ := written still _ (Except.ok.inj stepped)
        exact ⟨u', congrArg Except.ok wrote, after⟩
    | _ =>
      simp only [TableWalk.step, Except.ok.injEq] at stepped ⊢
      exact written beside _ stepped

theorem Beside.steps (beside : Beside pass rules.policy t t') {nodes others : List Node}
    (replaced : ReplacedAll pass rules nodes others) (ran : t.steps rules mode lastCol nodes = .ok (flow, u)) :
    ∃ u', t'.steps rules mode lastCol others = .ok (flow, u') ∧ Beside pass rules.policy u u' := by
  induction nodes generalizing t t' others with
  | nil =>
    cases replaced
    cases ran
    exact ⟨t', rfl, beside⟩
  | cons n rest ih =>
    cases replaced with
    | cons first others =>
      rw [TableWalk.steps]
      rcases steps_cons ran with ⟨v, stepped, ran⟩ | ⟨stepped, rfl⟩
      · obtain ⟨v', stepped', still⟩ := beside.step first stepped
        rw [stepped']
        exact ih still others ran
      · obtain ⟨v', stepped', still⟩ := beside.step first stepped
        rw [stepped']
        exact ⟨v', rfl, still⟩

end TableWalk

/-- Blocks that show the same and put off the same but for husks. -/
structure Block.Beside (pass : Nat) (policy : NestedPolicy) (b b' : Block) : Prop where
  shape : b'.shape = b.shape
  flow : b'.flow = b.flow
  tracker : b'.tracker = b.tracker
  deferred : List.Forall₂ (Deferred.Replaced pass policy) b.deferred b'.deferred

namespace Inline

/-- A text that is new has put nothing off. -/
theorem Beside.ofFaces (pass : Nat) (policy : NestedPolicy) (tracker : Tracker) (faces : FaceStack) (body : TextBody) :
    Beside pass policy (.ofFaces tracker faces body) (.ofFaces tracker faces body) := ⟨rfl, .nil⟩

end Inline

namespace DescriptionWalk

/-- Walks over a description list on a pass that are the same but for husks in the blocks that they have put off. -/
structure Beside (pass : Nat) (policy : NestedPolicy) (d d' : DescriptionWalk) : Prop where
  state : d.text.tracker.pass = pass
  same : d' = { d with text := d'.text }
  text : Inline.Beside pass policy d.text d'.text

variable {pass : Nat} {rules : InlineRules} {d d' : DescriptionWalk}

theorem Beside.item (beside : Beside pass rules.policy d d') {overlay : Overlay} {params : String}
    {payload : Option Payload} {children others : List Node} (inside : ReplacedAll pass rules children others)
    (face : Face) (mode : Mode) :
    (d'.item rules face mode ⟨.item, overlay, params, payload, others⟩).1 =
        (d.item rules face mode ⟨.item, overlay, params, payload, children⟩).1 ∧
      Beside pass rules.policy (d.item rules face mode ⟨.item, overlay, params, payload, children⟩).2
        (d'.item rules face mode ⟨.item, overlay, params, payload, others⟩).2 := by
  obtain ⟨state, same, text⟩ := beside
  obtain ⟨text', rfl⟩ : ∃ text', d' = { d with text := text' } := ⟨_, same⟩
  obtain ⟨inner, gated⟩ := @Inline.Beside.gate _ _ d.text text' text ⟨.item, overlay, params, payload, children⟩
    ⟨.item, overlay, params, payload, others⟩ rfl rfl mode
  have still := (Inline.gate_pass d.text ⟨.item, overlay, params, payload, children⟩ mode).trans state
  have term : DescriptionWalk.writeTerm { d with text := text' } face (nextRow { d with text := text' }) params
      (text'.gate ⟨.item, overlay, params, payload, others⟩ mode).1 =
      d.writeTerm face d.nextRow params (d.text.gate ⟨.item, overlay, params, payload, children⟩ mode).1 := by
    rw [inner]
    rfl
  cases atCell : (d.writeTerm face d.nextRow params
      (d.text.gate ⟨.item, overlay, params, payload, children⟩ mode).1).2.cell? d.nextRow 1 with
  | none =>
    have missing := atCell
    rw [← term] at missing
    rw [item_none rules atCell, item_none (d := { d with text := text' }) rules missing]
    refine ⟨rfl, still, ?_, gated⟩
    simp only [term]
  | some cell =>
    have atOther := atCell
    rw [← term] at atOther
    rw [item_some rules atCell, item_some (d := { d with text := text' }) rules atOther]
    have start := gated.step ({ · with body := cell.body }) (fun _ => rfl) rfl
    obtain rfl := still
    obtain ⟨ended, walked⟩ := Inline.visitAll_replaced
      (s := { (d.text.gate ⟨.item, overlay, params, payload, children⟩ mode).2 with body := cell.body })
      (d.text.gate ⟨.item, overlay, params, payload, children⟩ mode).1 start inside
    have walkedState := Inline.visitAll_pass rules
      { (d.text.gate ⟨.item, overlay, params, payload, children⟩ mode).2 with body := cell.body }
      (d.text.gate ⟨.item, overlay, params, payload, children⟩ mode).1 children
    dsimp only
    rw [term, inner]
    refine ⟨ended.symm, walkedState, ?_, walked.step ({ · with emitted := false }) (fun _ => rfl) rfl⟩
    simp only [filled]
    rw [walked.same]
    rfl

theorem Beside.steps (beside : Beside pass rules.policy d d') {nodes others : List Node}
    (replaced : ReplacedAll pass rules nodes others) (face : Face) (mode : Mode) :
    (d'.steps rules face mode others).1 = (d.steps rules face mode nodes).1 ∧
      Beside pass rules.policy (d.steps rules face mode nodes).2 (d'.steps rules face mode others).2 := by
  induction nodes generalizing d d' others with
  | nil =>
    cases replaced
    exact ⟨rfl, beside⟩
  | cons n rest ih =>
    cases replaced with
    | cons first left =>
      cases first with
      | omitted only =>
        simp only [DescriptionWalk.steps, only, Node.scope]
        exact ih beside left
      | within inside =>
        rename_i kind overlay params payload children others
        cases kind
        case item =>
          obtain ⟨ended, after⟩ := beside.item inside face mode
          simp only [DescriptionWalk.steps]
          generalize d.item rules face mode ⟨.item, overlay, params, payload, children⟩ = found at ended after
          generalize d'.item rules face mode ⟨.item, overlay, params, payload, others⟩ = other at ended after
          obtain ⟨went, e⟩ := found
          obtain ⟨_, e'⟩ := other
          obtain rfl : went = _ := ended.symm
          cases went with
          | completed => exact ih after left
          | paused =>
            have same : e' = { e with text := e'.text } := after.same
            refine ⟨?_, after⟩
            rw [same]
        case pause =>
          have met := beside.text.meetPause
          have state : d.text.meetPause.2.tracker.pass = pass :=
            (congrArg PassState.pass d.text.tracker.pause_state).trans beside.state
          simp only [DescriptionWalk.steps]
          generalize d.text.meetPause = found at met state
          generalize d'.text.meetPause = other at met
          obtain ⟨went, t⟩ := found
          obtain ⟨_, t'⟩ := other
          obtain ⟨rfl, text⟩ := met
          have after : Beside pass rules.policy { d with text := t } { d' with text := t' } :=
            ⟨state, by rw [beside.same], text⟩
          cases went with
          | completed => exact ih after left
          | paused =>
            refine ⟨?_, after⟩
            rw [beside.same]
            rfl
        all_goals
          simp only [DescriptionWalk.steps]
          exact ih beside left

end DescriptionWalk

namespace Node

variable {c : Context} {n n' : Node} {tracker : Tracker} {faces : FaceStack} {mode : Mode} {block : Block}

theorem renderTable_replaced (replaced : BlockReplaced tracker.pass c.policy n n') (kind : n.kind = .tabular)
    (rendered : n.renderTable c tracker faces mode = .ok block) :
    ∃ block', n'.renderTable c tracker faces mode = .ok block' ∧ block.Beside tracker.pass c.policy block' := by
  obtain ⟨plan, flow, walk, read, nonempty, ran, rfl⟩ := renderTable_ok rendered
  cases replaced with
  | @mk _ overlay params payload children others _ inside =>
    obtain rfl : _ = NodeKind.tabular := kind
    have gated : mode.gate ⟨.tabular, overlay, params, payload, others⟩ tracker =
      mode.gate ⟨.tabular, overlay, params, payload, children⟩ tracker := rfl
    have rows : rowCount ⟨.tabular, overlay, params, payload, others⟩ =
        rowCount ⟨.tabular, overlay, params, payload, children⟩ :=
      congrArg (· + 1) (inside.filter_length nofun)
    have start : TableWalk.Beside tracker.pass c.policy
        (.start ⟨.tabular, overlay, params, payload, children⟩ plan c
          (mode.gate ⟨.tabular, overlay, params, payload, children⟩ tracker).2 faces)
        (.start ⟨.tabular, overlay, params, payload, others⟩ plan c
          (mode.gate ⟨.tabular, overlay, params, payload, others⟩ tracker).2 faces) := by
      refine ⟨mode.gate_pass _ tracker, ?_, gated ▸ .ofFaces ..⟩
      unfold TableWalk.start
      rw [rows, gated]
    obtain ⟨walk', ran', beside⟩ := @TableWalk.Beside.steps _ c.cellRules _ _ _ _ _ _ start _ _ inside ran
    obtain ⟨text', rfl⟩ : ∃ text', walk' = { walk with text := text' } := ⟨_, beside.same⟩
    exact ⟨_, renderTable_ran read nonempty ran', rfl, rfl, beside.text.tracker, beside.text.deferred⟩

theorem descriptionBlock_beside {pass : Nat} {policy : NestedPolicy} {found other : Option RowCursor × DescriptionWalk}
    (ended : other.1 = found.1) (beside : found.2.Beside pass policy other.2) :
    (descriptionBlock mode found).Beside pass policy (descriptionBlock mode other) := by
  refine ⟨?_, congrArg DescriptionWalk.flow ended, beside.text.tracker, beside.text.deferred⟩
  rw [descriptionBlock, ended, beside.same]
  rfl

theorem renderDescription_replaced (replaced : BlockReplaced tracker.pass c.policy n n')
    (kind : n.kind = .list .description) :
    (n.renderDescription c tracker faces mode).Beside tracker.pass c.policy
      (n'.renderDescription c tracker faces mode) := by
  cases replaced with
  | @mk _ overlay params payload children others _ inside =>
    obtain rfl : _ = NodeKind.list .description := kind
    have items : itemCount ⟨.list .description, overlay, params, payload, others⟩ =
        itemCount ⟨.list .description, overlay, params, payload, children⟩ := inside.filter_length nofun
    have start : DescriptionWalk.Beside tracker.pass c.policy
        (.start ⟨.list .description, overlay, params, payload, children⟩ c
          (mode.gate ⟨.list .description, overlay, params, payload, children⟩ tracker).2 faces)
        (.start ⟨.list .description, overlay, params, payload, others⟩ c
          (mode.gate ⟨.list .description, overlay, params, payload, others⟩ tracker).2 faces) := by
      refine ⟨mode.gate_pass _ tracker, ?_, .ofFaces ..⟩
      unfold DescriptionWalk.start
      rw [items]
    obtain ⟨ended, beside⟩ := @DescriptionWalk.Beside.steps _ c.cellRules _ _ start _ _ inside faces.current
      (mode.gate ⟨.list .description, overlay, params, payload, children⟩ tracker).1
    exact descriptionBlock_beside ended beside

/-- A list of the slide is not put off. -/
theorem renderList_replaced {list : ListKind} (replaced : BlockReplaced tracker.pass c.policy n n')
    (kind : n.kind = .list list) (native : list ≠ .description) :
    (n.renderList c tracker faces mode).Beside tracker.pass c.policy (n'.renderList c tracker faces mode) := by
  cases replaced with
  | @mk _ overlay params payload children others _ inside =>
    obtain rfl : _ = NodeKind.list list := kind
    have replaced : Replaced tracker.pass c.listRules ⟨.list list, overlay, params, payload, children⟩
        ⟨.list list, overlay, params, payload, others⟩ := by
      refine .within ?_
      cases list with
      | bullet | numbered => exact inside
      | description => exact absurd rfl native
    have start := Inline.Beside.ofFaces tracker.pass c.policy tracker faces (.ofSize faces.current.size)
    obtain ⟨ended, walked⟩ := @Inline.visit_replaced c.listRules (.ofFaces tracker faces (.ofSize faces.current.size)) _
      mode start _ _ replaced
    refine ⟨?_, ended.symm, walked.tracker, walked.deferred⟩
    unfold renderList
    dsimp only
    rw [walked.same]
    rfl

/-- A block with husks in place of omitted content is rendered to the same shape, and puts off the same blocks
with husks. -/
theorem renderBlock_replaced (replaced : BlockReplaced tracker.pass c.policy n n')
    (rendered : n.renderBlock c tracker faces mode = .ok block) :
    ∃ block', n'.renderBlock c tracker faces mode = .ok block' ∧ block.Beside tracker.pass c.policy block' := by
  have same : n'.kind = n.kind := by
    cases replaced
    rfl
  unfold renderBlock at rendered ⊢
  rw [same]
  split at rendered
  · rename_i kind
    exact ⟨_, rfl, Except.ok.inj rendered ▸ renderDescription_replaced replaced kind⟩
  · rename_i native kind
    exact ⟨_, rfl, Except.ok.inj rendered ▸ renderList_replaced replaced kind native⟩
  · rename_i kind
    exact renderTable_replaced replaced kind rendered
  · cases replaced
    have undeferred := (renderImage_ok rendered).2.2.1
    exact ⟨block, rendered, rfl, rfl, rfl, undeferred ▸ .nil⟩
  · cases Except.ok.inj rendered
    exact ⟨_, rfl, rfl, rfl, rfl, .nil⟩

end Node

namespace TitlePage

/-- Title pages with values that are the same but for husks. -/
structure Replaced (pass : Nat) (p p' : TitlePage) : Prop where
  title : Option.Rel (ReplacedAll pass titleRules) p.title p'.title
  author : Option.Rel (ReplacedAll pass titleRules) p.author p'.author
  date : Option.Rel (ReplacedAll pass titleRules) p.date p'.date

variable {pass : Nat} {p p' : TitlePage}

theorem Replaced.refl (pass : Nat) (p : TitlePage) : p.Replaced pass p := by
  have same : ∀ value, Option.Rel (ReplacedAll pass titleRules) value value
    | none => .none
    | some nodes => .some (.refl pass titleRules nodes)
  exact ⟨same _, same _, same _⟩

theorem Replaced.update (replaced : p.Replaced pass p') {policy : NestedPolicy} {n n' : Node}
    (value : BlockReplaced pass policy n n') : (p.update n).Replaced pass (p'.update n') := by
  obtain ⟨_, inside⟩ := value
  rename_i kind _ _ _ _ _ _
  cases kind with
  | titleField field =>
    cases field with
    | title => exact { replaced with title := .some inside }
    | author => exact { replaced with author := .some inside }
    | date => exact { replaced with date := .some inside }
  | _ => exact replaced

theorem walkPart_replaced (w : Walk) (size width : Float32) (mode : Mode) {nodes others : List Node}
    (replaced : ReplacedAll w.tracker.pass titleRules nodes others) :
    walkPart w size width mode others = walkPart w size width mode nodes := by
  obtain ⟨ended, walked⟩ := @Inline.visitAll_replaced titleRules (partStart w size) (partStart w size) mode
    (.ofFaces ..) _ _ replaced
  rw [walkPart_eq, walkPart_eq, ← ended, walked.same]
  rfl

theorem walkPart_pass (w : Walk) (size width : Float32) (mode : Mode) (nodes : List Node) :
    (walkPart w size width mode nodes).2.tracker.pass = w.tracker.pass :=
  congrArg PassState.pass (Tracker.answer_state (walkPart_answers w size width mode nodes))

/-- Values of the same size that are the same but for husks. -/
def PartReplaced (pass : Nat) (part other : Option (List Node) × Float32) : Prop :=
  Option.Rel (ReplacedAll pass titleRules) part.1 other.1 ∧ part.2 = other.2

theorem walk_replaced {w : Walk} (base width : Float32) (mode : Mode)
    {parts others : List (Option (List Node) × Float32)}
    (replaced : List.Forall₂ (PartReplaced w.tracker.pass) parts others) :
    walk w base width mode others = walk w base width mode parts := by
  induction parts generalizing w others with
  | nil =>
    cases replaced
    rfl
  | cons part rest ih =>
    obtain ⟨other, others, first, later, rfl⟩ := List.forall₂_cons_left_iff.mp replaced
    obtain ⟨value, factor⟩ := part
    obtain ⟨value', _⟩ := other
    obtain ⟨same, rfl⟩ : _ ∧ factor = _ := first
    cases same with
    | none =>
      rw [walk, walk]
      exact ih later
    | @some nodes _ inside =>
      have state := walkPart_pass w (base * factor) width mode nodes
      rw [walk, walk, walkPart_replaced w _ width mode inside]
      generalize walkPart w (base * factor) width mode nodes = found at state
      obtain ⟨ended, v⟩ := found
      cases ended with
      | completed =>
        rw [← state] at later
        exact ih later
      | paused => rfl

/-- A title page with husks is rendered in the same way. -/
theorem Replaced.render {tracker : Tracker} (replaced : p.Replaced tracker.pass p') (base width : Float32)
    (mode : Mode) : p'.render tracker base width mode = p.render tracker base width mode := by
  have parts : List.Forall₂ (PartReplaced tracker.pass) p.parts p'.parts :=
    .cons ⟨replaced.title, rfl⟩ (.cons ⟨replaced.author, rfl⟩ (.cons ⟨replaced.date, rfl⟩ .nil))
  unfold TitlePage.render
  rw [@walk_replaced ⟨[], 0.0, tracker⟩ base width mode _ _ parts]

/-- What it asks is answered in the same way. -/
theorem Replaced.answer {tracker : Tracker} (replaced : p.Replaced tracker.pass p') :
    tracker.answer p'.asks = tracker.answer p.asks := by
  rw [render_answers p' tracker 0 0 .visible, render_answers p tracker 0 0 .visible, replaced.render]

end TitlePage

end Unveil
