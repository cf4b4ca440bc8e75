import Unveil.Proofs.Content.Trace
import Unveil.Proofs.Nested.Marks

namespace Unveil

namespace Mark

/-- The marks of what is asked of a tracker. -/
def ofAsks (asks : List Ask) : List Mark :=
  asks.flatMap fun
    | .pause => [pause]
    | .node n => [overlay n.overlay]
    | .part o => [overlay o]
    | .fault => []

end Mark

/-- What is only asked puts nothing off. -/
theorem Follows.ofAsks {t u : Tracker} {asks : List Ask} {flow : Flow} (answered : t.answer asks = some (flow, u))
    (queue : List Deferred) : Follows (Mark.ofAsks asks) t queue flow u queue := by
  induction asks generalizing t with
  | nil =>
    cases answered
    exact .quiet rfl rfl
  | cons ask rest ih =>
    cases ask with
    | pause =>
      have first := Follows.pause t queue
      simp only [Tracker.answer] at answered
      generalize t.pause = met at answered first
      obtain ⟨ended, v⟩ := met
      cases ended with
      | completed => exact first.append (ih answered)
      | paused =>
        cases answered
        exact first.append_paused _
    | node n => exact Follows.overlay (ih answered)
    | part o => exact Follows.overlay (ih answered)
    | fault => cases answered

namespace TableWalk

/-- The marks of the children of a table. Only cells leave some. -/
def marksAll (rules : InlineRules) (pass : Nat) (place : List Nat) (i : Nat) (mode : Mode) : List Node → List Mark
  | [] => []
  | n :: rest =>
    (if n.kind.isRuling then [] else Inline.marks rules pass (place ++ [i]) mode n) ++
      marksAll rules pass place (i + 1) mode rest

def Leaves (marks : List Mark) (t : TableWalk) (flow : Flow) (u : TableWalk) : Prop :=
  Follows marks t.text.tracker t.text.deferred flow u.text.tracker u.text.deferred

theorem Fits.writeCell_leaves {t : TableWalk} {rows lastCol col : Nat} {left : List Node}
    (fits : t.Fits rows lastCol left) (inCol : col ≤ lastCol) (rules : InlineRules) (place : List Nat) (mode : Mode)
    (n : Node) :
    Leaves (Inline.marks rules t.text.tracker.pass place mode n) t (t.writeCell rules mode col [n]).1
      (t.writeCell rules mode col [n]).2 := by
  obtain ⟨cell, atCell⟩ := fits.cell?_isSome inCol
  rw [writeCell_eq rules mode [n] atCell, Inline.visitAll_singleton]
  exact Inline.visit_leaves rules { t.text with body := cell.body } place mode n

theorem step_leaves {rules : InlineRules} {mode : Mode} {rows lastCol : Nat} {n : Node} {left : List Node}
    {t u : TableWalk} {flow : Flow} (fits : t.Fits rows lastCol (n :: left)) (place : List Nat)
    (stepped : t.step rules mode lastCol n = .ok (flow, u)) :
    Leaves (if n.kind.isRuling then [] else Inline.marks rules t.text.tracker.pass place mode n) t flow u := by
  have last : min t.col lastCol ≤ lastCol := Nat.min_le_right _ _
  have ruling {v : TableWalk} (kind : n.kind.isRuling = true) (text : v.text = t.text) :
      Leaves (if n.kind.isRuling then [] else Inline.marks rules t.text.tracker.pass place mode n) t .completed v := by
    rw [if_pos kind, Leaves, text]
    exact .quiet rfl rfl
  cases step_cases stepped with
  | column kind => exact ruling (by simp [kind, NodeKind.isRuling]) rfl
  | row kind => exact ruling (by simp [kind, NodeKind.isRuling]) rfl
  | line kind => exact ruling (by simp [kind, NodeKind.isRuling]) rfl
  | partialLine kind => exact ruling (by simp [kind, NodeKind.isRuling]) rfl
  | noLine kind => exact ruling (by simp [kind, NodeKind.isRuling]) rfl
  | span kind before spanned =>
    obtain ⟨same, text, _⟩ := fits.spanCell spanned
    have written := same.writeCell_leaves last rules place mode n
    rw [Leaves, text] at written
    rw [if_neg (by simp [kind, NodeKind.isRuling])]
    exact written
  | cell noRuling noSpan =>
    rw [if_neg (by simp [noRuling])]
    exact fits.writeCell_leaves last rules place mode n

theorem steps_leaves {rules : InlineRules} {mode : Mode} {rows lastCol : Nat} {nodes : List Node}
    {t u : TableWalk} {flow : Flow} (fits : t.Fits rows lastCol nodes) (place : List Nat) (i : Nat)
    (stepped : t.steps rules mode lastCol nodes = .ok (flow, u)) :
    Leaves (marksAll rules t.text.tracker.pass place i mode nodes) t flow u := by
  induction nodes generalizing t i with
  | nil =>
    cases Except.ok.inj stepped
    exact .quiet rfl rfl
  | cons n rest ih =>
    rcases steps_cons stepped with ⟨v, found, stepped⟩ | ⟨found, rfl⟩
    · have first := step_leaves fits (place ++ [i]) found
      have pass : v.text.tracker.pass = t.text.tracker.pass := congrArg PassState.pass first.state
      have others := ih (step_answers fits found).fits (i + 1) stepped
      rw [pass] at others
      exact Follows.append first others
    · exact Follows.append_paused (step_leaves fits (place ++ [i]) found) _

end TableWalk

namespace DescriptionWalk

/-- The marks of the children of a description list. -/
def marksAll (rules : InlineRules) (pass : Nat) (place : List Nat) (i : Nat) (mode : Mode) : List Node → List Mark
  | [] => []
  | n :: rest =>
    (match n.kind with
      | .item =>
        Mark.gate n ++ Inline.marksAll rules pass (place ++ [i]) 0 (mode.max (.ofNode n pass)) n.children
      | .pause => [.pause]
      | _ => []) ++
      marksAll rules pass place (i + 1) mode rest

theorem item_leaves {d : DescriptionWalk} {rows : Nat} {n : Node} {left : List Node} (fits : d.Fits rows (n :: left))
    (kind : n.kind = .item) (rules : InlineRules) (place : List Nat) (face : Face) (mode : Mode) :
    Follows (Mark.gate n ++ Inline.marksAll rules d.text.tracker.pass place 0
        (mode.max (.ofNode n d.text.tracker.pass)) n.children) d.text.tracker d.text.deferred
      (d.item rules face mode n).1 (d.item rules face mode n).2.text.tracker
      (d.item rules face mode n).2.text.deferred := by
  obtain ⟨cell, _, ran⟩ := item_eq fits.shape (fits.inRow kind) rules face mode n
  rw [ran, ← Mode.gate_fst mode n d.text.tracker]
  have inside := Inline.visitAll_leaves rules { (d.text.gate n mode).2 with body := cell.body } place 0
    (d.text.gate n mode).1 n.children
  rw [Inline.gate_tracker, Mode.gate_pass] at inside
  exact Follows.gate inside

theorem steps_leaves {d : DescriptionWalk} {rows : Nat} {nodes : List Node} (fits : d.Fits rows nodes)
    (rules : InlineRules) (place : List Nat) (i : Nat) (face : Face) (mode : Mode) :
    Follows (marksAll rules d.text.tracker.pass place i mode nodes) d.text.tracker d.text.deferred
      (flow (d.steps rules face mode nodes).1) (d.steps rules face mode nodes).2.text.tracker
      (d.steps rules face mode nodes).2.text.deferred := by
  induction nodes generalizing d i with
  | nil => exact .quiet rfl rfl
  | cons n rest ih =>
    cases kind : n.kind
    case item =>
      obtain ⟨after, isSome, _⟩ := fits.item kind rules face mode
      have first := item_leaves fits kind rules (place ++ [i]) face mode
      rw [steps, marksAll]
      simp only [kind]
      rcases found : d.item rules face mode n with ⟨ended, e⟩
      rw [found] at after isSome first
      cases ended with
      | completed =>
        have pass : e.text.tracker.pass = d.text.tracker.pass := congrArg PassState.pass first.state
        have others := ih after (i + 1)
        rw [pass] at others
        exact first.append others
      | paused =>
        have stopped : flow e.cursor = .paused := by simp only [flow, isSome, if_true]
        simp only [stopped]
        exact first.append_paused _
    case pause =>
      have after := fits.skip (by simp [kind])
      have first := Follows.pause d.text.tracker d.text.deferred
      have pass : d.text.tracker.pause.2.pass = d.text.tracker.pass :=
        congrArg PassState.pass d.text.tracker.pause_state
      rw [steps, marksAll]
      simp only [kind, Inline.meetPause]
      generalize d.text.tracker.pause = met at first pass
      obtain ⟨ended, tracker⟩ := met
      cases ended with
      | completed =>
        have others := ih (after { d.text with tracker }) (i + 1)
        rw [pass] at others
        exact first.append others
      | paused => exact first.append_paused _
    all_goals
      have after : d.Fits rows rest := fits.skip (by simp [kind]) d.text
      rw [steps, marksAll]
      simp only [kind]
      exact ih after (i + 1)

end DescriptionWalk

namespace Node

/-- The marks of a block that stands in the content of a slide. -/
def blockMarks (policy : NestedPolicy) (pass : Nat) (place : List Nat) (mode : Mode) (n : Node) : List Mark :=
  let inner := mode.max (.ofNode n pass)
  match n.kind with
  | .list .description =>
    Mark.gate n ++ DescriptionWalk.marksAll ⟨policy, false⟩ pass place 0 inner n.children
  | .list _ => Mark.gate n ++ Inline.marksAll ⟨policy, true⟩ pass place 0 inner n.children
  | .tabular => Mark.gate n ++ TableWalk.marksAll ⟨policy, false⟩ pass place 0 inner n.children
  | .image => Mark.gate n
  | _ => []

variable {n : Node} {c : Context} {tracker : Tracker} {faces : FaceStack} {mode : Mode}

theorem renderDescription_leaves (n : Node) (c : Context) (tracker : Tracker) (faces : FaceStack) (mode : Mode)
    (place : List Nat) :
    let block := n.renderDescription c tracker faces mode
    Follows (Mark.gate n ++ DescriptionWalk.marksAll c.cellRules tracker.pass place 0
        (mode.max (.ofNode n tracker.pass)) n.children) tracker [] block.flow block.tracker block.deferred := by
  have fits := DescriptionWalk.start_fits n c (mode.gate n tracker).2 faces
  have leaves := DescriptionWalk.steps_leaves fits c.cellRules place 0 faces.current (mode.gate n tracker).1
  rw [← Mode.gate_fst mode n tracker, ← mode.gate_pass n tracker]
  exact leaves.gate

theorem renderTable_leaves {block : Block} (rendered : n.renderTable c tracker faces mode = .ok block)
    (place : List Nat) :
    Follows (Mark.gate n ++ TableWalk.marksAll c.cellRules tracker.pass place 0
        (mode.max (.ofNode n tracker.pass)) n.children) tracker [] block.flow block.tracker block.deferred := by
  obtain ⟨plan, flow, walk, _, nonempty, ran, rfl⟩ := renderTable_ok rendered
  have fits := TableWalk.start_fits n c (mode.gate n tracker).2 faces nonempty
  rw [← Mode.gate_fst mode n tracker, ← mode.gate_pass n tracker]
  exact Follows.gate (TableWalk.steps_leaves fits place 0 ran)

/-- A list of the slide puts off what its items do. -/
theorem marks_list {kind : ListKind} (isList : n.kind = .list kind) (native : kind ≠ .description)
    (policy : NestedPolicy) (pass : Nat) (place : List Nat) (mode : Mode) :
    Inline.marks ⟨policy, true⟩ pass place mode n =
      Mark.gate n ++ Inline.marksAll ⟨policy, true⟩ pass place 0 (mode.max (.ofNode n pass)) n.children := by
  obtain ⟨_, overlay, params, payload, children⟩ := n
  obtain rfl : _ = NodeKind.list kind := isList
  simp [Inline.marks, InlineRules.defers, native]

theorem renderList_leaves {kind : ListKind} (isList : n.kind = .list kind) (native : kind ≠ .description)
    (c : Context) (tracker : Tracker) (faces : FaceStack) (mode : Mode) (place : List Nat) :
    let block := n.renderList c tracker faces mode
    Follows (Mark.gate n ++ Inline.marksAll c.listRules tracker.pass place 0
        (mode.max (.ofNode n tracker.pass)) n.children) tracker [] block.flow block.tracker block.deferred := by
  have marks := marks_list isList native c.policy tracker.pass place mode
  rw [Context.listRules, ← marks]
  exact Inline.visit_leaves c.listRules (.ofFaces tracker faces (.ofSize faces.current.size)) place mode n

theorem renderImage_leaves {block : Block} (rendered : n.renderImage c tracker mode = .ok block) :
    Follows (Mark.gate n) tracker [] block.flow block.tracker block.deferred := by
  have gate : Follows (Mark.gate n) tracker [] .completed (mode.gate n tracker).2 [] := by
    rw [← List.append_nil (Mark.gate n)]
    exact Follows.gate (.quiet rfl rfl)
  obtain ⟨_, flow, deferred, tracker⟩ := renderImage_ok rendered
  rw [flow, deferred, tracker]
  exact gate

/-- Rendering a block follows its marks, which depend on its node and on the mode around it only. -/
theorem renderBlock_leaves {block : Block} (rendered : n.renderBlock c tracker faces mode = .ok block)
    (place : List Nat) :
    Follows (n.blockMarks c.policy tracker.pass place mode) tracker [] block.flow block.tracker block.deferred := by
  obtain ⟨kind, overlay, params, payload, children⟩ := n
  cases kind with
  | list kind =>
    cases kind with
    | description =>
      obtain rfl := Except.ok.inj rendered
      exact renderDescription_leaves _ c tracker faces mode place
    | bullet =>
      obtain rfl := Except.ok.inj rendered
      exact renderList_leaves rfl (by decide : ListKind.bullet ≠ .description) c tracker faces mode place
    | numbered =>
      obtain rfl := Except.ok.inj rendered
      exact renderList_leaves rfl (by decide : ListKind.numbered ≠ .description) c tracker faces mode place
  | tabular => exact renderTable_leaves rendered place
  | image => exact renderImage_leaves rendered
  | _ =>
    obtain rfl := Except.ok.inj rendered
    exact .quiet rfl rfl

end Node

namespace Content

mutual

/-- The marks of a node with its subtree in the content of a slide. Title pages show what the title page in
force holds. -/
def marks (policy : NestedPolicy) (pass : Nat) (p : TitlePage) (place : List Nat) (mode : Mode) :
    Node → List Mark
  | n@⟨kind, _, _, _, children⟩ =>
    match kind with
    | .pause => [.pause]
    | .style _ => .overlay n.overlay :: marksAll policy pass p place 0 mode children
    | .veil _ | .item => Mark.gate n ++ marksAll policy pass p place 0 (mode.max (.ofNode n pass)) children
    | .list _ | .tabular | .image => n.blockMarks policy pass place mode
    | .titlePage => Mark.gate n ++ Mark.ofAsks p.asks
    | .multiColumn | .part _ | .unrecognized _ => marksAll policy pass p place 0 mode children
    | .text | .paragraph | .titleField _ | .tableColumn | .tableRow | .hline | .cline | .frameTitle
    | .frameSubtitle | .heading _ | .graphicsPath | .path => []

/-- The marks of siblings at a place, the first of which is the child `i`. -/
def marksAll (policy : NestedPolicy) (pass : Nat) (p : TitlePage) (place : List Nat) (i : Nat) (mode : Mode) :
    List Node → List Mark
  | [] => []
  | n :: rest =>
    marks policy pass p (place ++ [i]) mode n ++
      marksAll policy pass (Walk.titled p n) place (i + 1) mode rest

end

namespace Trace

/-- The walk of content follows marks. -/
def Leaves (marks : List Mark) (t : Trace) (ended : Flow) (u : Trace) : Prop :=
  Follows marks t.tracker t.deferred ended u.tracker u.deferred

theorem closeText_eq (t : Trace) : t.closeText = { t with text := none, calls := t.closeText.calls } := by
  obtain ⟨_, _, text, _, _, _⟩ := t
  unfold closeText
  cases text with
  | none => rfl
  | some body =>
    dsimp only
    split <;> rfl

theorem titled_visit {t u : Trace} {c : Context} {mode : Mode} {n : Node}
    (visited : visit c t mode n = .ok (.completed, u)) : u.titlePage = Walk.titled t.titlePage n := by
  have onto := visit_onto default c t mode n
  rw [visited] at onto
  exact (Walk.visit_answers n onto).titlePage rfl

theorem block_leaves {t u : Trace} {c : Context} {n : Node} {mode : Mode} {ended : Flow} (place : List Nat)
    (met : t.block c n mode = .ok (ended, u)) : Leaves (n.blockMarks c.policy t.tracker.pass place mode) t ended u := by
  unfold block at met
  rcases rendered : n.renderBlock c t.tracker t.faces mode with error | b
  · rw [rendered] at met
    cases met
  · rw [rendered, closeText_eq] at met
    obtain ⟨found, followed, put⟩ := Node.renderBlock_leaves rendered place
    cases met
    exact ⟨found, followed, by rw [put]; rfl⟩

theorem title_leaves (t : Trace) (c : Context) (n : Node) (mode : Mode) :
    Leaves (Mark.gate n ++ Mark.ofAsks t.titlePage.asks) t (t.title c n mode).1 (t.title c n mode).2 := by
  unfold title
  rw [closeText_eq]
  exact Follows.gate (.ofAsks (TitlePage.render_answers _ _ _ _ _) _)

/-- Closing a style leaves no mark. -/
theorem Leaves.closeStyle {t u : Trace} {marks : List Mark} {ended : Flow} {found : Except DeckError (Flow × Trace)}
    (inside : ∀ ended v, found = .ok (ended, v) → Leaves marks t ended v)
    (closed : andThen Trace.closeStyle found = .ok (ended, u)) : Leaves marks t ended u := by
  rcases found with error | ⟨_ | _, v⟩
  · cases closed
  · cases closed
    exact inside _ v rfl
  · cases closed
    exact inside _ _ rfl

mutual

/-- The walk of a node in the content of a slide follows its marks. -/
theorem visit_leaves {t u : Trace} {c : Context} {mode : Mode} {ended : Flow} (place : List Nat) :
    ∀ n : Node, visit c t mode n = .ok (ended, u) →
      Leaves (marks c.policy t.tracker.pass t.titlePage place mode n) t ended u
  | ⟨kind, overlay, params, payload, children⟩ => fun visited => by
    cases kind with
    | text =>
      simp only [visit, meet] at visited
      split at visited
      · obtain ⟨rfl, rfl⟩ := Prod.mk.inj (Except.ok.inj visited)
        unfold append
        split <;> exact Follows.quiet rfl rfl
      · obtain ⟨rfl, rfl⟩ := Prod.mk.inj (Except.ok.inj visited)
        exact Follows.quiet rfl rfl
    | paragraph =>
      obtain ⟨rfl, rfl⟩ := Prod.mk.inj (Except.ok.inj visited)
      unfold breakParagraph
      split
      · rw [closeText_eq]
        exact Follows.quiet rfl rfl
      · exact Follows.quiet rfl rfl
    | pause =>
      obtain ⟨rfl, rfl⟩ := Prod.mk.inj (Except.ok.inj visited)
      exact Follows.pause t.tracker t.deferred
    | style command =>
      refine Leaves.closeStyle (fun ended v found => ?_) visited
      exact Follows.overlay (visitAll_leaves (t := t.openStyle _) place 0 children found)
    | veil | item =>
      have inside := visitAll_leaves place 0 children visited
      simp only [gate, Mode.gate_pass] at inside
      simp only [marks]
      rw [← Mode.gate_fst mode _ t.tracker]
      exact Follows.gate inside
    | list | tabular | image => exact block_leaves place visited
    | titlePage =>
      have leaves := title_leaves t c ⟨.titlePage, overlay, params, payload, children⟩ mode
      obtain ⟨rfl, rfl⟩ := Prod.mk.inj (Except.ok.inj visited)
      exact leaves
    | multiColumn | part | unrecognized => exact visitAll_leaves place 0 children visited
    | titleField | tableColumn | tableRow | hline | cline | frameTitle | frameSubtitle | heading | graphicsPath
    | path =>
      obtain ⟨rfl, rfl⟩ := Prod.mk.inj (Except.ok.inj visited)
      exact Follows.quiet rfl rfl

theorem visitAll_leaves {t u : Trace} {c : Context} {mode : Mode} {ended : Flow} (place : List Nat) (i : Nat) :
    ∀ nodes : List Node, visitAll c t mode nodes = .ok (ended, u) →
      Leaves (marksAll c.policy t.tracker.pass t.titlePage place i mode nodes) t ended u
  | [] => fun visited => by
    obtain ⟨rfl, rfl⟩ := Prod.mk.inj (Except.ok.inj visited)
    exact Follows.quiet rfl rfl
  | n :: rest => fun visited => by
    rw [visitAll] at visited
    rcases found : visit c t mode n with error | ⟨_ | _, v⟩
    · rw [found] at visited
      cases visited
    · rw [found] at visited
      have first := visit_leaves (place ++ [i]) n found
      have pass : v.tracker.pass = t.tracker.pass := congrArg PassState.pass first.state
      have others := visitAll_leaves place (i + 1) rest visited
      rw [pass, titled_visit found] at others
      exact Follows.append first others
    · rw [found] at visited
      obtain ⟨rfl, rfl⟩ := Prod.mk.inj (Except.ok.inj visited)
      exact Follows.append_paused (visit_leaves (place ++ [i]) n found) _

end

end Trace

end Content

end Unveil
